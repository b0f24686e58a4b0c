import Interchange.Service
import Interchange.Startup.Config

/-!
# Starting the service

`Startup.run` takes the service from its configuration to the point where it listens: it reads the
configuration, loads the network, and claims its address. What the machine does (reading a file,
claiming an address) is given as functions, so the whole start is a value.
-/

namespace Interchange.Startup

/-- How a start ends: the service listens at an address, or it does not start. -/
inductive Result
  | listening (service : Service) (address : SocketAddress)
  | failed

/-- An event of the start. -/
def event (level : LogLevel) (message : String) (fields : List (String × String)) : Event :=
  ⟨level, .startup, message, fields⟩

/-- What is logged when some rules of a network are not used. -/
def issueEvents (n : Network) : List Event :=
  if n.issues.isEmpty then []
  else
    [event .info "Some constrained transfers were not indexed"
      [("issues", Decimal.text n.issues.length)]]

/-- What is logged when the service listens. -/
def listeningEvents (address : SocketAddress) : List Event :=
  [ event .info "Transfer server listening" [("addr", address.text)],
    event .info "  GET  /health" [],
    event .info
      "  GET  /patterns/:pattern/transfers/:stop_position?direction=forward|reverse" [],
    event .info "  POST /transfers/search" [] ]

/-- Starts the service. `readFile` gives the bytes of a file and `claim` takes an address; either
gives the machine's own reason when it fails. -/
def run (lookup : String → Option String) (readFile : String → Except String (List UInt8))
    (claim : SocketAddress → Except String Unit) : Result × List Event :=
  match ServerConfig.ofLookup lookup with
  | .error fault => (.failed, [event .error fault.message []])
  | .ok config =>
    match Network.ofFile config.dataPath (readFile config.dataPath) with
    | .error fault => (.failed, [event .error fault.message [("path", config.dataPath)]])
    | .ok network =>
      let loaded := network.loadEvents config.dataPath ++ issueEvents network
      match claim config.address with
      | .error reason =>
        ( .failed,
          loaded ++
            [event .error ("Failed to bind: " ++ reason) [("addr", config.address.text)]] )
      | .ok _ =>
        ( .listening ⟨network, config.search⟩ config.address,
          loaded ++ listeningEvents config.address )

/-! ## Which events are shown -/

/-- The least level that is shown for a setting of the log filter, none when nothing is shown. Any
other setting shows what is at least informative. -/
def leastLevel? : Option String → Option LogLevel
  | some "off" => none
  | some "error" => some .error
  | some "warn" => some .warn
  | some "debug" => some .debug
  | some "trace" => some .trace
  | _ => some .info

/-- The events that a setting of the log filter shows. -/
def shown (filter : Option String) (events : List Event) : List Event :=
  match leastLevel? filter with
  | none => []
  | some least => events.filter fun e => decide (least.rank ≤ e.level.rank)

end Interchange.Startup
