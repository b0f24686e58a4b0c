import Interchange.Search
import Interchange.Startup.Address
import Interchange.Text.Blank

/-!
# Configuration

The service is configured by environment variables. `ServerConfig.ofLookup` reads them in a fixed
order and tells the first that is missing or cannot be used.
-/

namespace Interchange

/-! ## Faults -/

/-- Why the value of a variable cannot be used. -/
inductive SettingFault
  | address
  | truthValue
  | count (fault : Decimal.Fault)
  deriving DecidableEq

/-- The wording of a fault. -/
def SettingFault.reason : SettingFault → String
  | .address => "invalid socket address syntax"
  | .truthValue => "provided string was not \x60true\x60 or \x60false\x60"
  | .count fault => fault.message

/-- Why a configuration cannot be used. -/
inductive ConfigFault
  | missing (name : String)
  | invalid (name value : String) (fault : SettingFault)
  deriving DecidableEq

/-- The wording of a fault. -/
def ConfigFault.message : ConfigFault → String
  | .missing name => name ++ " must be set"
  | .invalid name value fault => "invalid " ++ name ++ "=" ++ value ++ ": " ++ fault.reason

/-! ## Reading the variables -/

/-- What the service needs to start. -/
structure ServerConfig where
  dataPath : String
  address : SocketAddress
  search : SearchConfig
  deriving DecidableEq

namespace ServerConfig

/-- Reads an address. -/
def readAddress (s : String) : Except SettingFault SocketAddress :=
  match SocketAddress.parse? s with
  | some a => .ok a
  | none => .error .address

/-- Reads a truth value. -/
def readTruthValue : String → Except SettingFault Bool
  | "true" => .ok true
  | "false" => .ok false
  | _ => .error .truthValue

/-- Reads a number of trips. -/
def readCount (s : String) : Except SettingFault Nat :=
  match Decimal.unsigned Decimal.wordBound s with
  | .ok n => .ok n
  | .error fault => .error (.count fault)

/-- The value of a variable, or the usual value when it is not set. Blanks around a value do not
count, but a fault shows the value as it is. -/
def setting {α : Type} (lookup : String → Option String) (name : String)
    (read : String → Except SettingFault α) (usual : α) : Except ConfigFault α :=
  match lookup name with
  | none => .ok usual
  | some value =>
    match read (Blank.trim value) with
    | .ok a => .ok a
    | .error fault => .error (.invalid name value fault)

/-- The path of the data file, which has no usual value. -/
def dataSetting (lookup : String → Option String) : Except ConfigFault String :=
  match lookup "TRANSIT_DATA" with
  | none => .error (.missing "TRANSIT_DATA")
  | some "" => .error (.missing "TRANSIT_DATA")
  | some path => .ok path

/-- The configuration that a set of variables stands for. -/
def ofLookup (lookup : String → Option String) : Except ConfigFault ServerConfig := do
  let dataPath ← dataSetting lookup
  let address ← setting lookup "BIND_ADDR" readAddress .localhost
  let definitiveMinTime ←
    setting lookup "DEFINITIVE_MIN_TRANSFER_TIME" readTruthValue
      SearchConfig.default.definitiveMinTime
  let abortAfter ←
    setting lookup "ABORT_AFTER_NORMAL_TRIPS" readCount SearchConfig.default.abortAfter
  return { dataPath, address, search := { definitiveMinTime, abortAfter } }

end ServerConfig

end Interchange
