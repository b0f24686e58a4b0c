import Interchange.Network
import Interchange.Search.Format

/-!
# Messages of the service

* `SearchRequest` — the body of a search request: texts and numbers as they came in.
  `SearchRequest.query` turns it into a query and tells the first thing that is wrong with it: the
  earliest time first, then the pattern, the source trip, the source stop and the source time.
* `BoardingAnswer` — a boarding in terms of ids and clock texts.
* `ServiceFault` — everything that a request can be refused for, with its wording and status.
-/

namespace Interchange

/-! ## Faults -/

/-- Why a request is refused. -/
inductive ServiceFault
  | invalid (value : InvalidValue)
  | position (text : String)
  | direction (text : String)
  | body (fault : DecodeFault)
  | earliest
  | slack (seconds : Int)
  | unknown (fault : QueryFault)
  deriving DecidableEq

namespace ServiceFault

/-- The wording of a fault. -/
def message : ServiceFault → String
  | .invalid value => value.message
  | .position text => "invalid stop position: " ++ text
  | .direction text => "invalid direction: " ++ text
  | .body fault => "Invalid JSON: " ++ fault.message
  | .earliest => "exactly one of earliest_board_time and transfer_slack_secs is required"
  | .slack seconds => "invalid transfer_slack_secs: " ++ Decimal.signedText seconds
  | .unknown fault => fault.message

/-- The status of the answer to a refused request. -/
def status : ServiceFault → Nat
  | .unknown _ => 404
  | _ => 400

/-- The status with its name. -/
def statusText : ServiceFault → String
  | .unknown _ => "404 Not Found"
  | _ => "400 Bad Request"

end ServiceFault

/-- A checked value as part of a request. -/
def ServiceFault.check {α : Type} : Except InvalidValue α → Except ServiceFault α
  | .ok a => .ok a
  | .error value => .error (.invalid value)

/-! ## Search requests -/

/-- The body of a search request. -/
structure SearchRequest where
  pattern : String
  position : Position
  direction : Direction
  sourceTrip : String
  sourceStop : String
  sourceTime : String
  earliest : Option String
  slackSeconds : Option Int
  deriving DecidableEq

namespace SearchRequest

/-- The format of a search request. -/
def format : Format SearchRequest :=
  (((Record.field "pattern" Format.text).and
    ((Record.field "stop_position" Position.format).and
      ((Record.fieldOr "direction" Direction.format .forward).and
        ((Record.field "source_trip" Format.text).and
          ((Record.field "source_stop" Format.text).and
            ((Record.field "source_time" Format.text).and
              ((Record.fieldOpt "earliest_board_time" Format.text false).and
                (.fieldOpt "transfer_slack_secs" (Format.integer 9223372036854775808) false)))))))).map
    (fun (pattern, position, direction, sourceTrip, sourceStop, sourceTime, earliest,
        slackSeconds) =>
      { pattern, position, direction, sourceTrip, sourceStop, sourceTime, earliest, slackSeconds })
    (fun r => (r.pattern, r.position, r.direction, r.sourceTrip, r.sourceStop, r.sourceTime,
      r.earliest, r.slackSeconds))).format

/-- The largest number of seconds whose milliseconds fit in 63 bits. -/
def maxSlackSeconds : Int := 9223372036854775

/-- The earliest ordinary time of a request: exactly one of the two ways to give it. -/
def earliestTime (r : SearchRequest) : Except ServiceFault Network.Earliest :=
  match r.earliest, r.slackSeconds with
  | some text, none => do return .at (← ServiceFault.check (Time.read text))
  | none, some seconds =>
    if 0 ≤ seconds ∧ seconds ≤ maxSlackSeconds then .ok (.slack (Slack.ofSeconds seconds))
    else .error (.slack seconds)
  | _, _ => .error .earliest

/-- The query that a request stands for. -/
def query (r : SearchRequest) : Except ServiceFault Network.Query := do
  let earliest ← r.earliestTime
  let pattern ← ServiceFault.check (Id.parse r.pattern)
  let sourceTrip ← ServiceFault.check (Id.parse r.sourceTrip)
  let sourceStop ← ServiceFault.check (Id.parse r.sourceStop)
  let sourceTime ← ServiceFault.check (Time.read r.sourceTime)
  return ⟨pattern, r.position, r.direction, sourceTrip, sourceStop, sourceTime, earliest⟩

end SearchRequest

/-! ## Answers -/

/-- A boarding in terms of ids and clock texts. -/
structure BoardingAnswer where
  tripIndex : Nat
  trip : String
  position : Position
  stop : String
  station : Option String
  time : String
  earliest : String
  constraint : Constraint
  deriving DecidableEq

namespace BoardingAnswer

/-- The answer for a boarding; a stop that is not registered has the empty id. -/
def ofBoarding (stops : StopIndex) (b : Boarding) : BoardingAnswer where
  tripIndex := b.tripIndex
  trip := b.trip.text
  position := b.position
  stop := ((stops.stopId? b.stop).map (·.text)).getD ""
  station := (stops.station? b.stop).map (·.text)
  time := b.time.text
  earliest := b.earliest.text
  constraint := b.constraint

/-- An answer as JSON; a stop without a station has no member for it. -/
def json (a : BoardingAnswer) : Json :=
  Json.obj <|
    [ ("trip_index", .nat a.tripIndex), ("trip", .str a.trip), ("stop_position", .nat a.position),
      ("stop", .str a.stop) ] ++
    (match a.station with
      | some station => [("station", .str station)]
      | none => []) ++
    [ ("time", .str a.time), ("earliest_board_time", .str a.earliest),
      ("constraint", Constraint.format.encode a.constraint) ]

end BoardingAnswer

end Interchange
