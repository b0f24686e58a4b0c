import Interchange.Direction
import Interchange.Json.Format
import Interchange.Rule.Issue

/-!
# Rules as JSON

The formats of identifiers, times, positions, directions, constraints, points and recorded rules.
Points and constraints are tagged objects; a direction and a specificity are plain names.
-/

namespace Interchange

/-- An identifier is written as its text. -/
def Id.format {kind : IdKind} : Format (Id kind) := Format.text.checked Id.parse Id.text

/-- A time is written as its clock text. -/
def Time.format : Format Time := Format.text.checked Time.read Time.text

/-- A position is written as a number of at most 64 bits. -/
def Position.format : Format Position := Format.natural Decimal.wordBound

/-- An ordinal is written as a number of at most 64 bits. -/
def StopOrdinal.format : Format StopOrdinal :=
  (Format.natural Decimal.wordBound).map StopOrdinal.mk StopOrdinal.index

/-- A number of seconds is written as a number of at most 32 bits. -/
def Constraint.secondsFormat : Format UInt32 :=
  (Format.natural 4294967296).map UInt32.ofNat UInt32.toNat

/-- A direction is written as its name. -/
def Direction.format : Format Direction :=
  Format.oneOf [("forward", .forward), ("reverse", .reverse)] Direction.text

/-- A specificity is written as its name. -/
def Specificity.format : Format Specificity :=
  Format.oneOf [("location", .location), ("route", .route), ("trip", .trip)] Specificity.text

/-! ## Constraints -/

/-- The member for a number of seconds. -/
def Constraint.secondsField : Record UInt32 := .field "seconds" Constraint.secondsFormat

/-- The members of the constraints, by tag. -/
def Constraint.variants : List (String × Members Constraint) :=
  [ ("regular", Members.nothing.map fun _ => .regular),
    ("guaranteed", Members.nothing.map fun _ => .guaranteed),
    ("stay_seated", Members.nothing.map fun _ => .staySeated),
    ("not_allowed", Members.nothing.map fun _ => .notAllowed),
    ("min_transfer_time", secondsField.toMembers.map .minTransferTime) ]

/-- The tag and the members of a constraint. -/
def Constraint.view : Constraint → String × List (String × Json)
  | .regular => ("regular", [])
  | .guaranteed => ("guaranteed", [])
  | .staySeated => ("stay_seated", [])
  | .notAllowed => ("not_allowed", [])
  | .minTransferTime seconds => ("min_transfer_time", secondsField.write seconds)

/-- A constraint is written as a tagged object. -/
def Constraint.format : Format Constraint := Format.tagged Constraint.variants Constraint.view

/-! ## Points -/

/-- The member for a stop. -/
def Point.stopField : Record StopId := .field "stop" Id.format

/-- The member for a station. -/
def Point.stationField : Record StationId := .field "station" Id.format

/-- The member for a route. -/
def Point.routeField : Record RouteId := .field "route" Id.format

/-- The member for a trip. -/
def Point.tripField : Record TripId := .field "trip" Id.format

/-- The member for a position. -/
def Point.positionField : Record Position := .field "stop_position" Position.format

/-- The tag and the members of a point. -/
def Point.view : Point → String × List (String × Json)
  | .anywhere (.station id) => ("station", stationField.write id)
  | .anywhere (.stop id) => ("stop", stopField.write id)
  | .route r (.station id) => ("route_and_station", (routeField.and stationField).write (r, id))
  | .route r (.stop id) => ("route_and_stop", (routeField.and stopField).write (r, id))
  | .trip id p => ("trip", (tripField.and positionField).write (id, p))

/-- The members of the points, by tag. -/
def Point.variants : List (String × Members Point) :=
  [ ("station", stationField.toMembers.map fun id => .anywhere (.station id)),
    ("stop", stopField.toMembers.map fun id => .anywhere (.stop id)),
    ("route_and_station",
      (routeField.and stationField).toMembers.map fun (r, id) => .route r (.station id)),
    ("route_and_stop", (routeField.and stopField).toMembers.map fun (r, id) => .route r (.stop id)),
    ("trip", (tripField.and positionField).toMembers.map fun (id, p) => .trip id p) ]

/-- A point is written as a tagged object. -/
def Point.format : Format Point := Format.tagged Point.variants Point.view

/-! ## Recorded rules -/

/-- A recorded rule is written with its two points and its constraint. -/
def Transfer.format : Format Transfer :=
  (((Record.field "id" Id.format).and
    ((Record.field "from" Point.format).and
      ((Record.field "to" Point.format).and (.field "constraint" Constraint.format)))).map
    (fun (id, origin, destination, constraint) => { id, origin, destination, constraint })
    (fun t => (t.id, t.origin, t.destination, t.constraint))).format

/-! ## Issues -/

/-- An issue as a tagged object; issues are only written. -/
def Issue.json : Issue → Json
  | .unresolvable t side point =>
    Json.obj
      [ (Format.tag, .str "unresolvable"), ("transfer", Id.format.encode t),
        ("side", .str side.text), ("point", Point.format.encode point) ]
  | .conflict t kept pattern position direction =>
    Json.obj
      [ (Format.tag, .str "conflict"), ("transfer", Id.format.encode t),
        ("kept", Id.format.encode kept), ("pattern", Id.format.encode pattern),
        ("stop_position", Position.format.encode position),
        ("direction", Direction.format.encode direction) ]

end Interchange
