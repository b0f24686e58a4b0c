import Interchange.Stop

/-!
# Transfer rules

An operator's rule says what is permitted when a rider changes from one place of the network to
another.

* `Constraint` — what a rule permits.
* `Point` — where one side of a rule applies: at a stop or at the stops of a station, either to
  every trip or to those of a route, or at one position of one trip.
* `Specificity` — how narrow a point is; the narrower rule wins.
* `Transfer` — a rule with its two points, as the operator records it.
-/

namespace Interchange

/-! ## Constraints -/

/-- What a rule permits. -/
inductive Constraint
  | regular
  | guaranteed
  | staySeated
  | notAllowed
  | minTransferTime (seconds : UInt32)
  deriving DecidableEq

/-- A transfer about which nothing is said is regular. -/
instance : Inhabited Constraint := ⟨.regular⟩

namespace Constraint

/-- Whether a rule leaves the transfer to the ordinary search. -/
def isRegular : Constraint → Bool
  | .regular => true
  | _ => false

/-- Whether a rule holds the transfer for the rider. -/
def isFacilitated : Constraint → Bool
  | .guaranteed => true
  | .staySeated => true
  | _ => false

/-- Whether a rule forbids the transfer. -/
def isNotAllowed : Constraint → Bool
  | .notAllowed => true
  | _ => false

/-- The seconds that a rule asks for between arrival and departure. -/
def minTime? : Constraint → Option UInt32
  | .minTransferTime seconds => some seconds
  | _ => none

/-- The written form of a constraint. -/
def text : Constraint → String
  | .regular => "regular"
  | .guaranteed => "guaranteed"
  | .staySeated => "stay-seated"
  | .notAllowed => "not-allowed"
  | .minTransferTime seconds => "min-transfer-time(" ++ Decimal.text seconds.toNat ++ "s)"

end Constraint

/-! ## Specificity -/

/-- How narrow a point is. -/
inductive Specificity
  | location
  | route
  | trip
  deriving DecidableEq, Repr

namespace Specificity

/-- The rank of a specificity; a narrower one ranks higher. -/
def rank : Specificity → Nat
  | .location => 1
  | .route => 2
  | .trip => 3

/-- The name of a specificity. -/
def text : Specificity → String
  | .location => "location"
  | .route => "route"
  | .trip => "trip"

end Specificity

/-! ## Points -/

/-- A stop, or all stops of a station. -/
inductive Place
  | stop (id : StopId)
  | station (id : StationId)
  deriving DecidableEq

/-- The written form of a place. -/
def Place.text : Place → String
  | .stop id => "stop " ++ id.text
  | .station id => "station " ++ id.text

/-- Where one side of a rule applies. -/
inductive Point
  | anywhere (place : Place)
  | route (id : RouteId) (place : Place)
  | trip (id : TripId) (position : Position)
  deriving DecidableEq

namespace Point

/-- How narrow a point is. -/
def specificity : Point → Specificity
  | .anywhere _ => .location
  | .route _ _ => .route
  | .trip _ _ => .trip

/-- The route that a point is limited to. -/
def route? : Point → Option RouteId
  | .route id _ => some id
  | _ => none

/-- Whether a point stands for the stops of a station. -/
def isStation : Point → Bool
  | .anywhere (.station _) => true
  | .route _ (.station _) => true
  | _ => false

/-- The written form of a point. -/
def text : Point → String
  | .anywhere place => place.text
  | .route id place => "route " ++ id.text ++ " at " ++ place.text
  | .trip id position => "trip " ++ id.text ++ " at stop position " ++ position.text

end Point

/-! ## Records -/

/-- A recorded rule: it applies to a change from the origin to the destination. -/
structure Transfer where
  id : TransferId
  origin : Point
  destination : Point
  constraint : Constraint
  deriving DecidableEq

/-- The written form of a record. -/
def Transfer.text (t : Transfer) : String :=
  t.id.text ++ " (" ++ t.origin.text ++ " -> " ++ t.destination.text ++ ", " ++
    t.constraint.text ++ ")"

end Interchange
