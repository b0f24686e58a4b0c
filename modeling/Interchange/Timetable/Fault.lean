import Interchange.Stop

/-!
# Faults of a timetable

What can be wrong with the stops, trips and patterns that a timetable is put together from.
-/

namespace Interchange

/-- Why stops, trips or patterns do not make a timetable. -/
inductive TimetableFault
  | duplicateStop (stop : StopId)
  | emptyPattern (pattern : PatternId)
  | emptyTrip (trip : TripId)
  | timeCounts (trip : TripId) (arrivals departures : Nat)
  | stopCount (pattern : PatternId) (trip : TripId) (expected actual : Nat)
  | decreasingTimes (trip : TripId) (position : Position)
  | otherRoute (pattern : PatternId) (trip : TripId) (expected actual : RouteId)
  | overtaking (pattern : PatternId) (trip : TripId) (position : Position)
  deriving DecidableEq

/-- The wording of a fault. -/
def TimetableFault.message : TimetableFault → String
  | .duplicateStop stop => "duplicate stop " ++ stop.text
  | .emptyPattern pattern => "pattern " ++ pattern.text ++ " has no stops"
  | .emptyTrip trip => "trip " ++ trip.text ++ " has no stop times"
  | .timeCounts trip arrivals departures =>
    "trip " ++ trip.text ++ " has " ++ Decimal.text arrivals ++ " arrivals but " ++
      Decimal.text departures ++ " departures"
  | .stopCount pattern trip expected actual =>
    "trip " ++ trip.text ++ " has " ++ Decimal.text actual ++ " stop times but pattern " ++
      pattern.text ++ " has " ++ Decimal.text expected ++ " stops"
  | .decreasingTimes trip position =>
    "trip " ++ trip.text ++ " goes back in time at stop position " ++ position.text
  | .otherRoute pattern trip expected actual =>
    "trip " ++ trip.text ++ " runs on route " ++ actual.text ++ " but pattern " ++ pattern.text ++
      " belongs to route " ++ expected.text
  | .overtaking pattern trip position =>
    "trip " ++ trip.text ++ " overtakes an earlier trip of " ++ pattern.text ++ " at position " ++
      position.text

end Interchange
