import Interchange.Timetable.Pattern

/-!
# Timetables

A timetable is a stop index together with the patterns that call at its stops. Nothing is asked of
the two here: a pattern may call at a stop that is not registered, and patterns may share ids.
-/

namespace Interchange

/-- The stops and patterns that transfer rules are applied to. -/
structure Timetable where
  stops : StopIndex
  patterns : List Pattern

namespace Timetable

/-- The place in the list of the last pattern that a trip runs on. -/
def patternOfTrip? (tt : Timetable) (trip : TripId) : Option Nat :=
  ((tt.patterns.zipIdx.filter fun e => e.1.trips.any fun t => t.id = trip).getLast?).map (·.2)

end Timetable

end Interchange
