import Interchange.Rule.Index
import Interchange.Timetable

/-!
# The locations of a point

A rule speaks of stops, stations, routes and trips; the search looks at stop positions of patterns.
`Timetable.locations` lists the positions that a point covers:

* a stop, or each member stop of a station in turn, covers every position of every pattern that
  calls there, or only those of the patterns of a route if the point names one;
* a trip and a position cover that position of the pattern the trip runs on.

Where nothing is covered the list is empty.
-/

namespace Interchange

/-- A stop position of a pattern that a point covers: the place of the pattern in the timetable, the
position, the stop there, and the trips that the point speaks about. -/
structure Location where
  pattern : Nat
  position : Position
  stop : StopOrdinal
  matcher : Matcher
  deriving DecidableEq

namespace Timetable

/-- The positions at which patterns call at a stop, by pattern and then by position. When a route is
given, only its patterns count. -/
def visits (tt : Timetable) (route? : Option RouteId) (m : Matcher) (stop : StopOrdinal) :
    List Location :=
  tt.patterns.zipIdx.flatMap fun e =>
    if route?.all (fun r => decide (e.1.route = r)) then
      (e.1.positionsOf stop).map fun p => ⟨e.2, p, stop, m⟩
    else []

/-- The registered stops that a place stands for. -/
def stopsOf (tt : Timetable) : Place → List StopOrdinal
  | .stop id => (tt.stops.ordinal? id).toList
  | .station id => tt.stops.members id

/-- The stop at a position of the pattern that a trip runs on. -/
def tripLocation? (tt : Timetable) (trip : TripId) (p : Position) : Option Location := do
  let i ← tt.patternOfTrip? trip
  let pattern ← tt.patterns[i]?
  let stop ← pattern.stops[p]?
  return ⟨i, p, stop, .trip trip⟩

/-- The locations that a point covers. -/
def locations (tt : Timetable) (point : Point) : List Location :=
  match point with
  | .anywhere place => (tt.stopsOf place).flatMap (tt.visits none .any)
  | .route id place => (tt.stopsOf place).flatMap (tt.visits (some id) (.route id))
  | .trip id p => (tt.tripLocation? id p).toList

end Timetable

end Interchange
