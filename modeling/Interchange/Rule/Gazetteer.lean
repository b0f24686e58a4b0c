import Interchange.Rule.Location
import Interchange.Stop.Tables

/-!
# Gazetteers

`Timetable.locations` goes through all patterns for each stop of a point. A gazetteer finds the same locations
by tables that are made once for all points: the patterns that call at a stop, and the pattern that a trip runs
on.

* `Gazetteer.ofPatterns` — makes the tables, pattern by pattern.
* `Gazetteer.locations` — looks a point up.
-/

namespace Interchange

/-- The stops and patterns of a timetable, with the places of the patterns that call at a stop and the place of
the pattern that a trip runs on. -/
structure Gazetteer where
  stops : StopTables
  patterns : List Pattern
  callers : Table StopOrdinal (List Nat)
  carriers : Table TripId Nat

namespace Gazetteer

/-- Notes for a stop that the pattern at a place calls there. Where a loop calls again its place is the last
that was noted, and is not noted twice. -/
def noteCall (i : Nat) (callers : Table StopOrdinal (List Nat)) (stop : StopOrdinal) :
    Table StopOrdinal (List Nat) :=
  if (callers.listAt stop).getLast? = some i then callers else callers.append stop i

/-- The places of the patterns that call at a stop. -/
def callersOf (patterns : List Pattern) : Table StopOrdinal (List Nat) :=
  patterns.zipIdx.foldl (fun callers e => e.1.stops.foldl (noteCall e.2) callers) .empty

/-- The place of the pattern that a trip runs on; a later pattern takes the place of an earlier one. -/
def carriersOf (patterns : List Pattern) : Table TripId Nat :=
  patterns.zipIdx.foldl
    (fun carriers e => e.1.trips.foldl (fun carriers trip => carriers.set trip.id e.2) carriers) .empty

/-- The gazetteer of some stops and patterns. -/
def ofPatterns (stops : StopTables) (patterns : List Pattern) : Gazetteer :=
  ⟨stops, patterns, callersOf patterns, carriersOf patterns⟩

/-- The positions at which patterns call at a stop. When a route is given, only its patterns count. -/
def visits (g : Gazetteer) (route? : Option RouteId) (m : Matcher) (stop : StopOrdinal) : List Location :=
  (g.callers.listAt stop).flatMap fun i =>
    match g.patterns[i]? with
    | some pattern =>
      if route?.all (fun r => decide (pattern.route = r)) then
        (pattern.positionsOf stop).map fun p => ⟨i, p, stop, m⟩
      else []
    | none => []

/-- The registered stops that a place stands for. -/
def stopsOf (g : Gazetteer) : Place → List StopOrdinal
  | .stop id => (g.stops.ordinal? id).toList
  | .station id => g.stops.members id

/-- The stop at a position of the pattern that a trip runs on. -/
def tripLocation? (g : Gazetteer) (trip : TripId) (p : Position) : Option Location := do
  let i ← g.carriers.get? trip
  let pattern ← g.patterns[i]?
  let stop ← pattern.stops[p]?
  return ⟨i, p, stop, .trip trip⟩

/-- The locations that a point covers. -/
def locations (g : Gazetteer) (point : Point) : List Location :=
  match point with
  | .anywhere place => (g.stopsOf place).flatMap (g.visits none .any)
  | .route id place => (g.stopsOf place).flatMap (g.visits (some id) (.route id))
  | .trip id p => (g.tripLocation? id p).toList

end Gazetteer

end Interchange
