import Interchange.Table
import Interchange.Timetable.Fault

/-!
# Stop tables

A stop index answers by searching its stops. Where it is asked often, the stops are kept together with two
tables: the ordinals by id, and the members by station. `StopTables.add` brings the three up to date one
after another.
-/

namespace Interchange

/-- The registered stops by rising ordinal, the ordinals by stop id, and the ordinals of the members by
station. -/
structure StopTables where
  row : List Stop
  byId : Table StopId StopOrdinal
  byStation : Table StationId (List StopOrdinal)

namespace StopTables

/-- No stops. -/
def empty : StopTables := ⟨[], .empty, .empty⟩

/-- The number of stops. -/
def size (t : StopTables) : Nat := t.row.length

/-- The ordinal of the stop with an id. -/
def ordinal? (t : StopTables) (id : StopId) : Option StopOrdinal := t.byId.get? id

/-- The id of the stop with an ordinal. -/
def stopId? (t : StopTables) (o : StopOrdinal) : Option StopId := t.row[o.index]?.map (·.id)

/-- The station of the stop with an ordinal. -/
def station? (t : StopTables) (o : StopOrdinal) : Option StationId := t.row[o.index]?.bind (·.station)

/-- The stops that belong to a station. -/
def members (t : StopTables) (station : StationId) : List StopOrdinal := t.byStation.listAt station

/-- Registers a stop and tells its ordinal. An id that is taken is refused, and the tables stay as they are. -/
def add (t : StopTables) (stop : Stop) : StopTables × Except TimetableFault StopOrdinal :=
  if (t.ordinal? stop.id).isSome then (t, .error (.duplicateStop stop.id))
  else
    let o : StopOrdinal := ⟨t.size⟩
    let t :=
      match stop.station with
      | some station => { t with byStation := t.byStation.append station o }
      | none => t
    let t := { t with byId := t.byId.set stop.id o }
    let t := { t with row := t.row ++ [stop] }
    (t, .ok o)

end StopTables

end Interchange
