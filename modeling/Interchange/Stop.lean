import Interchange.Id
import Interchange.Text.Decimal

/-!
# Stops and stations

* `Position` — a place in the stop sequence of a pattern, counted from zero.
* `StopOrdinal` — the number of a stop in the stop index, counted from zero.
* `StopIndex` — the stops of a timetable in the order they were registered. No two share an id, so a
  stop is found by its id and by its ordinal alike.
-/

namespace Interchange

/-- A place in a stop sequence, counted from zero. -/
abbrev Position := Nat

namespace Position

/-- The place behind. -/
def next (p : Position) : Position := p + 1

/-- The place before, except for the first place. -/
def prev? : Position → Option Position
  | 0 => none
  | p + 1 => some p

/-- The written form of a place. -/
def text (p : Position) : String := Decimal.text p

end Position

/-- The number of a stop in the stop index. -/
structure StopOrdinal where
  index : Nat
  deriving DecidableEq, Repr

/-- The written form of an ordinal. -/
def StopOrdinal.text (o : StopOrdinal) : String := "#" ++ Decimal.text o.index

/-- A stop, and the station it belongs to if there is one. -/
structure Stop where
  id : StopId
  station : Option StationId
  deriving DecidableEq

/-- The registered stops. -/
structure StopIndex where
  stops : List Stop
  distinct : (stops.map (·.id)).Nodup

namespace StopIndex

/-- No stops. -/
def empty : StopIndex := ⟨[], List.nodup_nil⟩

/-- The number of stops. -/
def size (s : StopIndex) : Nat := s.stops.length

/-- The ordinal of the stop with an id. -/
def ordinal? (s : StopIndex) (id : StopId) : Option StopOrdinal :=
  (s.stops.findIdx? fun stop => stop.id = id).map StopOrdinal.mk

/-- The id of the stop with an ordinal. -/
def stopId? (s : StopIndex) (o : StopOrdinal) : Option StopId :=
  s.stops[o.index]?.map (·.id)

/-- The station of the stop with an ordinal. -/
def station? (s : StopIndex) (o : StopOrdinal) : Option StationId :=
  s.stops[o.index]?.bind (·.station)

/-- The stops that belong to a station, by rising ordinal. -/
def members (s : StopIndex) (station : StationId) : List StopOrdinal :=
  (s.stops.zipIdx.filter fun e => e.1.station = some station).map fun e => ⟨e.2⟩

/-- Registering one more stop with an id of its own keeps the ids distinct. -/
theorem distinct_append {s : StopIndex} {stop : Stop} (h : stop.id ∉ s.stops.map (·.id)) :
    ((s.stops ++ [stop]).map (·.id)).Nodup := by
  rw [List.map_append, List.nodup_append]
  refine ⟨s.distinct, by simp, ?_⟩
  intro a ha b hb hab
  simp only [List.map_cons, List.map_nil, List.mem_singleton] at hb
  exact h (hb ▸ hab ▸ ha)

/-- Registers a stop and tells its ordinal, unless a stop with its id is there already. -/
def add? (s : StopIndex) (stop : Stop) : Option (StopIndex × StopOrdinal) :=
  if h : stop.id ∈ s.stops.map (·.id) then none
  else some (⟨s.stops ++ [stop], distinct_append h⟩, ⟨s.size⟩)

end StopIndex

end Interchange
