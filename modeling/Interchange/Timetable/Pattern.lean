import Interchange.Order
import Interchange.Timetable.Trip

/-!
# Patterns

A pattern is a stop sequence of a route together with the trips that serve it.

* `Pattern` — every trip calls once at each stop of the sequence and runs on the route; the trips are
  numbered, and at every stop they are ordered in time.
* `Pattern.ofTrips` — arranges the trips by their start, ties by id, and numbers them. It refuses a
  pattern without stops, a trip that does not fit the stop sequence or runs on another route, and a
  trip that overtakes the one in front of it.
-/

namespace Interchange

/-- A trip is nowhere ahead of another: wherever both call, it arrives and departs no later. -/
def Trip.Precedes (a b : Trip) : Prop :=
  ∀ (p : Position) (x y : Call), a.calls[p]? = some x → b.calls[p]? = some y →
    x.arrival ≤ y.arrival ∧ x.departure ≤ y.departure

/-- Of three trips that call equally often, the first precedes the last when each precedes the
next. -/
theorem Trip.Precedes.trans {a b c : Trip} (hab : a.Precedes b) (hbc : b.Precedes c)
    (hlen : a.calls.length = b.calls.length) : a.Precedes c := by
  intro p x z hx hz
  have hp : p < b.calls.length := hlen ▸ (List.getElem?_eq_some_iff.1 hx).1
  have hy : b.calls[p]? = some b.calls[p] := List.getElem?_eq_getElem hp
  obtain ⟨harr, hdep⟩ := hab p x _ hx hy
  obtain ⟨harr', hdep'⟩ := hbc p _ z hy hz
  simp only [Time.le_def] at *
  exact ⟨by omega, by omega⟩

/-- A stop sequence of a route, with the trips that serve it. -/
structure Pattern where
  id : PatternId
  route : RouteId
  stops : List StopOrdinal
  trips : List Trip
  stops_ne_nil : stops ≠ []
  fits : ∀ t ∈ trips, t.calls.length = stops.length ∧ t.route = route
  numbered : trips.map (·.index) = List.range trips.length
  inOrder : trips.Pairwise Trip.Precedes

namespace Pattern

/-- Whether a trip starts no later than another; of two that start together, the one with the
smaller id comes first. -/
def startsFirst (a b : Trip) : Bool :=
  decide (a.start < b.start) || (decide (a.start = b.start) && decide (a.id ≤ b.id))

/-- The first position at which a trip is ahead of an earlier one. -/
def overtakenAt (earlier later : Trip) : Option Position :=
  (earlier.calls.zip later.calls).findIdx? fun c =>
    decide (c.2.arrival < c.1.arrival) || decide (c.2.departure < c.1.departure)

/-- A trip that is overtaken nowhere precedes the other. -/
theorem precedes_of_overtakenAt {a b : Trip} (h : overtakenAt a b = none) : a.Precedes b := by
  intro p x y hx hy
  have hmem : (x, y) ∈ a.calls.zip b.calls :=
    List.mem_of_getElem? (List.getElem?_zip_eq_some.2 ⟨hx, hy⟩)
  have hxy := List.findIdx?_eq_none_iff.1 h (x, y) hmem
  simp only [Bool.or_eq_false_iff, decide_eq_false_iff_not, Time.lt_def, Time.le_def] at *
  exact ⟨by omega, by omega⟩

/-- What keeps a trip out of a pattern, if anything does. -/
def misfit? (id : PatternId) (route : RouteId) (stops : List StopOrdinal) (t : Trip) :
    Option TimetableFault :=
  if t.calls.length ≠ stops.length then
    some (.stopCount id t.id stops.length t.calls.length)
  else if t.route ≠ route then some (.otherRoute id t.id route t.route)
  else none

/-- A trip that nothing keeps out calls once at each stop and runs on the route. -/
theorem fits_of_misfit? {id : PatternId} {route : RouteId} {stops : List StopOrdinal} {t : Trip}
    (h : misfit? id route stops t = none) :
    t.calls.length = stops.length ∧ t.route = route := by
  unfold misfit? at h
  split at h
  · simp at h
  · split at h
    · simp at h
    · simp_all

/-- The first trip of an arranged row that overtakes the one in front of it, with the position. -/
def firstOvertaking : List Trip → Option (TripId × Position)
  | a :: b :: rest =>
    match overtakenAt a b with
    | some p => some (b.id, p)
    | none => firstOvertaking (b :: rest)
  | _ => none

/-- In a row of trips that call equally often and of which none overtakes the one in front of it,
every trip precedes all that follow. -/
theorem pairwise_of_firstOvertaking {n : Nat} : ∀ {trips : List Trip},
    (∀ t ∈ trips, t.calls.length = n) → firstOvertaking trips = none →
      trips.Pairwise Trip.Precedes
  | [], _, _ => List.Pairwise.nil
  | [a], _, _ => List.pairwise_singleton _ a
  | a :: b :: rest, hlen, h => by
    unfold firstOvertaking at h
    split at h
    · simp at h
    · rename_i hab
      have hrest : (b :: rest).Pairwise Trip.Precedes :=
        pairwise_of_firstOvertaking (fun t ht => hlen t (List.mem_cons_of_mem _ ht)) h
      have hfirst : a.Precedes b := precedes_of_overtakenAt hab
      refine List.Pairwise.cons ?_ hrest
      intro t ht
      rcases List.mem_cons.1 ht with rfl | ht
      · exact hfirst
      · exact hfirst.trans ((List.pairwise_cons.1 hrest).1 t ht)
          (by rw [hlen a (by simp), hlen b (by simp)])

/-- Gives every trip its number in a row. -/
def number (trips : List Trip) : List Trip :=
  trips.zipIdx.map fun e => { e.1 with index := e.2 }

/-- The numbers of a numbered row count from zero. -/
theorem map_index_number (trips : List Trip) :
    (number trips).map (·.index) = List.range (number trips).length := by
  rw [number, List.map_map, List.length_map, List.length_zipIdx, List.range_eq_range']
  exact List.zipIdx_map_snd 0 trips

/-- What holds of every trip whatever its number holds of a numbered row. -/
theorem forall_mem_number {P : Trip → Prop}
    (hP : ∀ (t : Trip) (i : Nat), P t → P { t with index := i }) {trips : List Trip}
    (h : ∀ t ∈ trips, P t) : ∀ t ∈ number trips, P t := by
  intro t ht
  obtain ⟨e, he, rfl⟩ := List.mem_map.1 ht
  exact hP e.1 e.2 (h e.1 (List.fst_mem_of_mem_zipIdx he))

/-- Numbering a row leaves its order in time as it is. -/
theorem pairwise_number {trips : List Trip} (h : trips.Pairwise Trip.Precedes) :
    (number trips).Pairwise Trip.Precedes := by
  rw [← List.zipIdx_map_fst 0 trips, List.pairwise_map] at h
  rw [number, List.pairwise_map]
  exact h

/-- Makes a pattern from its stops and trips. -/
def ofTrips (id : PatternId) (route : RouteId) (stops : List StopOrdinal) (trips : List Trip) :
    Except TimetableFault Pattern :=
  if hstops : stops = [] then .error (.emptyPattern id)
  else
    match hfit : trips.findSome? (misfit? id route stops) with
    | some fault => .error fault
    | none =>
      have fits : ∀ t ∈ arrange startsFirst trips,
          t.calls.length = stops.length ∧ t.route = route := fun t ht =>
        fits_of_misfit? (List.findSome?_eq_none_iff.1 hfit t ((arrange_perm _ _).mem_iff.1 ht))
      match hover : firstOvertaking (arrange startsFirst trips) with
      | some (trip, position) => .error (.overtaking id trip position)
      | none =>
        .ok {
          id, route, stops
          trips := number (arrange startsFirst trips)
          stops_ne_nil := hstops
          fits := forall_mem_number (fun _ _ h => h) fits
          numbered := map_index_number _
          inOrder := pairwise_number
            (pairwise_of_firstOvertaking (fun t ht => (fits t ht).1) hover) }

/-- The positions at which a pattern calls at a stop; a loop calls more than once. -/
def positionsOf (p : Pattern) (stop : StopOrdinal) : List Position :=
  (p.stops.zipIdx.filter fun e => e.1 = stop).map (·.2)

end Pattern

end Interchange
