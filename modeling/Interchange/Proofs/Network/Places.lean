import Interchange.Network
import Interchange.Proofs.Json.Decoding
import Interchange.Proofs.Timetable.Arrangement
import Mathlib.Data.List.Nodup

/-!
# Where patterns and trips stand

While a network is built, two tables are filled row by row: one with the places of the patterns, one with those
of the trips. What they come to can be said without the loops.

* `Table.setAll` — a table after a row of values was set. `Table.get?_setAll_eq_some_iff` — where no key comes
  twice it has just the values of the row.
* `Network.patternRows`, `Network.tripRows` — what is noted for a row of patterns and for their trips, with
  `Network.mem_patternRows_iff` and `Network.mem_tripRows_iff`.
* `Network.noteTrips_eq_ok_iff`, `Network.notePatterns_eq_ok_iff` — when the loop over the trips gets through, and
  what it has noted then.
* `Timetable.network` — the network of a timetable with recorded rules.
-/

namespace Interchange

/-! ## Tables that are filled -/

namespace Table

variable {κ α : Type} {t : Table κ α} {rows : List (κ × α)} {k : κ} {a : α}

/-- Sets values one after another. -/
def setAll (t : Table κ α) (rows : List (κ × α)) : Table κ α := rows.foldl (fun t e => t.set e.1 e.2) t

/-- Rows are set one after another. -/
theorem setAll_append (t : Table κ α) (rows rest : List (κ × α)) :
    t.setAll (rows ++ rest) = (t.setAll rows).setAll rest :=
  List.foldl_append

variable [DecidableEq κ]

/-- A key has no value where it had none before and is not the one that was set. -/
theorem get?_set_eq_none_iff {key : κ} : (t.set key a).get? k = none ↔ k ≠ key ∧ t.get? k = none := by
  rw [get?_set]
  by_cases hk : k = key
  · simp [hk]
  · simp [hk]

/-- A key has no value where it had none before and none was set. -/
theorem get?_setAll_eq_none_iff :
    (t.setAll rows).get? k = none ↔ t.get? k = none ∧ k ∉ rows.map (·.1) := by
  induction rows generalizing t with
  | nil => simp [setAll]
  | cons e rows ih =>
    have hstep : t.setAll (e :: rows) = (t.set e.1 e.2).setAll rows := rfl
    rw [hstep, ih, get?_set_eq_none_iff, List.map_cons, List.mem_cons, not_or]
    exact and_assoc.trans and_left_comm

/-- A key that is set once has that value, and one that is not set keeps its own. -/
theorem get?_setAll_eq_some_iff_or (h : (rows.map (·.1)).Nodup) :
    (t.setAll rows).get? k = some a ↔ (k, a) ∈ rows ∨ k ∉ rows.map (·.1) ∧ t.get? k = some a := by
  induction rows generalizing t with
  | nil => simp [setAll]
  | cons e rows ih =>
    obtain ⟨key, value⟩ := e
    rw [List.map_cons, List.nodup_cons] at h
    have hstep : t.setAll ((key, value) :: rows) = (t.set key value).setAll rows := rfl
    rw [hstep, ih h.2, get?_set]
    by_cases hk : k = key
    · -- the key is not set again behind
      subst hk
      have hnot : (k, a) ∉ rows := fun hmem => h.1 (List.mem_map.2 ⟨_, hmem, rfl⟩)
      simp [h.1, hnot, eq_comm]
    · simp [hk]

/-- **Where no key is set twice, a table that was empty has the values that were set**, and no others. -/
theorem get?_setAll_eq_some_iff (h : (rows.map (·.1)).Nodup) :
    (empty.setAll rows).get? k = some a ↔ (k, a) ∈ rows := by
  rw [get?_setAll_eq_some_iff_or h]
  refine or_iff_left ?_
  rintro ⟨-, hempty⟩
  cases hempty

end Table

namespace Network

/-! ## What is noted for patterns -/

/-- What is noted for a row of patterns, of which the first stands at a place: under the id of each one its
place. -/
def patternRows (i : Nat) (ps : List Pattern) : List (PatternId × Nat) :=
  (ps.zipIdx i).map fun e => (e.1.id, e.2)

/-- What is noted for their trips: under the id of each one the place of its pattern, and its number there. -/
def tripRows (i : Nat) (ps : List Pattern) : List (TripId × Nat × Nat) :=
  (ps.zipIdx i).flatMap fun e => e.1.trips.map fun t => (t.id, e.2, t.index)

/-- The ids that are noted for patterns are theirs. -/
theorem map_fst_patternRows (i : Nat) (ps : List Pattern) : (patternRows i ps).map (·.1) = ps.map (·.id) := by
  have hids := congrArg (List.map (·.id)) (List.zipIdx_map_fst i ps)
  rw [List.map_map] at hids
  unfold patternRows
  rw [List.map_map]
  exact hids

/-- The ids that are noted for trips are theirs. -/
theorem map_fst_tripRows (i : Nat) (ps : List Pattern) : (tripRows i ps).map (·.1) = tripIds ps := by
  unfold tripRows tripIds
  conv_rhs => rw [← List.zipIdx_map_fst i ps]
  rw [List.map_flatMap, List.flatMap_map]
  refine congrArg (List.flatMap · _) (funext fun e => ?_)
  rw [List.map_map]
  rfl

/-- What is noted for the id of a pattern. -/
theorem mem_patternRows_iff {ps : List Pattern} {id : PatternId} {i : Nat} :
    (id, i) ∈ patternRows 0 ps ↔ ∃ p, ps[i]? = some p ∧ p.id = id := by
  unfold patternRows
  simp only [List.mem_map, Prod.exists, Prod.mk.injEq, List.mem_zipIdx_iff_getElem?]
  constructor
  · rintro ⟨p, j, hp, rfl, rfl⟩
    exact ⟨p, hp, rfl⟩
  · rintro ⟨p, hp, rfl⟩
    exact ⟨p, i, hp, rfl, rfl⟩

/-- What is noted for the id of a trip. -/
theorem mem_tripRows_iff {ps : List Pattern} {trip : TripId} {i k : Nat} :
    (trip, i, k) ∈ tripRows 0 ps ↔ ∃ p t, ps[i]? = some p ∧ p.trips[k]? = some t ∧ t.id = trip := by
  unfold tripRows
  simp only [List.mem_flatMap, List.mem_map, Prod.exists, Prod.mk.injEq, List.mem_zipIdx_iff_getElem?]
  constructor
  · rintro ⟨p, j, hp, t, ht, rfl, rfl, rfl⟩
    exact ⟨p, t, hp, Pattern.getElem?_index ht, rfl⟩
  · rintro ⟨p, t, hp, ht, rfl⟩
    exact ⟨p, i, hp, t, List.mem_of_getElem? ht, rfl, rfl, Pattern.index_eq_of_getElem? ht⟩

/-! ## The loop over the trips -/

/-- The trips of a pattern are noted when their ids are distinct and none is taken. -/
theorem noteTrips_eq_ok_iff {i : Nat} {places places' : Table TripId (Nat × Nat)} {trips : List Trip} :
    noteTrips i places trips = .ok places' ↔
      (trips.map (·.id)).Nodup ∧ (∀ t ∈ trips, places.get? t.id = none) ∧
        places' = places.setAll (trips.map fun t => (t.id, i, t.index)) := by
  induction trips generalizing places with
  | nil => simp [noteTrips, Table.setAll, eq_comm]
  | cons t trips ih =>
    unfold noteTrips
    rw [List.map_cons, List.nodup_cons, List.forall_mem_cons]
    rcases htaken : places.get? t.id with _ | x
    · dsimp only
      simp only [ih, Table.get?_set_eq_none_iff]
      constructor
      · rintro ⟨hnodup, hfree, h⟩
        refine ⟨⟨fun hmem => ?_, hnodup⟩, ⟨trivial, fun u hu => (hfree u hu).2⟩, h⟩
        obtain ⟨u, hu, hid⟩ := List.mem_map.1 hmem
        exact (hfree u hu).1 hid
      · rintro ⟨⟨hnot, hnodup⟩, ⟨-, hfree⟩, h⟩
        exact ⟨hnodup, fun u hu => ⟨fun hid => hnot (List.mem_map.2 ⟨u, hu, hid⟩), hfree u hu⟩, h⟩
    · constructor
      · intro h
        cases h
      · rintro ⟨-, ⟨hfree, -⟩, -⟩
        cases hfree

/-- **The trips of a row of patterns are noted** when the ids of all of them are distinct and none is taken. -/
theorem notePatterns_eq_ok_iff {i : Nat} {places places' : Table TripId (Nat × Nat)} {ps : List Pattern} :
    notePatterns i places ps = .ok places' ↔
      (tripIds ps).Nodup ∧ (∀ id ∈ tripIds ps, places.get? id = none) ∧
        places' = places.setAll (tripRows i ps) := by
  induction ps generalizing i places with
  | nil => simp [notePatterns, tripIds, tripRows, Table.setAll, eq_comm]
  | cons p ps ih =>
    have hids : tripIds (p :: ps) = p.trips.map (·.id) ++ tripIds ps := List.flatMap_cons
    have hrows : tripRows i (p :: ps) = (p.trips.map fun t => (t.id, i, t.index)) ++ tripRows (i + 1) ps := by
      unfold tripRows
      rw [List.zipIdx_cons, List.flatMap_cons]
    have hkeys : (p.trips.map fun t => (t.id, i, t.index)).map (·.1) = p.trips.map (·.id) := by
      rw [List.map_map]
      rfl
    unfold notePatterns
    rw [bind_eq_ok_iff, hids, hrows, Table.setAll_append, List.nodup_append, List.forall_mem_append]
    simp only [noteTrips_eq_ok_iff, ih]
    constructor
    · rintro ⟨_, ⟨hnodup, hfree, rfl⟩, hrest, hfree', h⟩
      simp only [Table.get?_setAll_eq_none_iff, hkeys] at hfree'
      refine ⟨⟨hnodup, hrest, ?_⟩, ⟨List.forall_mem_map.2 hfree, fun id hid => (hfree' id hid).1⟩, h⟩
      rintro a ha _ hb rfl
      exact (hfree' a hb).2 ha
    · rintro ⟨⟨hnodup, hrest, hdisjoint⟩, ⟨hfree, hfree'⟩, h⟩
      refine ⟨_, ⟨hnodup, List.forall_mem_map.1 hfree, rfl⟩, hrest, fun id hid => ?_, h⟩
      rw [Table.get?_setAll_eq_none_iff, hkeys]
      exact ⟨hfree' id hid, fun hmem => hdisjoint id hmem id hid rfl⟩

end Network

/-! ## The network of a timetable -/

/-- The network of a timetable with recorded rules. -/
def Timetable.network (tt : Timetable) (ts : List Transfer) : Network where
  timetable := tt
  book := tt.ruleBook ts
  patternPlaces := Table.empty.setAll (Network.patternRows 0 tt.patterns)
  tripPlaces := Table.empty.setAll (Network.tripRows 0 tt.patterns)

/-- The rules of such a network are those of its timetable. -/
theorem Network.book_eq_ruleBook {n : Network} {ts : List Transfer} (h : n = n.timetable.network ts) :
    n.book = n.timetable.ruleBook ts := congrArg Network.book h

end Interchange
