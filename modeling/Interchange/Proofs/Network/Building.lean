import Interchange.Proofs.Location
import Interchange.Proofs.Network.Places
import Interchange.Proofs.Timetable.TripTimes
import Mathlib.Data.List.Forall2

/-!
# Which networks are built

`Network.build` goes through a snapshot list by list and stops at the first fault. What it builds when
there is none can be said of the lists as wholes.

* `Network.registerStops_eq_ok_iff`, `Network.ordinals_eq_ok_iff` — the stops are registered as they
  come, and looked up by their ids.
* `TripRecord.Makes`, `PatternRecord.Makes` — a record makes a trip, a pattern.
* `Network.build_eq_ok_iff` — a network is built when the stops are its stops, the pattern ids are
  distinct, the records make its patterns, its trip ids are distinct, and it is the network of its timetable
  with the recorded rules.
-/

namespace Interchange

/-- A fault of the timetable stays a fault, and a result stays a result. -/
theorem Network.lift_eq_ok_iff {α : Type} {x : Except TimetableFault α} {a : α} :
    lift x = .ok a ↔ x = .ok a := by
  cases x <;> simp [lift]

/-- Two stop indexes with the same stops are the same. -/
theorem StopIndex.ext_stops {s s' : StopIndex} (h : s.stops = s'.stops) : s = s' := by
  cases s
  cases s'
  cases h
  rfl

namespace Network

/-! ## Stops -/

/-- Stops are registered, behind those that are there, when all ids are distinct. -/
theorem registerStops_eq_ok_iff {s s' : StopIndex} {stops : List Stop} :
    registerStops s stops = .ok s' ↔ s'.stops = s.stops ++ stops := by
  induction stops generalizing s with
  | nil =>
    rw [List.append_nil]
    constructor
    · intro h
      cases h
      rfl
    · intro h
      rw [StopIndex.ext_stops h]
      rfl
  | cons stop rest ih =>
    unfold registerStops StopIndex.add?
    by_cases hmem : stop.id ∈ s.stops.map (·.id)
    · rw [dif_pos hmem]
      constructor
      · intro h
        cases h
      · intro h
        have hdistinct := s'.distinct
        rw [h, List.map_append, List.nodup_append] at hdistinct
        exact absurd rfl (hdistinct.2.2 _ hmem _ List.mem_cons_self)
    · rw [dif_neg hmem]
      dsimp only
      rw [ih, List.append_assoc, List.singleton_append]

/-- The ordinals of a row of stops are those that have their ids. -/
theorem ordinals_eq_ok_iff {s : StopIndex} {pattern : PatternId} {ids : List StopId}
    {os : List StopOrdinal} :
    ordinals s pattern ids = .ok os ↔ os.map s.stopId? = ids.map some := by
  induction ids generalizing os with
  | nil =>
    rw [List.map_nil, List.map_eq_nil_iff]
    constructor
    · intro h
      cases h
      rfl
    · rintro rfl
      rfl
  | cons id ids ih =>
    unfold ordinals
    rw [List.map_cons, List.map_eq_cons_iff]
    rcases ho : s.ordinal? id with _ | o
    · constructor
      · intro h
        cases h
      · rintro ⟨o, rest, rfl, hid, -⟩
        rw [StopIndex.ordinal?_eq_some_iff.2 hid] at ho
        cases ho
    · dsimp only
      rw [bind_eq_ok_iff]
      have hid : s.stopId? o = some id := StopIndex.ordinal?_eq_some_iff.1 ho
      constructor
      · rintro ⟨rest, hrest, h⟩
        cases h
        exact ⟨o, rest, rfl, hid, ih.1 hrest⟩
      · rintro ⟨o', rest, rfl, hid', hrest⟩
        rw [← StopIndex.ordinal?_eq_some_iff, ho] at hid'
        cases hid'
        exact ⟨rest, ih.2 hrest, rfl⟩

end Network

/-! ## Trips and patterns -/

/-- Where two rows match, an element of the second is matched with one of the first. -/
theorem exists_of_forall₂_of_mem {α β : Type} {R : α → β → Prop} {as : List α} {bs : List β}
    (h : List.Forall₂ R as bs) {b : β} (hb : b ∈ bs) : ∃ a ∈ as, R a b := by
  induction h with
  | nil => cases hb
  | cons hr _ ih =>
    rcases List.mem_cons.1 hb with rfl | hb
    · exact ⟨_, List.mem_cons_self, hr⟩
    · obtain ⟨a, ha, hab⟩ := ih hb
      exact ⟨a, List.mem_cons_of_mem _ ha, hab⟩

/-- A record makes a trip of a route: without departures it departs when it arrives. -/
def TripRecord.Makes (route : RouteId) (r : TripRecord) (t : Trip) : Prop :=
  Trip.ofTimes r.id route r.arrivals (r.departures.getD r.arrivals) = .ok t

/-- A record makes a pattern: the stops of the pattern have the ids that are recorded, and its trips are
made of those that the trip records make. -/
def PatternRecord.Makes (s : StopIndex) (r : PatternRecord) (p : Pattern) : Prop :=
  p.stops.map s.stopId? = r.stops.map some ∧
    ∃ trips, List.Forall₂ (TripRecord.Makes r.route) r.trips trips ∧
      Pattern.ofTrips r.id r.route p.stops trips = .ok p

/-- A trip has the id of the record that makes it. -/
theorem TripRecord.Makes.id_eq {route : RouteId} {r : TripRecord} {t : Trip} (h : r.Makes route t) :
    t.id = r.id :=
  (Trip.ofTimes_eq_ok_iff.1 h).1

/-- A pattern has the id of the record that makes it. -/
theorem PatternRecord.Makes.id_eq {s : StopIndex} {r : PatternRecord} {p : Pattern}
    (h : r.Makes s p) : p.id = r.id := by
  obtain ⟨-, trips, -, hp⟩ := h
  exact (Pattern.fields_of_ofTrips hp).1

/-- Patterns have the ids of the records that make them. -/
theorem PatternRecord.map_id_of_makes {s : StopIndex} {rs : List PatternRecord} {ps : List Pattern}
    (h : List.Forall₂ (PatternRecord.Makes s) rs ps) : ps.map (·.id) = rs.map (·.id) := by
  induction h with
  | nil => rfl
  | cons hp _ ih => rw [List.map_cons, List.map_cons, hp.id_eq, ih]

/-- Every pattern that is made is made by one of the records. -/
theorem PatternRecord.exists_makes_of_mem {s : StopIndex} {rs : List PatternRecord}
    {ps : List Pattern} (h : List.Forall₂ (PatternRecord.Makes s) rs ps) {p : Pattern} (hp : p ∈ ps) :
    ∃ r ∈ rs, r.Makes s p :=
  exists_of_forall₂_of_mem h hp

namespace Network

/-- Trips are made one by one. -/
theorem makeTrips_eq_ok_iff {route : RouteId} {rs : List TripRecord} {trips : List Trip} :
    makeTrips route rs = .ok trips ↔ List.Forall₂ (TripRecord.Makes route) rs trips := by
  induction rs generalizing trips with
  | nil =>
    rw [List.forall₂_nil_left_iff]
    constructor
    · intro h
      cases h
      rfl
    · rintro rfl
      rfl
  | cons r rs ih =>
    unfold makeTrips
    rw [List.forall₂_cons_left_iff, bind_eq_ok_iff]
    simp only [lift_eq_ok_iff, bind_eq_ok_iff, ih]
    constructor
    · rintro ⟨t, ht, rest, hrest, h⟩
      cases h
      exact ⟨t, rest, ht, hrest, rfl⟩
    · rintro ⟨t, rest, ht, hrest, rfl⟩
      exact ⟨t, ht, rest, hrest, rfl⟩

/-- A pattern is made of its stops and then of its trips. -/
theorem makePattern_eq_ok_iff {s : StopIndex} {r : PatternRecord} {p : Pattern} :
    makePattern s r = .ok p ↔ r.Makes s p := by
  unfold makePattern PatternRecord.Makes
  simp only [bind_eq_ok_iff, ordinals_eq_ok_iff, makeTrips_eq_ok_iff, lift_eq_ok_iff]
  constructor
  · rintro ⟨stops, hstops, trips, htrips, hp⟩
    obtain ⟨-, -, rfl, -⟩ := Pattern.fields_of_ofTrips hp
    exact ⟨hstops, trips, htrips, hp⟩
  · rintro ⟨hstops, trips, htrips, hp⟩
    exact ⟨p.stops, hstops, trips, htrips, hp⟩

/-- Patterns are made one by one, when their ids are distinct and none is taken. Behind those that were there
stand the ones that the records make, and the place of each is noted. -/
theorem makePatterns_eq_ok_iff {s : StopIndex} {made made' : PatternTable} {rs : List PatternRecord} :
    makePatterns s made rs = .ok made' ↔
      (rs.map (·.id)).Nodup ∧ (∀ r ∈ rs, made.places.get? r.id = none) ∧
        ∃ ps, List.Forall₂ (PatternRecord.Makes s) rs ps ∧
          made' = ⟨made.row ++ ps, made.places.setAll (patternRows made.row.length ps)⟩ := by
  induction rs generalizing made with
  | nil => simp [makePatterns, patternRows, Table.setAll, eq_comm]
  | cons r rs ih =>
    unfold makePatterns
    rw [List.map_cons, List.nodup_cons, List.forall_mem_cons]
    rcases htaken : made.places.get? r.id with _ | x
    · dsimp only
      simp only [bind_eq_ok_iff, makePattern_eq_ok_iff, ih, Table.get?_set_eq_none_iff]
      -- the place is noted under the id of the record, which is that of the pattern
      have hrows : ∀ p ps, r.Makes s p →
          (⟨made.row ++ [p] ++ ps, (made.places.set r.id made.row.length).setAll
            (patternRows (made.row ++ [p]).length ps)⟩ : PatternTable) =
          ⟨made.row ++ p :: ps, made.places.setAll (patternRows made.row.length (p :: ps))⟩ := by
        intro p ps hp
        rw [List.append_assoc, List.singleton_append, List.length_append, List.length_singleton, ← hp.id_eq]
        rfl
      constructor
      · rintro ⟨p, hp, hnodup, hfree, ps, hps, h⟩
        refine ⟨⟨fun hmem => ?_, hnodup⟩, ⟨trivial, fun x hx => (hfree x hx).2⟩, p :: ps, .cons hp hps, ?_⟩
        · obtain ⟨x, hx, hid⟩ := List.mem_map.1 hmem
          exact (hfree x hx).1 hid
        · rw [h, hrows p ps hp]
      · rintro ⟨⟨hnot, hnodup⟩, ⟨-, hfree⟩, _, hps, h⟩
        rcases hps with _ | ⟨hp, hps⟩
        refine ⟨_, hp, hnodup, fun x hx => ⟨fun hid => ?_, hfree x hx⟩, _, hps, ?_⟩
        · exact hnot (List.mem_map.2 ⟨x, hx, hid⟩)
        · rw [h, hrows _ _ hp]
    · constructor
      · intro h
        cases h
      · rintro ⟨-, ⟨hfree, -⟩, -⟩
        cases hfree

/-! ## Networks -/

/-- **Which network is built**: the one of the timetable that the records make, with the recorded rules. -/
theorem build_eq_ok_iff {s : Snapshot} {n : Network} :
    build s = .ok n ↔
      n.timetable.stops.stops = s.stops ∧ (s.patterns.map (·.id)).Nodup ∧
        List.Forall₂ (PatternRecord.Makes n.timetable.stops) s.patterns n.timetable.patterns ∧
        (tripIds n.timetable.patterns).Nodup ∧ n = n.timetable.network s.transfers := by
  unfold build
  simp only [bind_eq_ok_iff, registerStops_eq_ok_iff, makePatterns_eq_ok_iff, notePatterns_eq_ok_iff]
  constructor
  · rintro ⟨stops, hstops, _, ⟨hids, -, ps, hmakes, rfl⟩, _, ⟨htrips, -, rfl⟩, h⟩
    cases h
    exact ⟨hstops, hids, hmakes, htrips, rfl⟩
  · rintro ⟨hstops, hids, hmakes, htrips, hnetwork⟩
    refine ⟨n.timetable.stops, hstops, _, ⟨hids, fun r _ => rfl, n.timetable.patterns, hmakes, rfl⟩, _,
      ⟨htrips, fun id _ => rfl, rfl⟩, ?_⟩
    exact congrArg Except.ok hnetwork.symm

end Network

end Interchange
