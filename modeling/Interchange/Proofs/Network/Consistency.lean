import Interchange.Proofs.Network.Provenance
import Interchange.Proofs.Network.Validity

/-!
# What holds together in a network

A network has four rows and tables that have to fit each other: the patterns, the rules for them, the table of the
places of patterns, and that of the places of trips. Each is made in a loop of its own. A search leaves early where
one of them does not fit the others: without a stop at its position, without a trip at a place, or at a trip
without a time there. In a network that is built this does not happen.

* `RuleBook.length_rules_ruleBook` — there are as many rules as patterns.
* `Search.GetsThrough` — a search finds its stop and the times of all trips. `Search.getsThrough_of_stop` — it
  does where the pattern has the position.
* `Snapshot.HasPattern`, `Snapshot.HasTrip`, `Snapshot.HasStop` — what is recorded under an id, which is what is
  found.
* `Network.patternWithRules?_eq_find?`, `Network.locate?_eq_findSome?` — a look-up finds what a search through all
  patterns does.
* `Network.Consistent` — what holds together. `Network.consistent_of_build` — it does in a network that is
  built.
-/

namespace Interchange

/-! ## Rules for every pattern -/

namespace RuleBook

variable {tt : Timetable} {b : RuleBook}

/-- A placement changes the rules of a pattern, but not for how many patterns there are rules. -/
theorem length_rules_place (p : Placement) : (place tt b p).rules.length = b.rules.length := by
  unfold place
  split
  · rename_i rules _ _
    rcases rules.add p.direction p.position p.entry with ⟨rules', outcome⟩
    cases outcome <;> simp
  · rfl

/-- A run of placements does not either. -/
theorem length_rules_foldl_place (ps : List Placement) :
    (ps.foldl (place tt) b).rules.length = b.rules.length := by
  induction ps generalizing b with
  | nil => rfl
  | cons p ps ih => rw [List.foldl_cons, ih, length_rules_place]

/-- Nor does a record. -/
theorem length_rules_record (t : Transfer) : (record tt b t).rules.length = b.rules.length := by
  obtain ⟨counted, hrules, -, h | ⟨-, side, point, h⟩⟩ := record_eq tt b t
  · rw [h, length_rules_foldl_place, hrules]
  · rw [h, rules_report, hrules]

/-- Nor does a run of records. -/
theorem length_rules_foldl_record (ts : List Transfer) :
    (ts.foldl (record tt) b).rules.length = b.rules.length := by
  induction ts generalizing b with
  | nil => rfl
  | cons t ts ih => rw [List.foldl_cons, ih, length_rules_record]

/-- **There are rules for each pattern, and for no others.** -/
theorem length_rules_ruleBook (tt : Timetable) (ts : List Transfer) :
    (tt.ruleBook ts).rules.length = tt.patterns.length := by
  unfold Timetable.ruleBook
  rw [length_rules_foldl_record]
  exact List.length_map _

end RuleBook

/-- An index has entries at its own positions only. -/
theorem RuleIndex.lt_stopCount_of_slot_ne_nil {i : RuleIndex} {p : Position} (h : i.slot p ≠ []) :
    p < i.stopCount := Nat.not_le.1 fun hle => h (slot_of_le hle)

/-! ## Searches that get through -/

namespace Search

variable {d : Direction} {cfg : SearchConfig} {r : BoardingRequest} {s : Slot} {p : Position}

/-- A search gets through: there is a stop at the position; each number that the scan comes to is that of a trip
with a time there; and the scan, with the rules that count, ends at a trip, by giving up, or behind the last
trip. -/
structure GetsThrough (d : Direction) (cfg : SearchConfig) (pattern : Pattern) (s : Slot) (p : Position)
    (r : BoardingRequest) : Prop where
  stop : ∃ stop, pattern.stops[p]? = some stop
  trips : ∀ i ∈ d.order (List.range pattern.trips.length), ∃ t time,
    pattern.trips[i]? = some t ∧ d.eventTime? t p = some time
  run : ∃ report, Search.run d cfg pattern s p r = some report ∧
    pattern.stops[p]? = some report.stop ∧ report.rules = applicable s r ∧ report.outcome ≠ .noCall

/-- A scan of trips that all call at the position does not end for want of a call. -/
theorem scan_ne_noCall {rules : List Entry} {trips : List Trip}
    (htrips : ∀ t ∈ trips, ∃ time, d.eventTime? t p = some time) (passed : Passed) :
    (scan d cfg r rules p trips passed).2 ≠ .noCall := by
  induction trips generalizing passed with
  | nil =>
    unfold scan
    exact Outcome.noConfusion
  | cons t rest ih =>
    obtain ⟨time, htime⟩ := htrips t List.mem_cons_self
    have hrest := ih fun t ht => htrips t (List.mem_cons_of_mem _ ht)
    unfold scan
    rw [htime]
    dsimp only
    -- every branch ends at this trip, gives up or goes on
    split
    · exact hrest passed
    · split
      · exact Outcome.noConfusion
      · exact hrest _
      · exact Outcome.noConfusion
      · exact Outcome.noConfusion
      · exact hrest passed
      · exact hrest passed
      · split
        · exact Outcome.noConfusion
        · split
          · exact Outcome.noConfusion
          · exact hrest _

/-- **With rules that count, a search gets through** at every position of the pattern. -/
theorem getsThrough_of_stop {pattern : Pattern} (happ : applicable s r ≠ []) {stop : StopOrdinal}
    (hstop : pattern.stops[p]? = some stop) : GetsThrough d cfg pattern s p r := by
  have htimes : ∀ t ∈ d.order pattern.trips, ∃ time, d.eventTime? t p = some time :=
    Pattern.exists_eventTime? hstop
  refine ⟨⟨stop, hstop⟩, fun i hi => ?_, ?_⟩
  · have hlt : i < pattern.trips.length := List.mem_range.1 (Direction.mem_order_iff.1 hi)
    obtain ⟨time, htime⟩ := htimes pattern.trips[i] (Direction.mem_order_iff.2 (List.getElem_mem hlt))
    exact ⟨_, time, List.getElem?_eq_getElem hlt, htime⟩
  · unfold run
    rcases hrules : applicable s r with _ | ⟨e, rest⟩
    · exact absurd hrules happ
    · rw [hstop]
      exact ⟨_, rfl, rfl, rfl, scan_ne_noCall htimes _⟩

end Search

/-! ## What is found -/

/-- A part of what is looked up is found when the whole is. -/
theorem exists_map_eq_some_iff {α β : Type} {x : Option α} {f : α → β} :
    (∃ b, x.map f = some b) ↔ ∃ a, x = some a := by
  cases x <;> simp

/-- A pattern with an id is recorded. -/
def Snapshot.HasPattern (s : Snapshot) (id : PatternId) : Prop := ∃ r ∈ s.patterns, r.id = id

/-- A trip with an id is recorded, for whichever pattern. -/
def Snapshot.HasTrip (s : Snapshot) (id : TripId) : Prop := ∃ r ∈ s.patterns, ∃ t ∈ r.trips, t.id = id

/-- A stop with an id is recorded. -/
def Snapshot.HasStop (s : Snapshot) (id : StopId) : Prop := ∃ stop ∈ s.stops, stop.id = id

namespace Network

variable {s : Snapshot} {n : Network} {ts : List Transfer}

/-- The places that are kept are those of the recorded patterns. -/
theorem exists_patternPlace_iff (hn : build s = .ok n) {id : PatternId} :
    (∃ i, n.patternPlaces.get? id = some i) ↔ s.HasPattern id := by
  obtain ⟨-, -, hmakes, -, hnetwork⟩ := build_eq_ok_iff.1 hn
  have hids : n.timetable.patterns.map (·.id) = s.patterns.map (·.id) := PatternRecord.map_id_of_makes hmakes
  have hkept : (∃ i, n.patternPlaces.get? id = some i) ↔ id ∈ n.timetable.patterns.map (·.id) := by
    simp only [get?_patternPlaces_eq_some_iff (sound_of_build hn) hnetwork, List.mem_map]
    constructor
    · rintro ⟨i, p, hp, hid⟩
      exact ⟨p, List.mem_of_getElem? hp, hid⟩
    · rintro ⟨p, hp, hid⟩
      obtain ⟨i, hi⟩ := List.getElem?_of_mem hp
      exact ⟨i, p, hi, hid⟩
  rw [hkept, hids, List.mem_map]
  exact Iff.rfl

/-- The patterns that are found are the recorded ones. -/
theorem exists_patternWithRules?_iff (hn : build s = .ok n) {id : PatternId} :
    (∃ e, n.patternWithRules? id = some e) ↔ s.HasPattern id := by
  obtain ⟨-, -, -, -, hnetwork⟩ := build_eq_ok_iff.1 hn
  rw [← exists_patternPlace_iff hn]
  simp only [Prod.exists, patternWithRules?_eq_some_iff_get?]
  constructor
  · rintro ⟨p, rules, i, hi, -⟩
    exact ⟨i, hi⟩
  · rintro ⟨i, hi⟩
    rcases get?_patternPlaces_cases (sound_of_build hn) hnetwork id with hnone | ⟨j, p, rules, hj, hp, hrules⟩
    · rw [hnone] at hi
      cases hi
    · exact ⟨p, rules, j, hj, hp, hrules⟩

/-- The trips that are found are the recorded ones. -/
theorem exists_locate?_iff (hn : build s = .ok n) {id : TripId} :
    (∃ e, n.locate? id = some e) ↔ s.HasTrip id := by
  obtain ⟨-, -, hmakes, -, hnetwork⟩ := build_eq_ok_iff.1 hn
  have hids : id ∈ tripIds n.timetable.patterns ↔ id ∈ s.patterns.flatMap fun r => r.trips.map (·.id) :=
    (PatternRecord.tripIds_perm_of_makes hmakes).mem_iff
  have hfound : (∃ e, n.locate? id = some e) ↔ id ∈ tripIds n.timetable.patterns := by
    simp only [Prod.exists, locate?_eq_some_iff (sound_of_build hn) hnetwork, tripIds, List.mem_flatMap,
      List.mem_map, exists_and_left]
  rw [hfound, hids]
  simp only [List.mem_flatMap, List.mem_map]
  exact Iff.rfl

/-- The places that are kept for trips are those of the recorded ones. -/
theorem exists_tripPlace_iff (hn : build s = .ok n) {id : TripId} :
    (∃ e, n.tripPlaces.get? id = some e) ↔ s.HasTrip id := by
  obtain ⟨-, -, -, -, hnetwork⟩ := build_eq_ok_iff.1 hn
  rw [← exists_locate?_iff hn]
  simp only [Prod.exists, locate?_eq_some_iff_get?, get?_tripPlaces_eq_some_iff (sound_of_build hn) hnetwork]
  constructor
  · rintro ⟨i, k, p, t, hp, ht, hid⟩
    exact ⟨p, t, i, k, ⟨p, t, hp, ht, hid⟩, hp, ht⟩
  · rintro ⟨-, -, i, k, hplace, -, -⟩
    exact ⟨i, k, hplace⟩

/-- The stops that are found are the recorded ones. -/
theorem exists_ordinal?_iff (hn : build s = .ok n) {id : StopId} :
    (∃ o, n.timetable.stops.ordinal? id = some o) ↔ s.HasStop id := by
  obtain ⟨hstops, -⟩ := build_eq_ok_iff.1 hn
  simp only [StopIndex.ordinal?_eq_some_iff, StopIndex.exists_stopId?_iff, hstops]
  exact Iff.rfl

/-! ## Look-ups and searches through all patterns -/

/-- **The pattern that is looked up is the one that a search through all of them finds**, and so are its rules. -/
theorem patternWithRules?_eq_find? (hsound : n.timetable.Sound) (hnetwork : n = n.timetable.network ts)
    (id : PatternId) :
    n.patternWithRules? id = (n.timetable.patterns.zip n.book.rules).find? fun e => e.1.id = id := by
  have hlength : n.timetable.patterns.length ≤ n.book.rules.length := by
    rw [book_eq_ruleBook hnetwork]
    exact (RuleBook.length_rules_ruleBook _ _).ge
  have hids : ((n.timetable.patterns.zip n.book.rules).map (·.1.id)).Nodup := by
    have hfirst := congrArg (List.map Pattern.id) (List.map_fst_zip hlength)
    rw [List.map_map] at hfirst
    exact hfirst ▸ hsound.patterns_distinct
  apply Option.ext
  rintro ⟨p, rules⟩
  rw [patternWithRules?_eq_some_iff hsound hnetwork, find?_eq_some_iff_of_nodup hids, List.mem_iff_getElem?]
  simp only [List.getElem?_zip_eq_some]
  constructor
  · rintro ⟨i, hp, hrules, hid⟩
    exact ⟨⟨i, hp, hrules⟩, hid⟩
  · rintro ⟨⟨i, hp, hrules⟩, hid⟩
    exact ⟨i, hp, hrules, hid⟩

/-- **The trip that is looked up is the one that a search through all patterns finds.** -/
theorem locate?_eq_findSome? (hsound : n.timetable.Sound) (hnetwork : n = n.timetable.network ts)
    (trip : TripId) :
    n.locate? trip =
      n.timetable.patterns.findSome? fun p => (p.trips.find? fun t => t.id = trip).map fun t => (p, t) := by
  rcases hfind : n.timetable.patterns.findSome? _ with _ | ⟨p, t⟩
  · rw [List.findSome?_eq_none_iff] at hfind
    rcases hlocate : n.locate? trip with _ | ⟨p, t⟩
    · rfl
    · obtain ⟨hp, ht, hid⟩ := (locate?_eq_some_iff hsound hnetwork).1 hlocate
      have hnone := hfind p hp
      rw [Option.map_eq_none_iff, List.find?_eq_none] at hnone
      exact absurd (decide_eq_true hid) (hnone t ht)
  · obtain ⟨p', hp, hmap⟩ := List.exists_of_findSome?_eq_some hfind
    obtain ⟨t', ht, heq⟩ := Option.map_eq_some_iff.1 hmap
    cases heq
    exact (locate?_eq_some_iff hsound hnetwork).2
      ⟨hp, List.mem_of_find?_eq_some ht, by simpa using List.find?_some ht⟩

/-! ## Consistency -/

/-- What holds together in the network of a snapshot. -/
structure Consistent (s : Snapshot) (n : Network) : Prop where
  /-- There are rules for each pattern, and for no others. -/
  length_rules : n.book.rules.length = n.timetable.patterns.length
  /-- The patterns have the recorded ids in the recorded order, and no two share one. -/
  pattern_ids : n.timetable.patterns.map (·.id) = s.patterns.map (·.id) ∧ (s.patterns.map (·.id)).Nodup
  /-- For the id of a pattern its place is kept. -/
  pattern_kept : ∀ (i : Nat) p, n.timetable.patterns[i]? = some p → n.patternPlaces.get? p.id = some i
  /-- At the place that is kept for an id stand the pattern with that id and rules with a slot for each of its
  stops. Both are what is found under the id. -/
  pattern_found : ∀ id i, n.patternPlaces.get? id = some i → ∃ p rules,
    n.timetable.patterns[i]? = some p ∧ n.book.rules[i]? = some rules ∧ p.id = id ∧
      n.pattern? id = some p ∧ n.rules? id = some rules ∧ n.patternWithRules? id = some (p, rules) ∧
      ∀ d, (rules.index d).stopCount = p.stops.length
  /-- A place is kept, and a pattern and rules are found, for the recorded ids and for no others. -/
  pattern_iff : ∀ id, ((∃ i, n.patternPlaces.get? id = some i) ↔ s.HasPattern id) ∧
    ((∃ p, n.pattern? id = some p) ↔ s.HasPattern id) ∧
    ((∃ rules, n.rules? id = some rules) ↔ s.HasPattern id)
  /-- What is found is what a search through all patterns finds. -/
  pattern_searched : ∀ id, n.patternWithRules? id =
    (n.timetable.patterns.zip n.book.rules).find? fun e => e.1.id = id
  /-- The trips have the recorded ids, and no two share one. -/
  trip_ids : (tripIds n.timetable.patterns).Perm (s.patterns.flatMap fun r => r.trips.map (·.id)) ∧
    (s.patterns.flatMap fun r => r.trips.map (·.id)).Nodup
  /-- For the id of a trip the place of its pattern is kept, and its own place there. -/
  trip_kept : ∀ (i : Nat) p (k : Nat) t, n.timetable.patterns[i]? = some p → p.trips[k]? = some t →
    n.tripPlaces.get? t.id = some (i, k)
  /-- At the places that are kept for an id stand a pattern and the trip with that id, which has its place as its
  number. They are what is found under the id. -/
  trip_found : ∀ trip i k, n.tripPlaces.get? trip = some (i, k) → ∃ p t,
    n.timetable.patterns[i]? = some p ∧ p.trips[k]? = some t ∧ t.id = trip ∧ t.index = k ∧
      n.locate? trip = some (p, t)
  /-- Places are kept, and a trip is found, for the recorded ids and for no others. -/
  trip_iff : ∀ trip, ((∃ e, n.tripPlaces.get? trip = some e) ↔ s.HasTrip trip) ∧
    ((∃ e, n.locate? trip = some e) ↔ s.HasTrip trip)
  /-- What is found is what a search through all patterns finds. -/
  trip_searched : ∀ trip, n.locate? trip =
    n.timetable.patterns.findSome? fun p => (p.trips.find? fun t => t.id = trip).map fun t => (p, t)
  /-- Patterns call at listed stops. -/
  stops_known : ∀ p ∈ n.timetable.patterns, ∀ o ∈ p.stops, ∃ stop ∈ s.stops,
    n.timetable.stops.stopId? o = some stop.id ∧ n.timetable.stops.ordinal? stop.id = some o
  /-- Every search for a query that finds rules gets through. -/
  searches : ∀ cfg q p index r, n.resolve q = .ok (p, index, r) →
    Search.applicable (index.slot q.position) r ≠ [] →
      Search.GetsThrough q.direction cfg p (index.slot q.position) q.position r

/-- At the place of a pattern stand rules that have a slot for each of its stops. -/
theorem stopCount_of_rules (hnetwork : n = n.timetable.network ts) {i : Nat} {p : Pattern} {rules : PatternRules}
    (hp : n.timetable.patterns[i]? = some p) (hrules : n.book.rules[i]? = some rules) (d : Direction) :
    (rules.index d).stopCount = p.stops.length := by
  have hshape := Timetable.shaped_ruleBook n.timetable ts i d
  rw [← book_eq_ruleBook hnetwork] at hshape
  unfold RuleBook.index Timetable.stopCount at hshape
  rwa [hrules, hp] at hshape

/-- The index that a query goes by has a slot for each stop of its pattern. -/
theorem stopCount_of_resolve (hnetwork : n = n.timetable.network ts) {q : Query} {p : Pattern}
    {index : RuleIndex} {r : BoardingRequest} (h : n.resolve q = .ok (p, index, r)) :
    index.stopCount = p.stops.length := by
  obtain ⟨rules, pt, t, o, hfound, -, -, rfl, -⟩ := resolve_eq_ok_iff.1 h
  obtain ⟨i, -, hp, hrules⟩ := patternWithRules?_eq_some_iff_get?.1 hfound
  exact stopCount_of_rules hnetwork hp hrules q.direction

/-- **A network that is built is consistent.** The places that are kept for patterns are theirs, and there stand
the patterns and their rules, with a slot for each stop; those that are kept for trips are theirs, and there
stands the pattern that has the trip at its number; both are kept for the recorded ids and for no others. Patterns
call at listed stops, and every search that finds rules has its stop, its trips and their times. -/
theorem consistent_of_build (h : build s = .ok n) : Consistent s n := by
  obtain ⟨hstops, hids, hmakes, htrips, hnetwork⟩ := build_eq_ok_iff.1 h
  have hsound := sound_of_build h
  have htripIds := PatternRecord.tripIds_perm_of_makes hmakes
  refine
    { length_rules := ?_
      pattern_ids := ⟨PatternRecord.map_id_of_makes hmakes, hids⟩
      pattern_kept := fun i p hp => (get?_patternPlaces_eq_some_iff hsound hnetwork).2 ⟨p, hp, rfl⟩
      pattern_found := fun id i hi => ?_
      pattern_iff := fun id => ⟨exists_patternPlace_iff h, ?_, ?_⟩
      pattern_searched := patternWithRules?_eq_find? hsound hnetwork
      trip_ids := ⟨htripIds, htripIds.nodup_iff.1 htrips⟩
      trip_kept := fun i p k t hp ht =>
        (get?_tripPlaces_eq_some_iff hsound hnetwork).2 ⟨p, t, hp, ht, rfl⟩
      trip_found := fun trip i k hk => ?_
      trip_iff := fun trip => ⟨exists_tripPlace_iff h, exists_locate?_iff h⟩
      trip_searched := locate?_eq_findSome? hsound hnetwork
      stops_known := fun p hp o ho => ?_
      searches := fun cfg q p index r hresolve happ => ?_ }
  · rw [book_eq_ruleBook hnetwork]
    exact RuleBook.length_rules_ruleBook _ _
  · obtain ⟨p, hp, rfl⟩ := (get?_patternPlaces_eq_some_iff hsound hnetwork).1 hi
    obtain ⟨rules, hrules, -⟩ := exists_rules_of_pattern hnetwork hp
    have hfound : n.patternWithRules? p.id = some (p, rules) :=
      (patternWithRules?_eq_some_iff hsound hnetwork).2 ⟨i, hp, hrules, rfl⟩
    refine ⟨p, rules, hp, hrules, rfl, ?_, ?_, hfound, stopCount_of_rules hnetwork hp hrules⟩
    · rw [pattern?_eq_map hsound hnetwork, hfound, Option.map_some]
    · rw [rules?_eq_map hsound hnetwork, hfound, Option.map_some]
  · rw [pattern?_eq_map hsound hnetwork, exists_map_eq_some_iff]
    exact exists_patternWithRules?_iff h
  · rw [rules?_eq_map hsound hnetwork, exists_map_eq_some_iff]
    exact exists_patternWithRules?_iff h
  · obtain ⟨p, t, hp, ht, rfl⟩ := (get?_tripPlaces_eq_some_iff hsound hnetwork).1 hk
    exact ⟨p, t, hp, ht, rfl, Pattern.index_eq_of_getElem? ht, locate?_eq_some_iff_get?.2 ⟨i, k, hk, hp, ht⟩⟩
  · obtain ⟨id, hid⟩ := hsound.registered p hp o ho
    obtain ⟨stop, hstop, rfl⟩ := Option.map_eq_some_iff.1 hid
    exact ⟨stop, hstops ▸ List.mem_of_getElem? hstop, hid, StopIndex.ordinal?_eq_some_iff.2 hid⟩
  · have hslot : index.slot q.position ≠ [] := fun hnil => happ (by rw [hnil]; rfl)
    have hlt : q.position < p.stops.length := by
      rw [← stopCount_of_resolve hnetwork hresolve]
      exact RuleIndex.lt_stopCount_of_slot_ne_nil hslot
    exact Search.getsThrough_of_stop happ (List.getElem?_eq_getElem hlt)

/-- The network of the crossing is consistent. Its second pattern and the second trip there are kept under their
places. A rider who arrives in the middle finds a rule there, and the search for the next trip gets through. -/
theorem consistent_of_build_crossing :
    ∃ n, build storedCrossing = .ok n ∧ Consistent storedCrossing n ∧
      n.patternPlaces.get? heldQuery.pattern = some 1 ∧ n.tripPlaces.get? ⟨"d", by decide⟩ = some (1, 1) ∧
      ∃ p index r, n.resolve heldQuery = .ok (p, index, r) ∧
      Search.GetsThrough .forward .default p (index.slot 0) 0 r := by
  obtain ⟨n, hn, hpattern, htrip⟩ : ∃ n, build storedCrossing = .ok n ∧
      n.patternPlaces.get? heldQuery.pattern = some 1 ∧ n.tripPlaces.get? ⟨"d", by decide⟩ = some (1, 1) :=
    ⟨_, rfl, rfl, rfl⟩
  have hconsistent := consistent_of_build hn
  obtain ⟨p, index, r, hresolve, happ⟩ : ∃ p index r, n.resolve heldQuery = .ok (p, index, r) ∧
      Search.applicable (index.slot heldQuery.position) r ≠ [] := by
    cases hn
    exact ⟨_, _, _, rfl, by decide⟩
  exact ⟨n, hn, hconsistent, hpattern, htrip, p, index, r, hresolve, hconsistent.searches _ _ _ _ _ hresolve happ⟩

end Network

end Interchange
