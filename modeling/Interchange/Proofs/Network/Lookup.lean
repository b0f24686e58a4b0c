import Interchange.Proofs.Network.Places
import Interchange.Proofs.RuleBook.Correspondence

/-!
# What is found in a network

In the network of a sound timetable, patterns and trips are found by their ids, whatever their places.

* `Network.get?_patternPlaces_eq_some_iff`, `Network.get?_tripPlaces_eq_some_iff` — what the two tables say of an
  id.
* `Network.exists_rules_of_pattern` — at the place of every pattern there are rules for it.
* `Network.patternWithRules?_eq_some_iff`, `Network.patternWithRules?_eq_none_iff` — a pattern is found with
  the rules at its place, and it is found when there is one.
* `Network.locate?_eq_some_iff` — a trip is found with the pattern that carries it.
* `Network.resolve_eq_ok_iff` — what a query is about. `Query.sourceTrip_request`, `Query.sourceStop_request`
  and `Query.sourceTime_request` — what the request takes from it.
-/

namespace Interchange

namespace Network

variable {n : Network} {ts : List Transfer}

/-! ## Patterns -/

/-- The place that is kept for an id is that of the pattern with the id. -/
theorem get?_patternPlaces_eq_some_iff (hsound : n.timetable.Sound)
    (hnetwork : n = n.timetable.network ts) {id : PatternId} {i : Nat} :
    n.patternPlaces.get? id = some i ↔ ∃ p, n.timetable.patterns[i]? = some p ∧ p.id = id := by
  have hplaces : n.patternPlaces = Table.empty.setAll (patternRows 0 n.timetable.patterns) :=
    congrArg Network.patternPlaces hnetwork
  have hids : ((patternRows 0 n.timetable.patterns).map (·.1)).Nodup := by
    rw [map_fst_patternRows]
    exact hsound.patterns_distinct
  rw [hplaces, Table.get?_setAll_eq_some_iff hids, mem_patternRows_iff]

/-- At the place of a pattern stand its rules. -/
theorem exists_rules_of_pattern (hnetwork : n = n.timetable.network ts) {i : Nat} {p : Pattern}
    (hp : n.timetable.patterns[i]? = some p) :
    ∃ rules, n.book.rules[i]? = some rules ∧ ∀ d, rules.index d = (n.timetable.ruleBook ts).index i d := by
  have hshape := Timetable.shaped_ruleBook n.timetable ts i .forward
  rw [← book_eq_ruleBook hnetwork] at hshape ⊢
  unfold RuleBook.index Timetable.stopCount at hshape
  unfold RuleBook.index
  rcases hrules : n.book.rules[i]? with _ | rules
  · -- without rules the pattern would have no position at all
    simp only [hrules, hp, RuleIndex.stopCount_empty] at hshape
    exact absurd (List.eq_nil_of_length_eq_zero hshape.symm) p.stops_ne_nil
  · exact ⟨rules, rfl, fun d => rfl⟩

/-- What is found under an id are the pattern and the rules at the place that is kept for it. -/
theorem patternWithRules?_eq_some_iff_get? {id : PatternId} {p : Pattern} {rules : PatternRules} :
    n.patternWithRules? id = some (p, rules) ↔ ∃ i, n.patternPlaces.get? id = some i ∧
      n.timetable.patterns[i]? = some p ∧ n.book.rules[i]? = some rules := by
  unfold patternWithRules?
  simp only [Option.bind_eq_bind, Option.bind_eq_some_iff, Option.pure_def, Option.some.injEq, Prod.mk.injEq]
  constructor
  · rintro ⟨i, hi, p', hp, rules', hrules, rfl, rfl⟩
    exact ⟨i, hi, hp, hrules⟩
  · rintro ⟨i, hi, hp, hrules⟩
    exact ⟨i, hi, p, hp, rules, hrules, rfl, rfl⟩

/-- A pattern that is found is one of the timetable. -/
theorem mem_of_patternWithRules? {id : PatternId} {p : Pattern} {rules : PatternRules}
    (h : n.patternWithRules? id = some (p, rules)) : p ∈ n.timetable.patterns := by
  obtain ⟨i, -, hp, -⟩ := patternWithRules?_eq_some_iff_get?.1 h
  exact List.mem_of_getElem? hp

/-- **A pattern is found by its id**, with the rules at its place, and nothing else is found. -/
theorem patternWithRules?_eq_some_iff (hsound : n.timetable.Sound) (hnetwork : n = n.timetable.network ts)
    {id : PatternId} {p : Pattern} {rules : PatternRules} :
    n.patternWithRules? id = some (p, rules) ↔
      ∃ i : Nat, n.timetable.patterns[i]? = some p ∧ n.book.rules[i]? = some rules ∧ p.id = id := by
  simp only [patternWithRules?_eq_some_iff_get?, get?_patternPlaces_eq_some_iff hsound hnetwork]
  constructor
  · rintro ⟨i, ⟨p', hp', hid⟩, hp, hrules⟩
    cases hp'.symm.trans hp
    exact ⟨i, hp, hrules, hid⟩
  · rintro ⟨i, hp, hrules, hid⟩
    exact ⟨i, ⟨p, hp, hid⟩, hp, hrules⟩

/-- A pattern of the timetable is found, with its rules in either direction. -/
theorem patternWithRules?_of_pattern (hsound : n.timetable.Sound) (hnetwork : n = n.timetable.network ts)
    {i : Nat} {p : Pattern} (hp : n.timetable.patterns[i]? = some p) :
    ∃ rules, n.patternWithRules? p.id = some (p, rules) ∧
      ∀ d, rules.index d = (n.timetable.ruleBook ts).index i d := by
  obtain ⟨rules, hrules, hindex⟩ := exists_rules_of_pattern hnetwork hp
  exact ⟨rules, (patternWithRules?_eq_some_iff hsound hnetwork).2 ⟨i, hp, hrules, rfl⟩, hindex⟩

/-- A pattern is not found when there is none with its id. -/
theorem patternWithRules?_eq_none_iff (hsound : n.timetable.Sound) (hnetwork : n = n.timetable.network ts)
    {id : PatternId} : n.patternWithRules? id = none ↔ ∀ p ∈ n.timetable.patterns, p.id ≠ id := by
  constructor
  · rintro hnone p hp rfl
    obtain ⟨i, hi⟩ := List.getElem?_of_mem hp
    obtain ⟨rules, hrules, -⟩ := patternWithRules?_of_pattern hsound hnetwork hi
    rw [hnone] at hrules
    cases hrules
  · intro h
    rcases hfound : n.patternWithRules? id with _ | ⟨p, rules⟩
    · rfl
    · obtain ⟨i, hp, -, hid⟩ := (patternWithRules?_eq_some_iff hsound hnetwork).1 hfound
      exact absurd hid (h p (List.mem_of_getElem? hp))

/-- At the place that is kept for an id stand a pattern and its rules, so that neither is found without the
other. -/
theorem get?_patternPlaces_cases (hsound : n.timetable.Sound) (hnetwork : n = n.timetable.network ts)
    (id : PatternId) :
    n.patternPlaces.get? id = none ∨ ∃ (i : Nat) (p : Pattern) (rules : PatternRules),
      n.patternPlaces.get? id = some i ∧ n.timetable.patterns[i]? = some p ∧ n.book.rules[i]? = some rules := by
  rcases hplace : n.patternPlaces.get? id with _ | i
  · exact .inl rfl
  · obtain ⟨p, hp, -⟩ := (get?_patternPlaces_eq_some_iff hsound hnetwork).1 hplace
    obtain ⟨rules, hrules, -⟩ := exists_rules_of_pattern hnetwork hp
    exact .inr ⟨i, p, rules, rfl, hp, hrules⟩

/-- The pattern with an id is that of the two that are found together. -/
theorem pattern?_eq_map (hsound : n.timetable.Sound) (hnetwork : n = n.timetable.network ts) (id : PatternId) :
    n.pattern? id = (n.patternWithRules? id).map (·.1) := by
  unfold pattern? patternWithRules?
  rcases get?_patternPlaces_cases hsound hnetwork id with hnone | ⟨i, p, rules, hi, hp, hrules⟩
  · rw [hnone]
    rfl
  · rw [hi]
    simp [hp, hrules]

/-- So are its rules. -/
theorem rules?_eq_map (hsound : n.timetable.Sound) (hnetwork : n = n.timetable.network ts) (id : PatternId) :
    n.rules? id = (n.patternWithRules? id).map (·.2) := by
  unfold rules? patternWithRules?
  rcases get?_patternPlaces_cases hsound hnetwork id with hnone | ⟨i, p, rules, hi, hp, hrules⟩
  · rw [hnone]
    rfl
  · rw [hi]
    simp [hp, hrules]

/-! ## Trips -/

/-- The place and the number that are kept for an id are those of the trip with the id. -/
theorem get?_tripPlaces_eq_some_iff (hsound : n.timetable.Sound) (hnetwork : n = n.timetable.network ts)
    {trip : TripId} {i k : Nat} :
    n.tripPlaces.get? trip = some (i, k) ↔
      ∃ p t, n.timetable.patterns[i]? = some p ∧ p.trips[k]? = some t ∧ t.id = trip := by
  have hplaces : n.tripPlaces = Table.empty.setAll (tripRows 0 n.timetable.patterns) :=
    congrArg Network.tripPlaces hnetwork
  have hids : ((tripRows 0 n.timetable.patterns).map (·.1)).Nodup := by
    rw [map_fst_tripRows]
    exact hsound.trips_distinct
  rw [hplaces, Table.get?_setAll_eq_some_iff hids, mem_tripRows_iff]

/-- What is found under an id are the pattern at the place that is kept for it, and its trip with the number. -/
theorem locate?_eq_some_iff_get? {trip : TripId} {p : Pattern} {t : Trip} :
    n.locate? trip = some (p, t) ↔ ∃ i k, n.tripPlaces.get? trip = some (i, k) ∧
      n.timetable.patterns[i]? = some p ∧ p.trips[k]? = some t := by
  unfold locate?
  simp only [Option.bind_eq_bind, Option.bind_eq_some_iff, Option.pure_def, Option.some.injEq, Prod.mk.injEq,
    Prod.exists]
  constructor
  · rintro ⟨i, k, hplace, p', hp, t', ht, rfl, rfl⟩
    exact ⟨i, k, hplace, hp, ht⟩
  · rintro ⟨i, k, hplace, hp, ht⟩
    exact ⟨i, k, hplace, p, hp, t, ht, rfl, rfl⟩

/-- **A trip is found by its id**, with the pattern that carries it. -/
theorem locate?_eq_some_iff (hsound : n.timetable.Sound) (hnetwork : n = n.timetable.network ts)
    {trip : TripId} {p : Pattern} {t : Trip} :
    n.locate? trip = some (p, t) ↔ p ∈ n.timetable.patterns ∧ t ∈ p.trips ∧ t.id = trip := by
  simp only [locate?_eq_some_iff_get?, get?_tripPlaces_eq_some_iff hsound hnetwork]
  constructor
  · rintro ⟨i, k, ⟨p', t', hp', ht', hid⟩, hp, ht⟩
    cases hp'.symm.trans hp
    cases ht'.symm.trans ht
    exact ⟨List.mem_of_getElem? hp, List.mem_of_getElem? ht, hid⟩
  · rintro ⟨hp, ht, hid⟩
    obtain ⟨i, hi⟩ := List.getElem?_of_mem hp
    obtain ⟨k, hk⟩ := List.getElem?_of_mem ht
    exact ⟨i, k, ⟨p, t, hi, hk, hid⟩, hi, hk⟩

/-! ## Queries -/

/-- **What a query is about is found** when its pattern, its trip and its stop are. -/
theorem resolve_eq_ok_iff {q : Query} {p : Pattern} {index : RuleIndex} {r : BoardingRequest} :
    n.resolve q = .ok (p, index, r) ↔ ∃ rules pt t o,
      n.patternWithRules? q.pattern = some (p, rules) ∧ n.locate? q.sourceTrip = some (pt, t) ∧
        n.timetable.stops.ordinal? q.sourceStop = some o ∧ index = rules.index q.direction ∧
        r = q.request t o := by
  unfold resolve
  constructor
  · intro h
    rcases hp : n.patternWithRules? q.pattern with _ | ⟨p', rules⟩
    · rw [hp] at h
      cases h
    rcases hlocate : n.locate? q.sourceTrip with _ | ⟨pt, t⟩
    · rw [hp, hlocate] at h
      cases h
    rcases ho : n.timetable.stops.ordinal? q.sourceStop with _ | o
    · rw [hp, hlocate, ho] at h
      cases h
    rw [hp, hlocate, ho] at h
    cases h
    exact ⟨rules, pt, t, o, rfl, rfl, rfl, rfl, rfl⟩
  · rintro ⟨rules, pt, t, o, hp, hlocate, ho, rfl, rfl⟩
    rw [hp, hlocate, ho]

/-! ## Requests -/

/-- A request comes from the trip that it was made for. -/
theorem Query.sourceTrip_request (q : Query) (t : Trip) (o : StopOrdinal) :
    (q.request t o).sourceTrip = t := by
  unfold Query.request
  split <;> rfl

/-- A request comes from the stop that it was made for. -/
theorem Query.sourceStop_request (q : Query) (t : Trip) (o : StopOrdinal) :
    (q.request t o).sourceStop = o := by
  unfold Query.request
  split <;> rfl

/-- The request of a query leaves from the source time of the query. -/
theorem Query.sourceTime_request (q : Query) (trip : Trip) (stop : StopOrdinal) :
    (q.request trip stop).sourceTime = q.sourceTime := by
  unfold Query.request
  split <;> rfl

end Network

end Interchange
