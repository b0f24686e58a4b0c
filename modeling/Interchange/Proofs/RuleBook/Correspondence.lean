import Interchange.Network
import Interchange.Proofs.RuleBook.Issues
import Interchange.Proofs.Search.Renumbering
import Mathlib.Data.List.Nodup

/-!
# Timetables that correspond

Two timetables may list the same stops and the same patterns in different orders. Stops then have other
numbers and patterns stand at other places, and nothing else differs.

* `StopIndex.SameStop` — two numbers stand for one stop.
* `Pattern.plan`, `Timetable.planAt?` — what a pattern says, with the ids of its stops.
* `Timetable.Sound`, `Timetable.Corresponds` — the stops of the patterns are registered and no id is used
  twice; the stops and the plans of one timetable are those of the other.
* `Timetable.Corresponds.covers_of`, `claims_iff` and `firstClaims_iff` — points cover the same positions
  and records claim the same keys, up to numbers; so slots hold the same entries (`mem_slot_iff`), the
  same positions have rules (`hasRules_eq`), and the same issues are reported (`issues_perm`).
-/

namespace Interchange

/-! ## Stops -/

namespace StopIndex

variable {s s' : StopIndex} {o o' : StopOrdinal}

/-- Two numbers, each in its own index, stand for the same stop. -/
def SameStop (s s' : StopIndex) (o o' : StopOrdinal) : Prop :=
  ∃ id, s.stopId? o = some id ∧ s'.stopId? o' = some id

/-- Standing for the same stop is mutual. -/
theorem SameStop.symm (h : SameStop s s' o o') : SameStop s' s o' o := by
  obtain ⟨id, ho, ho'⟩ := h
  exact ⟨id, ho', ho⟩

/-- No two stops of an index share an id. -/
theorem eq_of_stopId? {id : StopId} (h : s.stopId? o = some id) (h' : s.stopId? o' = some id) :
    o = o' := by
  rw [← ordinal?_eq_some_iff] at h h'
  rw [h] at h'
  exact Option.some.inj h'

/-- Where the stops are the same, every one has a number in the other index. -/
theorem exists_sameStop (hperm : s.stops.Perm s'.stops) {id : StopId} (h : s.stopId? o = some id) :
    ∃ o', SameStop s s' o o' := by
  obtain ⟨stop, hstop, hid⟩ := exists_stopId?_iff.1 ⟨o, h⟩
  obtain ⟨o', ho'⟩ := exists_stopId?_iff.2 ⟨stop, hperm.mem_iff.1 hstop, hid⟩
  exact ⟨o', id, h, ho'⟩

/-- Where the stops are the same, the same stop belongs to the same station. -/
theorem SameStop.station?_eq (hperm : s.stops.Perm s'.stops) (h : SameStop s s' o o') :
    s'.station? o' = s.station? o := by
  obtain ⟨id, ho, ho'⟩ := h
  obtain ⟨stop, hstop, rfl⟩ := Option.map_eq_some_iff.1 ho
  obtain ⟨stop', hstop', hid⟩ := Option.map_eq_some_iff.1 ho'
  have hmem : stop' ∈ s.stops := hperm.mem_iff.2 (List.mem_of_getElem? hstop')
  have hsame : stop' = stop :=
    List.inj_on_of_nodup_map s.distinct hmem (List.mem_of_getElem? hstop) hid
  unfold station?
  rw [hstop, hstop', hsame]

/-- The same stop lies at the same places. -/
theorem SameStop.liesAt_iff (hperm : s.stops.Perm s'.stops) (h : SameStop s s' o o') {place : Place} :
    s'.LiesAt o' place ↔ s.LiesAt o place := by
  cases place with
  | stop id =>
    obtain ⟨id', ho, ho'⟩ := h
    unfold LiesAt
    rw [ho, ho']
  | station id =>
    unfold LiesAt
    rw [h.station?_eq hperm]

end StopIndex

/-! ## Plans -/

/-- What a pattern says, with the ids of its stops in place of their numbers. -/
structure Plan where
  id : PatternId
  route : RouteId
  stops : List (Option StopId)
  trips : List Trip

/-- The plan of a pattern. -/
def Pattern.plan (s : StopIndex) (p : Pattern) : Plan :=
  ⟨p.id, p.route, p.stops.map s.stopId?, p.trips⟩

namespace Timetable

variable {tt tt' : Timetable}

/-- The plan of the pattern at a place in the timetable. -/
def planAt? (tt : Timetable) (i : Nat) : Option Plan := tt.patterns[i]?.map (Pattern.plan tt.stops)

/-- Everything that a timetable speaks of can be looked up: the stops of its patterns are registered, and
no two patterns and no two trips share an id. -/
structure Sound (tt : Timetable) : Prop where
  registered : ∀ p ∈ tt.patterns, ∀ o ∈ p.stops, ∃ id, tt.stops.stopId? o = some id
  patterns_distinct : (tt.patterns.map (·.id)).Nodup
  trips_distinct : (Network.tripIds tt.patterns).Nodup

/-- Two timetables correspond: they list the same stops and the same plans. -/
structure Corresponds (tt tt' : Timetable) : Prop where
  stops : tt.stops.stops.Perm tt'.stops.stops
  plans : (tt.patterns.map (Pattern.plan tt.stops)).Perm (tt'.patterns.map (Pattern.plan tt'.stops))
  sound : tt.Sound
  sound' : tt'.Sound

/-- Correspondence is mutual. -/
theorem Corresponds.symm (h : tt.Corresponds tt') : tt'.Corresponds tt :=
  ⟨h.stops.symm, h.plans.symm, h.sound', h.sound⟩

/-- A trip of a sound timetable runs on any pattern that carries it, since no other one does. -/
theorem Sound.runsOn_iff (h : tt.Sound) {trip : TripId} {i : Nat} :
    tt.RunsOn trip i ↔ ∃ p, tt.patterns[i]? = some p ∧ p.Carries trip := by
  refine ⟨fun hruns => hruns.1, fun hcarries => ⟨hcarries, ?_⟩⟩
  obtain ⟨p, hp, t, ht, rfl⟩ := hcarries
  rintro j q hij hq ⟨u, hu, huid⟩
  obtain ⟨hi, hpi⟩ := List.getElem?_eq_some_iff.1 hp
  obtain ⟨hj, hqj⟩ := List.getElem?_eq_some_iff.1 hq
  have hdisjoint := (List.nodup_flatMap.1 h.trips_distinct).2
  have happart := List.pairwise_iff_getElem.1 hdisjoint i j hi hj hij
  rw [hpi, hqj] at happart
  exact happart (List.mem_map.2 ⟨t, ht, rfl⟩) (List.mem_map.2 ⟨u, hu, huid⟩)

/-- The plan at the place of a pattern. -/
theorem planAt?_of_pattern {i : Nat} {p : Pattern} (h : tt.patterns[i]? = some p) :
    tt.planAt? i = some (p.plan tt.stops) := by
  unfold planAt?
  rw [h]
  rfl

/-- At a place with the plan of a pattern stands a pattern with that plan. -/
theorem exists_pattern_of_planAt?_eq {i i' : Nat} (hi : tt'.planAt? i' = tt.planAt? i) {p : Pattern}
    (hp : tt.patterns[i]? = some p) :
    ∃ p', tt'.patterns[i']? = some p' ∧ p'.plan tt'.stops = p.plan tt.stops := by
  rw [planAt?_of_pattern hp] at hi
  exact Option.map_eq_some_iff.1 hi

namespace Corresponds

/-- Every pattern of the one timetable has its counterpart in the other. -/
theorem exists_counterpart (h : tt.Corresponds tt') {i : Nat} {p : Pattern}
    (hp : tt.patterns[i]? = some p) :
    ∃ i' p', tt'.planAt? i' = tt.planAt? i ∧ tt'.patterns[i']? = some p' ∧
      p'.plan tt'.stops = p.plan tt.stops := by
  have hmem : p.plan tt.stops ∈ tt'.patterns.map (Pattern.plan tt'.stops) :=
    h.plans.mem_iff.1 (List.mem_map_of_mem (List.mem_of_getElem? hp))
  obtain ⟨p', hp', hplan⟩ := List.mem_map.1 hmem
  obtain ⟨i', hi'⟩ := List.getElem?_of_mem hp'
  refine ⟨i', p', ?_, hi', hplan⟩
  rw [planAt?_of_pattern hi', planAt?_of_pattern hp, hplan]

/-- A stop of a pattern has a number in the other timetable. -/
theorem exists_sameStop (h : tt.Corresponds tt') {p : Pattern} (hp : p ∈ tt.patterns)
    {o : StopOrdinal} (ho : o ∈ p.stops) : ∃ o', tt.stops.SameStop tt'.stops o o' := by
  obtain ⟨id, hid⟩ := h.sound.registered p hp o ho
  exact StopIndex.exists_sameStop h.stops hid

/-- Where plans are the same, the same stops stand at every position. -/
theorem exists_stop_eq (h : tt.Corresponds tt') {p p' : Pattern} (hp : p ∈ tt.patterns)
    (hplan : p'.plan tt'.stops = p.plan tt.stops) {q : Position} {o : StopOrdinal}
    (ho : p.stops[q]? = some o) :
    ∃ o', p'.stops[q]? = some o' ∧ tt.stops.SameStop tt'.stops o o' := by
  obtain ⟨id, hid⟩ := h.sound.registered p hp o (List.mem_of_getElem? ho)
  have hstops : p'.stops.map tt'.stops.stopId? = p.stops.map tt.stops.stopId? :=
    congrArg Plan.stops hplan
  have hq : (p'.stops.map tt'.stops.stopId?)[q]? = some (some id) := by
    rw [hstops, List.getElem?_map, ho, Option.map_some, hid]
  rw [List.getElem?_map, Option.map_eq_some_iff] at hq
  obtain ⟨o', ho', hid'⟩ := hq
  exact ⟨o', ho', id, hid, hid'⟩

/-! ## Points -/

variable {i i' : Nat} {o o' : StopOrdinal} {q : Position} {point : Point}

/-- **Points cover the same positions**, up to the numbers of the stops. -/
theorem covers_of (h : tt.Corresponds tt') (hi : tt'.planAt? i' = tt.planAt? i)
    (ho : tt.stops.SameStop tt'.stops o o') (hcovers : tt.Covers point i q o) :
    tt'.Covers point i' q o' := by
  obtain ⟨p, hp, hstop, hpoint⟩ := hcovers
  obtain ⟨p', hp', hplan⟩ := exists_pattern_of_planAt?_eq hi hp
  have hroute : p'.route = p.route := congrArg Plan.route hplan
  have htrips : p'.trips = p.trips := congrArg Plan.trips hplan
  obtain ⟨x, hx, id, hid, hxid⟩ := h.exists_stop_eq (List.mem_of_getElem? hp) hplan hstop
  -- the stop that stands there in the other timetable is the one asked for
  have hxo : x = o' := by
    obtain ⟨id', hid', ho'⟩ := ho
    rw [hid] at hid'
    cases hid'
    exact StopIndex.eq_of_stopId? hxid ho'
  rw [hxo] at hx
  refine ⟨p', hp', hx, ?_⟩
  cases point with
  | anywhere place => exact (ho.liesAt_iff h.stops).2 hpoint
  | route id place => exact ⟨(ho.liesAt_iff h.stops).2 hpoint.1, hroute.trans hpoint.2⟩
  | trip id k =>
    obtain ⟨⟨⟨p₀, hp₀, hcarries⟩, -⟩, hq⟩ := hpoint
    rw [hp] at hp₀
    cases hp₀
    refine ⟨h.sound'.runsOn_iff.2 ⟨p', hp', ?_⟩, hq⟩
    unfold Pattern.Carries
    rw [htrips]
    exact hcarries

/-- A stop that a point covers has a number in the other timetable. -/
theorem exists_sameStop_of_covers (h : tt.Corresponds tt') (hcovers : tt.Covers point i q o) :
    ∃ o', tt.stops.SameStop tt'.stops o o' := by
  obtain ⟨p, hp, hstop⟩ := hcovers.exists_pattern
  exact h.exists_sameStop (List.mem_of_getElem? hp) (List.mem_of_getElem? hstop)

/-- A point that covers a stop at some position of the one timetable does so in the other. -/
theorem exists_covers_of (h : tt.Corresponds tt') (ho : tt.stops.SameStop tt'.stops o o')
    (hcovers : ∃ i q, tt.Covers point i q o) : ∃ i q, tt'.Covers point i q o' := by
  obtain ⟨i, q, hcovers⟩ := hcovers
  obtain ⟨p, hp, -⟩ := hcovers.exists_pattern
  obtain ⟨i', -, hi', -⟩ := h.exists_counterpart hp
  exact ⟨i', q, h.covers_of hi' ho hcovers⟩

/-- A point that covers nothing in one timetable covers nothing in the other. -/
theorem coversNothing_iff (h : tt.Corresponds tt') :
    tt'.CoversNothing point ↔ tt.CoversNothing point := by
  have hof : ∀ {tt tt' : Timetable}, tt.Corresponds tt' → tt'.CoversNothing point →
      tt.CoversNothing point := by
    intro tt tt' h hnothing i q stop hcovers
    obtain ⟨o', ho'⟩ := h.exists_sameStop_of_covers hcovers
    obtain ⟨i', q', hcovers'⟩ := h.exists_covers_of ho' ⟨i, q, hcovers⟩
    exact hnothing i' q' o' hcovers'
  exact ⟨hof h, hof h.symm⟩

/-! ## Records -/

variable {t : Transfer} {ts : List Transfer} {d : Direction} {k : Key}

/-- What a record claims in one timetable it claims in the other. -/
theorem claims_of (h : tt.Corresponds tt') (hi : tt'.planAt? i' = tt.planAt? i)
    (ho : tt.stops.SameStop tt'.stops k.stop o') (hc : tt.Claims t i d q k) :
    tt'.Claims t i' d q (k.moveTo o') := by
  obtain ⟨hsource, hsource_eq, ⟨stop, htarget⟩, htarget_eq⟩ := hc
  obtain ⟨stop', hstop'⟩ := h.exists_sameStop_of_covers htarget
  exact ⟨h.exists_covers_of ho hsource, hsource_eq, ⟨stop', h.covers_of hi hstop' htarget⟩, htarget_eq⟩

/-- **Records claim the same keys**, up to the numbers of the stops. -/
theorem claims_iff (h : tt.Corresponds tt') (hi : tt'.planAt? i' = tt.planAt? i)
    (ho : tt.stops.SameStop tt'.stops k.stop o') :
    tt'.Claims t i' d q (k.moveTo o') ↔ tt.Claims t i d q k :=
  ⟨h.symm.claims_of hi.symm ho.symm, h.claims_of hi ho⟩

/-- **The same record claims a key first.** -/
theorem firstClaims_iff (h : tt.Corresponds tt') (hi : tt'.planAt? i' = tt.planAt? i)
    (ho : tt.stops.SameStop tt'.stops k.stop o') :
    tt'.FirstClaims ts i' d q (k.moveTo o') t ↔ tt.FirstClaims ts i d q k t := by
  unfold FirstClaims
  simp only [h.claims_iff hi ho]

/-- **The slots of corresponding patterns hold the same entries**, up to the numbers of the stops. -/
theorem mem_slot_iff (h : tt.Corresponds tt') (hi : tt'.planAt? i' = tt.planAt? i) {e : Entry}
    (ho : tt.stops.SameStop tt'.stops e.key.stop o') :
    e.moveTo o' ∈ (tt'.ruleBook ts).slot i' d q ↔ e ∈ (tt.ruleBook ts).slot i d q := by
  have hentry : ∀ t : Transfer, e.moveTo o' = t.entry (e.key.moveTo o') ↔ e = t.entry e.key := by
    intro t
    obtain ⟨key, constraint, transfer⟩ := e
    simp [Entry.moveTo, Transfer.entry]
  rw [(wellFormed_slot_ruleBook tt' ts i' d q).mem_iff, (wellFormed_slot_ruleBook tt ts i d q).mem_iff,
    holder?_slot_ruleBook_eq_some_iff, holder?_slot_ruleBook_eq_some_iff]
  refine exists_congr fun t => and_congr (h.firstClaims_iff hi ho) (hentry t)

/-- An entry is about a stop that has a number in the other timetable. -/
theorem exists_sameStop_of_mem_slot (h : tt.Corresponds tt') {e : Entry}
    (he : e ∈ (tt.ruleBook ts).slot i d q) :
    ∃ o', tt.stops.SameStop tt'.stops e.key.stop o' := by
  rw [(wellFormed_slot_ruleBook tt ts i d q).mem_iff, holder?_slot_ruleBook_eq_some_iff] at he
  obtain ⟨t, ⟨-, -, -, ⟨⟨j, p, hcovers⟩, -⟩, -⟩, -⟩ := he
  exact h.exists_sameStop_of_covers hcovers

/-- Corresponding patterns have rules at the same positions. -/
theorem hasRules_eq (h : tt.Corresponds tt') (hi : tt'.planAt? i' = tt.planAt? i) :
    ((tt'.ruleBook ts).index i' d).hasRules q = ((tt.ruleBook ts).index i d).hasRules q := by
  have hof : ∀ {tt tt' : Timetable} {i i' : Nat}, tt.Corresponds tt' → tt'.planAt? i' = tt.planAt? i →
      (∃ e, e ∈ (tt.ruleBook ts).slot i d q) → ∃ e, e ∈ (tt'.ruleBook ts).slot i' d q := by
    rintro tt tt' i i' h hi ⟨e, he⟩
    obtain ⟨o', ho'⟩ := h.exists_sameStop_of_mem_slot he
    exact ⟨e.moveTo o', (h.mem_slot_iff hi ho').2 he⟩
  rw [Bool.eq_iff_iff, RuleIndex.hasRules_iff, RuleIndex.hasRules_iff]
  exact ⟨hof h.symm hi.symm, hof h hi⟩

/-! ## Issues -/

/-- What is reported for one timetable is reported for the other. -/
theorem mem_issues_of (h : tt.Corresponds tt') {x : Issue} (hx : x ∈ (tt.ruleBook ts).issues) :
    x ∈ (tt'.ruleBook ts).issues := by
  cases x with
  | unresolvable id side point =>
    obtain ⟨t, ht, hid, hpoint, hside⟩ := unresolvable_mem_issues_iff.1 hx
    refine unresolvable_mem_issues_iff.2 ⟨t, ht, hid, hpoint, ?_⟩
    cases side with
    | origin => exact h.coversNothing_iff.2 hside
    | destination =>
      exact ⟨fun hnothing => hside.1 (h.coversNothing_iff.1 hnothing), h.coversNothing_iff.2 hside.2⟩
  | conflict id kept pattern q d =>
    obtain ⟨t, ht, hid, i, p, k, u, hp, rfl, hc, hu, hkept, hne⟩ := conflict_mem_issues_iff_claims.1 hx
    obtain ⟨i', p', hi', hp', hplan⟩ := h.exists_counterpart hp
    obtain ⟨j, r, hcovers⟩ := hc.source_covers
    obtain ⟨o', ho'⟩ := h.exists_sameStop_of_covers hcovers
    exact conflict_mem_issues_iff_claims.2 ⟨t, ht, hid, i', p', k.moveTo o', u, hp',
      congrArg Plan.id hplan, (h.claims_iff hi' ho').2 hc, (h.firstClaims_iff hi' ho').2 hu, hkept, hne⟩

/-- **The same issues are reported**, in some order. -/
theorem issues_perm (h : tt.Corresponds tt') (ts : List Transfer) :
    (tt.ruleBook ts).issues.Perm (tt'.ruleBook ts).issues := by
  rw [List.perm_ext_iff_of_nodup (nodup_issues_ruleBook tt ts) (nodup_issues_ruleBook tt' ts)]
  exact fun x => ⟨h.mem_issues_of, h.symm.mem_issues_of⟩

end Corresponds

end Timetable

end Interchange
