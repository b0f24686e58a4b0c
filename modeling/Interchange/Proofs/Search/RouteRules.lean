import Interchange.Proofs.RuleBook.Contents
import Interchange.Proofs.Search.Decision

/-!
# Rules for a route

A slot of a pattern speaks about trips of that pattern: its targets are all trips, the trips of its route, or one
of its trips. All trips of a pattern run on its route, so a rule for the route is as good as one for all trips,
and it is the narrower of the two.

* `Timetable.fits_of_mem_slot` — the targets in the slots of a pattern fit it.
* `Search.Governs` — among the rules that count, one for the route has every trip that has no rule of its own.
  The rules for all trips are not looked at, and no trip is without a rule. `Search.governs_of_mem` — so it is
  with every rule for the route, where targets fit.
* `Timetable.fits_and_governs_ruleBook` — both, for a rule book.
-/

namespace Interchange

namespace Timetable

variable {tt : Timetable} {ts : List Transfer}

/-- **Targets fit their pattern**: an entry in a slot of a pattern has a target that is all trips, the route of
the pattern or one of its trips. -/
theorem fits_of_mem_slot {i : Nat} {pattern : Pattern} (hpattern : tt.patterns[i]? = some pattern)
    {d : Direction} {q : Position} {e : Entry} (he : e ∈ (tt.ruleBook ts).slot i d q) :
    e.key.target.Fits pattern := by
  have hheld := (wellFormed_slot_ruleBook tt ts i d q).mem_iff.1 he
  obtain ⟨t, ⟨front, rest, -, hclaims, -⟩, -⟩ := holder?_slot_ruleBook_eq_some_iff.1 hheld
  obtain ⟨stop, hcovers⟩ := hclaims.target_covers
  rw [hclaims.target_eq]
  exact fits_of_covers hcovers hpattern

end Timetable

/-- A matcher that names a trip and accepts one names that one. -/
theorem Matcher.eq_trip_of_accepts {m : Matcher} {t : Trip} (hm : m.specificity = .trip)
    (h : m.accepts t = true) : m = .trip t.id :=
  eq_of_accepts hm h (decide_eq_true rfl)

namespace Search

variable {d : Direction} {cfg : SearchConfig} {r : BoardingRequest} {s : Slot} {p : Position}

/-! ## Which rule prevails -/

/-- Where a rule for the route accepts a trip, that one prevails or a rule for the trip does. -/
theorem eq_or_trip_of_prevails (hs : s.WellFormed) {t : Trip} {e x : Entry} (he : Counts s r e)
    (hroute : e.key.target.specificity = .route) (haccepts : e.key.target.accepts t = true)
    (hx : Prevails s r t x) : x = e ∨ x.key.target = .trip t.id := by
  have hrank := hx.narrowest e he haccepts
  rw [hroute] at hrank
  cases hwidth : x.key.target.specificity with
  | location =>
    rw [hwidth] at hrank
    exact absurd hrank (by decide)
  | route => exact .inl (hx.counts.eq_of_accepts hs he hx.accepts haccepts (hwidth.trans hroute.symm))
  | trip => exact .inr (Matcher.eq_trip_of_accepts hwidth hx.accepts)

/-- Every trip that some rule in use accepts has a rule. -/
theorem exists_prevails (hs : s.WellFormed) {t : Trip} {e : Entry} (he : Counts s r e)
    (haccepts : e.key.target.accepts t = true) : ∃ x, Prevails s r t x := by
  have hsome : (rule? (applicable s r) t).isSome :=
    List.find?_isSome.2 ⟨e, (mem_applicable_iff hs).2 he, haccepts⟩
  obtain ⟨x, hx⟩ := Option.isSome_iff_exists.1 hsome
  exact ⟨x, (rule?_eq_some_iff hs).1 hx⟩

/-! ## What the scan reads -/

/-- What is found first in a row is found first among those elements of the row that pass a test, if it passes
the test. -/
theorem find?_filter_of_find? {α : Type} {f g : α → Bool} {l : List α} {a : α} (h : l.find? f = some a)
    (ha : g a = true) : (l.filter g).find? f = some a := by
  obtain ⟨hfa, front, rest, rfl, hfront⟩ := List.find?_eq_some_iff_append.1 h
  rw [List.find?_filter, List.find?_eq_some_iff_append]
  refine ⟨by simp [ha, hfa], front, rest, rfl, fun x hx => ?_⟩
  have hfx : f x = false := by simpa using hfront x hx
  simp [hfx]

/-- The scan hangs on the rules for the trips that it goes through. -/
theorem scan_congr {rules rules' : List Entry} {trips : List Trip}
    (h : ∀ t ∈ trips, rule? rules t = rule? rules' t) (passed : Passed) :
    scan d cfg r rules p trips passed = scan d cfg r rules' p trips passed := by
  induction trips generalizing passed with
  | nil => rfl
  | cons t trips ih =>
    have hrest := ih fun u hu => h u (List.mem_cons_of_mem t hu)
    simp only [scan, h t List.mem_cons_self, hrest]

/-- A boarding under a regular constraint is of a trip that has no rule or a regular one. -/
theorem regular_of_inSlot? (hs : s.WellFormed) {pattern : Pattern} {b : Boarding}
    (h : inSlot? d cfg pattern s p r = some b) (hregular : b.constraint = .regular) :
    ∃ t ∈ pattern.trips, b.trip = t.id ∧ b.tripIndex = t.index ∧
      ∀ x, Prevails s r t x → x.constraint = .regular := by
  cases (inSlot?_eq_iff hs).1 h with
  | @boards e stop front rest c he hstop hsurvey hfront hdecides hfew =>
    have hc : c ∈ front ++ c :: rest := by simp
    have htrip : c.trip ∈ (d.order pattern.trips).filter (inReach d r p) :=
      hsurvey.trips_eq ▸ List.mem_map_of_mem hc
    refine ⟨c.trip, Direction.mem_order_iff.1 (List.mem_filter.1 htrip).1, rfl, rfl, ?_⟩
    have hlabel := hsurvey.labelled c hc
    obtain ⟨trip, time, verdict⟩ := c
    -- a trip that decides has the constraint of its rule, or it is an ordinary one
    cases hlabel with
    | ordinary hordinary => exact hordinary
    | @facilitated x k hx hxc hk =>
      have hk' : k = .regular := hregular
      rw [hk'] at hk
      cases hk
    | blocked => cases hregular
    | timeMet => cases hregular
    | forbidden => rcases hdecides with hd | ⟨hd, -⟩ <;> cases hd
    | timeUnmet => rcases hdecides with hd | ⟨hd, -⟩ <;> cases hd
    | tooEarly => rcases hdecides with hd | ⟨hd, -⟩ <;> cases hd

/-! ## Rules for the route -/

/-- An entry governs a pattern: among the entries that a search of the pattern uses for a rider, it stands for
every trip that has no entry of its own. -/
structure Governs (d : Direction) (pattern : Pattern) (i : RuleIndex) (p : Position) (r : BoardingRequest)
    (e : Entry) : Prop where
  /-- It speaks about the route of the pattern. -/
  target_eq : e.key.target = .route pattern.route
  /-- It is the rule for every trip without an entry of its own. -/
  rule_eq : ∀ t ∈ pattern.trips, (∀ x ∈ applicable (i.slot p) r, x.key.target ≠ .trip t.id) →
    rule? (applicable (i.slot p) r) t = some e
  /-- Every trip has a rule: that one, or one for the trip itself, and never one for all trips. -/
  exists_rule : ∀ t ∈ pattern.trips, ∃ x ∈ applicable (i.slot p) r,
    rule? (applicable (i.slot p) r) t = some x ∧ (x = e ∨ x.key.target = .trip t.id)
  /-- The scan goes the same way without the entries for all trips. -/
  scan_eq : ∀ cfg passed,
    scan d cfg r ((applicable (i.slot p) r).filter fun x => x.key.target ≠ .any) p
        (d.order pattern.trips) passed =
      scan d cfg r (applicable (i.slot p) r) p (d.order pattern.trips) passed
  /-- Where it forbids, a regular boarding is of a trip with a regular entry of its own. -/
  fallback : e.constraint = .notAllowed → ∀ cfg b, boarding? d cfg pattern i p r = some b →
    b.constraint = .regular → ∃ t ∈ pattern.trips, b.trip = t.id ∧ b.tripIndex = t.index ∧
      ∃ x ∈ applicable (i.slot p) r, x.key.target = .trip t.id ∧ x.constraint = .regular ∧
        rule? (applicable (i.slot p) r) t = some x

/-- **A rule for the route governs the pattern**, where the targets in the slot fit the pattern. -/
theorem governs_of_mem {i : RuleIndex} {pattern : Pattern} (hs : (i.slot p).WellFormed)
    (hfits : ∀ e ∈ i.slot p, e.key.target.Fits pattern) {e : Entry} (he : e ∈ applicable (i.slot p) r)
    (hroute : e.key.target.specificity = .route) : Governs d pattern i p r e := by
  have hcounts : Counts (i.slot p) r e := (mem_applicable_iff hs).1 he
  have hfit : e.key.target.Fits pattern := hfits e hcounts.applies.mem
  have haccepts : ∀ t ∈ pattern.trips, e.key.target.accepts t = true := fun t ht =>
    hfit.accepts (by simp [hroute]) ht
  have hexists : ∀ t ∈ pattern.trips, ∃ x ∈ applicable (i.slot p) r,
      rule? (applicable (i.slot p) r) t = some x ∧ (x = e ∨ x.key.target = .trip t.id) := by
    intro t ht
    obtain ⟨x, hx⟩ := exists_prevails hs hcounts (haccepts t ht)
    exact ⟨x, (mem_applicable_iff hs).2 hx.counts, (rule?_eq_some_iff hs).2 hx,
      eq_or_trip_of_prevails hs hcounts hroute (haccepts t ht) hx⟩
  have htarget : e.key.target = .route pattern.route := by
    cases hm : e.key.target with
    | any => rw [hm] at hroute; cases hroute
    | trip id => rw [hm] at hroute; cases hroute
    | route id =>
      rw [hm] at hfit
      cases hfit
      rfl
  refine ⟨htarget, fun t ht hnone => ?_, hexists, fun cfg passed => ?_, fun hforbids cfg b hb hregular => ?_⟩
  · obtain ⟨x, hx, hrule, rfl | htrip⟩ := hexists t ht
    · exact hrule
    · exact absurd htrip (hnone x hx)
  · refine scan_congr (fun t ht => ?_) passed
    obtain ⟨x, -, hrule, hx⟩ := hexists t (Direction.mem_order_iff.1 ht)
    have hany : x.key.target ≠ .any := by
      rcases hx with rfl | hx
      · simp [htarget]
      · simp [hx]
    rw [hrule]
    exact find?_filter_of_find? hrule (decide_eq_true hany)
  · obtain ⟨t, ht, htrip, hindex, hall⟩ := regular_of_inSlot? hs hb hregular
    obtain ⟨x, hx, hrule, hwhich⟩ := hexists t ht
    have hxregular := hall x ((rule?_eq_some_iff hs).1 hrule)
    refine ⟨t, ht, htrip, hindex, x, hx, ?_, hxregular, hrule⟩
    -- the rule for the route forbids, so the regular one is another
    rcases hwhich with rfl | hwhich
    · rw [hforbids] at hxregular
      cases hxregular
    · exact hwhich

end Search

namespace Timetable

variable {tt : Timetable}

/-- **Stored targets fit their own pattern, and a rule for the route governs it.** An entry in a slot of a pattern
speaks about all trips, about those of the route of the pattern or about one of its trips, and about every trip of
the pattern if it does not name one. So a search of the pattern with a rule for the route among those that count
finds a rule for each trip, which is that one or one for the trip, and uses none for all trips. -/
theorem fits_and_governs_ruleBook {i : Nat} {pattern : Pattern} (hpattern : tt.patterns[i]? = some pattern)
    (ts : List Transfer) (d : Direction) (q : Position) :
    (∀ e ∈ (tt.ruleBook ts).slot i d q, e.key.target.Fits pattern ∧
      (e.key.target.specificity ≠ .trip → ∀ t ∈ pattern.trips, e.acceptsTarget t = true)) ∧
    ∀ r, ∀ e ∈ Search.applicable ((tt.ruleBook ts).slot i d q) r, e.key.target.specificity = .route →
      Search.Governs d pattern ((tt.ruleBook ts).index i d) q r e := by
  have hfits : ∀ e ∈ (tt.ruleBook ts).slot i d q, e.key.target.Fits pattern := fun e he =>
    fits_of_mem_slot hpattern he
  refine ⟨fun e he => ⟨hfits e he, fun hplace t ht => (hfits e he).accepts hplace ht⟩, ?_⟩
  intro r e he hroute
  exact Search.governs_of_mem (wellFormed_slot_ruleBook tt ts i d q) hfits he hroute

/-- Records for the changes in the middle of the crossing: none to trips of the route, but a regular one to one of
them; and a guaranteed one to all trips. -/
def recordsOfRoute (id : TripId) : List Transfer :=
  [⟨ruleX, .anywhere (.stop stopB), .route routeR (.stop stopB), .notAllowed⟩,
    ⟨ruleSlow, .anywhere (.stop stopB), .trip id 0, .regular⟩,
    change ruleHeld stopB stopB .guaranteed]

/-- A rider who arrives there with a trip at 520 seconds. -/
def riderInTheMiddle (t : Trip) : BoardingRequest := ⟨t, ⟨1⟩, .ofInt 520, .ofInt 520⟩

/-- At the crossing the first trip is forbidden by the rule for the route, although the one for all trips guarantees
it, and the rider gets the last trip, which has a regular rule of its own. -/
theorem fits_and_governs_ruleBook_crossing :
    crossing.patterns[1]? = some crossing.patterns[1] ∧
    (∀ e ∈ (crossing.ruleBook (recordsOfRoute ⟨"d", by decide⟩)).slot 1 .forward 0,
      e.key.target.Fits crossing.patterns[1]) ∧
    Search.Governs .forward crossing.patterns[1]
      ((crossing.ruleBook (recordsOfRoute ⟨"d", by decide⟩)).index 1 .forward) 0
      (riderInTheMiddle crossing.patterns[0].trips[0]) ⟨⟨⟨1⟩, .any, .route routeR⟩, .notAllowed, ruleX⟩ ∧
    Search.boarding? .forward .default crossing.patterns[1]
        ((crossing.ruleBook (recordsOfRoute ⟨"d", by decide⟩)).index 1 .forward) 0
        (riderInTheMiddle crossing.patterns[0].trips[0]) =
      some ⟨1, ⟨"d", by decide⟩, 0, ⟨1⟩, .ofInt 840, .ofInt 520, .regular⟩ := by
  have hpattern : crossing.patterns[1]? = some crossing.patterns[1] := rfl
  obtain ⟨hfits, hgoverns⟩ := fits_and_governs_ruleBook hpattern (recordsOfRoute ⟨"d", by decide⟩) .forward 0
  refine ⟨hpattern, fun e he => (hfits e he).1, ?_, by decide⟩
  exact hgoverns (riderInTheMiddle crossing.patterns[0].trips[0]) _ (by decide) rfl

end Timetable

end Interchange
