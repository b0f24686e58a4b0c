import Interchange.Proofs.Search.Postponement

/-!
# When the scan gives up

The scan gives up after a number of ordinary trips, because the ordinary search has found one of those. But
it does not only pass ordinary trips on its way: some come too early, which the ordinary search passes as
well, and some do not meet a minimum time, of which the ordinary search knows nothing.

* `Search.GivesUp` — a search ends because it passed enough ordinary trips. `scan_gaveUp_iff` — where it
  does so, in terms of the candidates.
* `Search.OrdinaryChoice` — the trip that the ordinary search takes. `exists_ordinaryChoice_of_givesUp` —
  where a search gives up there is one, whose rule is regular or asks for a minimum time that is not met.
* `Search.LeavesSafely` — a search that gives up leaves the rider to a regular trip. `leavesSafely_iff` — so
  it does unless the ordinary choice fails a minimum time, which happens (`not_leavesSafely_frequent`).
-/

namespace Interchange

namespace Search

variable {d : Direction} {cfg : SearchConfig} {r : BoardingRequest} {rules : List Entry} {p : Position}
  {pattern : Pattern} {i : RuleIndex}

/-! ## Where a scan gives up -/

/-- **Where a scan gives up** behind a patient row in which none decides: at the candidate behind which the
row is no longer patient, when that one does not decide and none in front of it does. -/
theorem scan_gaveUp_iff {trips : List Trip} (htimes : ∀ t ∈ trips, ∃ time, d.eventTime? t p = some time)
    {front : List Candidate} (hund : Undecided front) (hpat : Patient cfg front) :
    (∃ n, (scan d cfg r rules p trips (.along front)).2 = .gaveUp n) ↔
      ∃ mid c rest, survey d cfg r rules p trips = mid ++ c :: rest ∧ Undecided (front ++ mid) ∧
        ¬ Decides (front ++ mid) c ∧ Patient cfg (front ++ mid) ∧ ¬ Patient cfg (front ++ mid ++ [c]) := by
  induction trips generalizing front with
  | nil =>
    constructor
    · rintro ⟨n, h⟩
      cases h
    · rintro ⟨mid, c, rest, h, -⟩
      cases mid <;> cases h
  | cons t trips ih =>
    obtain ⟨time, htime⟩ := htimes t List.mem_cons_self
    have hrest : ∀ t ∈ trips, ∃ time, d.eventTime? t p = some time := fun t ht =>
      htimes t (List.mem_cons_of_mem _ ht)
    unfold survey
    rcases hx : candidate? d cfg r rules p t with _ | x
    · rw [scan_cons_of_out_of_reach htime hx, List.filterMap_cons_none hx]
      exact ih hrest hund hpat
    rw [scan_cons_of_candidate hx trips hpat, List.filterMap_cons_some hx]
    constructor
    · intro h
      by_cases hdec : Decides front x
      · rw [if_pos hdec] at h
        obtain ⟨n, h⟩ := h
        cases h
      rw [if_neg hdec] at h
      by_cases hpat' : Patient cfg (front ++ [x])
      · rw [if_pos hpat', ih hrest (hund.concat hdec) hpat'] at h
        obtain ⟨mid, c, rest, hsplit, hmid⟩ := h
        rw [List.append_assoc front] at hmid
        unfold survey at hsplit
        exact ⟨x :: mid, c, rest, congrArg (x :: ·) hsplit, hmid⟩
      · refine ⟨[], x, _, rfl, ?_⟩
        rw [List.append_nil]
        exact ⟨hund, hdec, hpat, hpat'⟩
    · rintro ⟨mid, c, rest, hsplit, hund', hdec, hpat', himpatient⟩
      cases mid with
      | nil =>
        rw [List.append_nil] at hdec himpatient
        cases hsplit
        rw [if_neg hdec, if_neg himpatient]
        exact ⟨_, rfl⟩
      | cons y mid =>
        obtain ⟨rfl, htail⟩ := List.cons_eq_cons.1 hsplit
        have hx' : ¬ Decides front x := hund' front x mid rfl
        rw [← List.singleton_append, ← List.append_assoc] at hund' hdec hpat' himpatient
        rw [if_neg hx', if_pos hpat'.of_append, ih hrest (hund.concat hx') hpat'.of_append]
        exact ⟨mid, c, rest, htail, hund', hdec, hpat', himpatient⟩

/-- A search gives up: it goes through the trips and stops because enough ordinary ones were passed. -/
def GivesUp (d : Direction) (cfg : SearchConfig) (pattern : Pattern) (i : RuleIndex) (p : Position)
    (r : BoardingRequest) : Prop :=
  ∃ n, (run d cfg pattern (i.slot p) p r).map (·.outcome) = some (.gaveUp n)

/-- A search that gives up leads to no boarding. -/
theorem GivesUp.boarding?_eq_none (h : GivesUp d cfg pattern i p r) :
    boarding? d cfg pattern i p r = none := by
  obtain ⟨n, h⟩ := h
  obtain ⟨report, hreport, houtcome⟩ := Option.map_eq_some_iff.1 h
  unfold boarding? inSlot?
  rw [hreport, Option.bind_some, houtcome]
  rfl

/-- The candidates of a search that gives up: a patient row in which none decides, and then an ordinary one
that exhausts the patience. -/
theorem GivesUp.exists_split (h : GivesUp d cfg pattern i p r) :
    ∃ mid c rest,
      survey d cfg r (applicable (i.slot p) r) p (d.order pattern.trips) = mid ++ c :: rest ∧
        Undecided (mid ++ [c]) ∧ c.verdict = .ordinary := by
  obtain ⟨n, h⟩ := h
  obtain ⟨report, hreport, houtcome⟩ := Option.map_eq_some_iff.1 h
  unfold run at hreport
  rcases hrules : applicable (i.slot p) r with _ | ⟨e, rules⟩
  · rw [hrules] at hreport
    cases hreport
  rcases hstop : pattern.stops[p]? with _ | stop
  · rw [hrules, hstop] at hreport
    cases hreport
  rw [hrules, hstop] at hreport
  cases hreport
  obtain ⟨mid, c, rest, hsplit, hund, hdec, hpat, himpatient⟩ :=
    (scan_gaveUp_iff (Pattern.exists_eventTime? hstop) undecided_nil patient_nil).1 ⟨n, houtcome⟩
  rw [List.nil_append] at hund hdec hpat himpatient
  refine ⟨mid, c, rest, hsplit, hund.concat hdec, ?_⟩
  -- only an ordinary candidate makes a patient row impatient
  by_cases hordinary : c.verdict = .ordinary
  · exact hordinary
  · exact absurd (hpat.concat hordinary) himpatient

/-! ## What the ordinary search takes -/

/-- The trip that the ordinary search takes for a request: the first, in search order, whose event at the
position is before neither the source time nor the earliest ordinary time. -/
def OrdinaryChoice (d : Direction) (pattern : Pattern) (p : Position) (r : BoardingRequest) (t : Trip)
    (time : Time) : Prop :=
  FirstInReach d pattern p (d.laterOf r.sourceTime r.earliest) t time

/-- The rule for a trip, if it has one, is regular. -/
def Regular (rules : List Entry) (t : Trip) : Prop :=
  ∀ e, rule? rules t = some e → e.constraint = .regular

/-- The rule for a trip asks for a minimum transfer time that a time does not meet. -/
def FailsMinTime (d : Direction) (cfg : SearchConfig) (r : BoardingRequest) (rules : List Entry) (t : Trip)
    (time : Time) : Prop :=
  ∃ e seconds, rule? rules t = some e ∧ e.constraint = .minTransferTime seconds ∧
    ¬ Meets d cfg r seconds time

/-- A trip with a regular rule fails no minimum time. -/
theorem Regular.not_failsMinTime {t : Trip} (h : Regular rules t) (time : Time) :
    ¬ FailsMinTime d cfg r rules t time := by
  rintro ⟨e, seconds, hrule, hc, -⟩
  rw [h e hrule] at hc
  cases hc

/-- A trip that neither settles the matter nor is forbidden is regular or fails a minimum time. -/
theorem regular_or_failsMinTime {t : Trip} {time : Time}
    (hsettles : (judge d cfg r (rule? rules t) time).settles = false)
    (hforbidden : judge d cfg r (rule? rules t) time ≠ .forbidden) :
    Regular rules t ∨ FailsMinTime d cfg r rules t time := by
  rcases hrule : rule? rules t with _ | e
  · refine .inl fun e he => ?_
    rw [hrule] at he
    cases he
  rw [hrule] at hsettles hforbidden
  unfold judge at hsettles hforbidden
  rcases hc : e.constraint with _ | _ | _ | _ | seconds
  all_goals simp only [hc] at hsettles hforbidden
  case regular =>
    refine .inl fun x hx => ?_
    rw [hrule] at hx
    cases hx
    exact hc
  case guaranteed => cases hsettles
  case staySeated => cases hsettles
  case notAllowed =>
    by_cases htarget : e.key.target = .any
    · rw [if_pos htarget] at hsettles
      cases hsettles
    · rw [if_neg htarget] at hforbidden
      exact absurd rfl hforbidden
  case minTransferTime =>
    refine .inr ⟨e, seconds, hrule, hc, fun hmeets => ?_⟩
    rw [isBefore_required_iff.2 hmeets] at hsettles
    cases hsettles

/-- An ordinary trip is not too early for an ordinary transfer. -/
theorem isBefore_earliest_of_ordinary {rule : Option Entry} {time : Time}
    (h : judge d cfg r rule time = .ordinary) : d.isBefore time r.earliest = false := by
  have hordinary : judgeOrdinary d r time = .ordinary → d.isBefore time r.earliest = false := by
    unfold judgeOrdinary
    intro h
    split at h
    · cases h
    · rename_i hbefore
      exact (Bool.not_eq_true _).mp hbefore
  cases rule with
  | none => exact hordinary h
  | some e =>
    unfold judge at h
    rcases hc : e.constraint with _ | _ | _ | _ | seconds
    all_goals simp only [hc] at h
    case regular => exact hordinary h
    case guaranteed => cases h
    case staySeated => cases h
    case notAllowed => split at h <;> cases h
    case minTransferTime => split at h <;> cases h

/-- Where a candidate is ordinary the ordinary search has a trip, and that one stands no later. -/
theorem exists_ordinaryChoice_of_split {mid rest : List Candidate} {c : Candidate}
    (hsplit : survey d cfg r rules p (d.order pattern.trips) = mid ++ c :: rest)
    (hc : c.verdict = .ordinary) : ∃ x ∈ mid ++ [c], OrdinaryChoice d pattern p r x.trip x.time := by
  have hmem : ∀ x, x ∈ mid ++ c :: rest ↔ x ∈ survey d cfg r rules p (d.order pattern.trips) := by
    intro x
    rw [hsplit]
  have hclate : d.isBefore c.time r.earliest = false := by
    obtain ⟨-, -, -, hverdict⟩ := mem_survey_iff.1 ((hmem c).1 (by simp))
    exact isBefore_earliest_of_ordinary (hverdict.symm.trans hc)
  -- it is the first of the row that is not too early
  obtain ⟨x, hx⟩ : ∃ x, (mid ++ [c]).find? (fun x => !d.isBefore x.time r.earliest) = some x := by
    rw [← Option.isSome_iff_exists, List.find?_isSome]
    exact ⟨c, by simp, by simpa using hclate⟩
  obtain ⟨hxlate, before, after, hrow, hbefore⟩ := List.find?_eq_some_iff_append.1 hx
  refine ⟨x, List.mem_of_find?_eq_some hx, ?_⟩
  rw [List.append_cons, hrow, List.append_assoc, List.cons_append] at hsplit hmem
  obtain ⟨ht, htime, hreach, -⟩ := mem_survey_iff.1 ((hmem x).1 (by simp))
  refine ⟨Direction.mem_order_iff.1 ht, htime, ?_, ?_⟩
  · rw [Direction.isBefore_laterOf, hreach]
    simpa using hxlate
  · intro u hu y hy hlate
    rw [Direction.isBefore_laterOf, Bool.or_eq_false_iff] at hlate
    have hin := (hmem ⟨u, y, judge d cfg r (rule? rules u) y⟩).2
      (mem_survey_iff.2 ⟨Direction.mem_order_iff.2 hu, hy, hlate.1, rfl⟩)
    rcases List.mem_append.1 hin with hin | hin
    · have hearly := hbefore _ hin
      simp [hlate.2] at hearly
    rcases List.mem_cons.1 hin with heq | hin
    · rw [← heq]
      exact .refl
    · have horder := pairwise_survey_noLater d cfg r rules p pattern
      rw [hsplit] at horder
      exact (List.pairwise_cons.1 (List.pairwise_append.1 horder).2.1).1 _ hin

/-- Of a row in which none decides and which ends with an ordinary candidate none settles the matter and none
is forbidden. -/
theorem Undecided.passed_of_ordinary {mid : List Candidate} {c : Candidate} (h : Undecided (mid ++ [c]))
    (hc : c.verdict = .ordinary) {x : Candidate} (hx : x ∈ mid ++ [c]) :
    x.verdict.settles = false ∧ x.verdict ≠ .forbidden := by
  refine ⟨?_, ?_⟩
  · obtain ⟨front, rest, hrow⟩ := List.append_of_mem hx
    have hnot := h front x rest hrow
    exact (Bool.not_eq_true _).mp fun hsettles => hnot (.inl hsettles)
  · intro hforbidden
    rcases List.mem_append.1 hx with hx | hx
    · exact h mid c [] rfl (.inr ⟨hc, x, hx, hforbidden⟩)
    · rw [List.mem_singleton.1 hx, hc] at hforbidden
      cases hforbidden

/-- **Where a search gives up the ordinary search has a trip**, and it is one that was passed: a regular
trip, or one that fails a minimum time. It is none that is forbidden, and none that the rules lead to. -/
theorem exists_ordinaryChoice_of_givesUp (h : GivesUp d cfg pattern i p r) :
    ∃ t time, OrdinaryChoice d pattern p r t time ∧
      (Regular (applicable (i.slot p) r) t ∨
        FailsMinTime d cfg r (applicable (i.slot p) r) t time) := by
  obtain ⟨mid, c, rest, hsplit, hund, hordinary⟩ := h.exists_split
  obtain ⟨x, hx, hchoice⟩ := exists_ordinaryChoice_of_split hsplit hordinary
  refine ⟨x.trip, x.time, hchoice, ?_⟩
  have hmem : x ∈ survey d cfg r (applicable (i.slot p) r) p (d.order pattern.trips) := by
    rw [hsplit, List.append_cons]
    exact List.mem_append_left rest hx
  obtain ⟨-, -, -, hverdict⟩ := mem_survey_iff.1 hmem
  obtain ⟨hsettles, hforbidden⟩ := hund.passed_of_ordinary hordinary hx
  rw [hverdict] at hsettles hforbidden
  exact regular_or_failsMinTime hsettles hforbidden

/-! ## Whether giving up is safe -/

/-- Giving up is safe for the rider: the ordinary search has a trip then, and its rule, if it has one, is
regular. -/
def LeavesSafely (d : Direction) (cfg : SearchConfig) (pattern : Pattern) (i : RuleIndex) (p : Position)
    (r : BoardingRequest) : Prop :=
  GivesUp d cfg pattern i p r → ∃ t time, OrdinaryChoice d pattern p r t time ∧
    Regular (applicable (i.slot p) r) t

/-- **When giving up is safe**: unless the trip that the ordinary search takes fails a minimum time. -/
theorem leavesSafely_iff (d : Direction) (cfg : SearchConfig) (pattern : Pattern) (i : RuleIndex)
    (p : Position) (r : BoardingRequest) :
    LeavesSafely d cfg pattern i p r ↔ ¬ (GivesUp d cfg pattern i p r ∧
      ∃ t time, OrdinaryChoice d pattern p r t time ∧
        FailsMinTime d cfg r (applicable (i.slot p) r) t time) := by
  constructor
  · intro hsafe
    rintro ⟨hgives, t, time, hchoice, hfails⟩
    obtain ⟨u, x, hchoice', hregular⟩ := hsafe hgives
    obtain ⟨rfl, -⟩ := FirstInReach.eq hchoice hchoice'
    exact hregular.not_failsMinTime time hfails
  · intro h hgives
    obtain ⟨t, time, hchoice, hregular | hfails⟩ := exists_ordinaryChoice_of_givesUp hgives
    · exact ⟨t, time, hchoice, hregular⟩
    · exact absurd ⟨hgives, t, time, hchoice, hfails⟩ h

/-- Giving up is safe where no minimum time that counts leads further than the earliest ordinary time. -/
theorem leavesSafely_of_minTimes
    (h : ∀ e ∈ applicable (i.slot p) r, ∀ seconds, e.constraint = .minTransferTime seconds →
      d.isBefore r.earliest (d.ahead r.sourceTime (min (seconds.toNat : Int) Time.greatest)) = false) :
    LeavesSafely d cfg pattern i p r := by
  intro hgives
  obtain ⟨t, time, hchoice, hregular | ⟨e, seconds, hrule, hc, hfails⟩⟩ :=
    exists_ordinaryChoice_of_givesUp hgives
  · exact ⟨t, time, hchoice, hregular⟩
  · -- what is late enough for an ordinary transfer meets such a minimum time
    have hlate := hchoice.inReach
    rw [Direction.isBefore_laterOf, Bool.or_eq_false_iff] at hlate
    have hexact := h e (List.mem_of_find?_eq_some hrule) seconds hc
    exact absurd ⟨Direction.not_isBefore_trans hlate.2 hexact, fun _ => hlate.2⟩ hfails

/-! ## A minimum time that is lost -/

/-- Two patterns that meet at a stop: one has a trip that arrives there at 600 seconds, and six trips of the
other leave from there, every five minutes from 900 seconds on. -/
def frequent : Timetable where
  stops := Timetable.line.stops
  patterns :=
    [Timetable.crossingPattern Timetable.patternP ⟨0⟩ ⟨1⟩
        [Timetable.crossingTrip Timetable.tripA 0 ⟨.ofInt 0, .ofInt 0⟩ ⟨.ofInt 600, .ofInt 600⟩
          (by decide)]
        (by decide) rfl (Pattern.pairwise_of_firstOvertaking (n := 2) (by decide) (by decide)),
      Timetable.crossingPattern Timetable.patternQ ⟨1⟩ ⟨2⟩
        [Timetable.crossingTrip ⟨"q0", by decide⟩ 0 ⟨.ofInt 900, .ofInt 900⟩ ⟨.ofInt 1500, .ofInt 1500⟩
          (by decide),
         Timetable.crossingTrip ⟨"q1", by decide⟩ 1 ⟨.ofInt 1200, .ofInt 1200⟩ ⟨.ofInt 1800, .ofInt 1800⟩
          (by decide),
         Timetable.crossingTrip ⟨"q2", by decide⟩ 2 ⟨.ofInt 1500, .ofInt 1500⟩ ⟨.ofInt 2100, .ofInt 2100⟩
          (by decide),
         Timetable.crossingTrip ⟨"q3", by decide⟩ 3 ⟨.ofInt 1800, .ofInt 1800⟩ ⟨.ofInt 2400, .ofInt 2400⟩
          (by decide),
         Timetable.crossingTrip ⟨"q4", by decide⟩ 4 ⟨.ofInt 2100, .ofInt 2100⟩ ⟨.ofInt 2700, .ofInt 2700⟩
          (by decide),
         Timetable.crossingTrip ⟨"q5", by decide⟩ 5 ⟨.ofInt 2400, .ofInt 2400⟩ ⟨.ofInt 3000, .ofInt 3000⟩
          (by decide)]
        (by decide) rfl (Pattern.pairwise_of_firstOvertaking (n := 2) (by decide) (by decide))]

/-- A record that asks for ten minutes to change to the first of the six trips. -/
def slowChange : Transfer where
  id := Timetable.ruleSlow
  origin := .anywhere (.stop Timetable.stopB)
  destination := .trip ⟨"q0", by decide⟩ 0
  constraint := .minTransferTime 600

/-- The rider of the one trip, who needs two minutes for an ordinary transfer. -/
def arrivingRider : BoardingRequest where
  sourceTrip := frequent.patterns[0].trips[0]
  sourceStop := ⟨1⟩
  sourceTime := .ofInt 600
  earliest := .ofInt 720

/-- A search that gives up can leave the rider to a trip that fails its minimum time: the first of the six
trips leaves five minutes after the arrival where ten are asked for, and the scan gives up at the last. -/
theorem not_leavesSafely_frequent :
    ¬ LeavesSafely .forward .default frequent.patterns[1]
      ((frequent.ruleBook [slowChange]).index 1 .forward) 0 arrivingRider := by
  intro hsafe
  obtain ⟨t, time, hchoice, hregular⟩ := hsafe ⟨5, by decide⟩
  have hfirst : OrdinaryChoice .forward frequent.patterns[1] 0 arrivingRider
      frequent.patterns[1].trips[0] (.ofInt 900) :=
    ⟨by decide, by decide, by decide, fun u _ _ _ _ => Nat.zero_le u.index⟩
  obtain ⟨rfl, -⟩ := FirstInReach.eq hchoice hfirst
  exact absurd (hregular ⟨⟨⟨1⟩, .any, .trip ⟨"q0", by decide⟩⟩, .minTransferTime 600, slowChange.id⟩
    (by decide)) (by decide)

end Search

end Interchange
