import Interchange.Proofs.RuleBook.Contents
import Interchange.Proofs.Search.FirstInReach
import Interchange.Proofs.Search.RoundTrip

/-!
# Requests that are made later

A rider who arrives later, or who needs longer for an ordinary transfer, is in reach of fewer trips and
meets fewer minimum times. Whatever decides for such a rider would have decided before, at the same trip or
at one in front of it.

* `BoardingRequest.Postpones` — a request of the same rider with no earlier times.
* `Search.Verdict.Supports` — a verdict does for the scan what another does. `judge_supports` — the verdict
  on a trip supports the one that is passed when the request is postponed.
* `Search.exists_pick_of_decides`, `Search.eq_or_mem_of_pick` — the chosen candidate does not stand behind
  one that decides.
* `Search.boarding?_postponed` — a postponed request does not lead to an earlier time, and where the scan
  cannot give up it leads to a boarding only if the request does.
-/

namespace Interchange

/-! ## Times -/

/-- From a time that is not before another a number of seconds leads to one that is not before either. -/
theorem Direction.isBefore_ahead {d : Direction} {a b : Time} (h : d.isBefore b a = false) (n : Int) :
    d.isBefore (d.ahead b n) (d.ahead a n) = false := by
  have hclamp : ∀ {x y : Int}, x ≤ y → Time.clamp x ≤ Time.clamp y := by
    intro x y hxy
    simp only [Time.clamp, Time.least, Time.greatest]
    omega
  cases d with
  | forward =>
    have hab : a.secs ≤ b.secs := by simpa [isBefore, Time.lt_def] using h
    have hle := hclamp (x := a.secs + n) (y := b.secs + n) (by omega)
    simpa [isBefore, ahead, Time.later, Time.ofInt, Time.lt_def] using hle
  | reverse =>
    have hab : b.secs ≤ a.secs := by simpa [isBefore, Time.lt_def] using h
    have hle := hclamp (x := b.secs - n) (y := a.secs - n) (by omega)
    simpa [isBefore, ahead, Time.earlier, Time.ofInt, Time.lt_def] using hle

/-- A request is one of the same rider whose times are, in search order, not before those of another. -/
structure BoardingRequest.Postpones (d : Direction) (r r' : BoardingRequest) : Prop where
  trip_eq : r'.sourceTrip = r.sourceTrip
  stop_eq : r'.sourceStop = r.sourceStop
  source : d.isBefore r'.sourceTime r.sourceTime = false
  earliest : d.isBefore r'.earliest r.earliest = false

namespace Search

variable {d : Direction} {cfg : SearchConfig} {r r' : BoardingRequest} {s : Slot} {p : Position}
  {pattern : Pattern}

/-! ## Verdicts -/

/-- One verdict does for the scan what another does: it settles the matter, is ordinary or forbids the trip
where the other one does. -/
structure Verdict.Supports (v w : Verdict) : Prop where
  settles : w.settles = true → v.settles = true
  ordinary : w = .ordinary → v = .ordinary
  forbidden : w = .forbidden → v = .forbidden

/-- A verdict does what it does. -/
theorem Verdict.Supports.refl (v : Verdict) : v.Supports v := ⟨id, id, id⟩

/-- A verdict on a trip that is only passed asks for no support. -/
theorem Verdict.Supports.of_passed {v w : Verdict} (h : w = .timeUnmet ∨ w = .tooEarly) :
    v.Supports w := by
  rcases h with rfl | rfl
  · exact ⟨nofun, nofun, nofun⟩
  · exact ⟨nofun, nofun, nofun⟩

/-- Minimum times that a postponed request meets are met by the request. -/
theorem Meets.of_postpones (h : r.Postpones d r') {seconds : UInt32} {time : Time}
    (hmeets : Meets d cfg r' seconds time) : Meets d cfg r seconds time := by
  obtain ⟨hexact, hearliest⟩ := hmeets
  refine ⟨Direction.not_isBefore_trans hexact (Direction.isBefore_ahead h.source _), fun hcfg => ?_⟩
  exact Direction.not_isBefore_trans (hearliest hcfg) h.earliest

/-- **The verdict on a trip supports the one for a postponed request.** -/
theorem judge_supports (h : r.Postpones d r') (rule : Option Entry) (time : Time) :
    (judge d cfg r rule time).Supports (judge d cfg r' rule time) := by
  have hordinary : (judgeOrdinary d r time).Supports (judgeOrdinary d r' time) := by
    unfold judgeOrdinary
    by_cases hlate : d.isBefore time r'.earliest = true
    · rw [if_pos hlate]
      exact .of_passed (.inr rfl)
    · have hearly := Direction.not_isBefore_trans ((Bool.not_eq_true _).mp hlate) h.earliest
      rw [if_neg hlate, hearly]
      exact .refl _
  cases rule with
  | none => exact hordinary
  | some e =>
    obtain ⟨key, constraint, transfer⟩ := e
    cases constraint with
    | regular => exact hordinary
    | guaranteed => exact .refl _
    | staySeated => exact .refl _
    | notAllowed => exact .refl _
    | minTransferTime seconds =>
      dsimp only [judge]
      by_cases hlate : d.isBefore time (required d cfg r' seconds) = true
      · rw [if_pos hlate]
        exact .of_passed (.inl rfl)
      · have hmeets := isBefore_required_iff.1 ((Bool.not_eq_true _).mp hlate)
        rw [if_neg hlate, isBefore_required_iff.2 (hmeets.of_postpones h)]
        exact .refl _

/-! ## Candidates -/

/-- A trip that is a candidate for a postponed request is one for the request, with a verdict that supports
the other. -/
theorem candidate?_of_postpones (h : r.Postpones d r') {rules : List Entry} {t : Trip} {c : Candidate}
    (hc : candidate? d cfg r' rules p t = some c) :
    ∃ x, candidate? d cfg r rules p t = some x ∧ x.time = c.time ∧ x.verdict.Supports c.verdict := by
  obtain ⟨-, htime, hbefore, hverdict⟩ := candidate?_eq_some_iff.1 hc
  refine ⟨⟨t, c.time, judge d cfg r (rule? rules t) c.time⟩, ?_, rfl, ?_⟩
  · exact candidate?_eq_some_iff.2 ⟨rfl, htime, Direction.not_isBefore_trans hbefore h.source, rfl⟩
  · rw [hverdict]
    exact judge_supports h _ _

/-- A candidate decides behind others when one that it supports does, behind others that they support. -/
theorem Decides.of_supports {f g : Trip → Option Candidate} {before : List Trip}
    (h : ∀ t ∈ before, ∀ c, g t = some c → ∃ x, f t = some x ∧ x.verdict.Supports c.verdict)
    {c x : Candidate} (hx : x.verdict.Supports c.verdict) (hc : Decides (before.filterMap g) c) :
    Decides (before.filterMap f) x := by
  rcases hc with hsettles | ⟨hordinary, y, hy, hforbidden⟩
  · exact .inl (hx.settles hsettles)
  · obtain ⟨t, ht, hty⟩ := List.mem_filterMap.1 hy
    obtain ⟨z, hz, hsupports⟩ := h t ht y hty
    exact .inr ⟨hx.ordinary hordinary, z, List.mem_filterMap.2 ⟨t, ht, hz⟩,
      hsupports.forbidden hforbidden⟩

/-- Where one surveys trips and meets a candidate, that one comes from a trip, and the candidates in front
of it come from the trips in front. -/
theorem exists_trip_of_filterMap_eq {g : Trip → Option Candidate} {trips : List Trip}
    {front rest : List Candidate} {c : Candidate} (h : trips.filterMap g = front ++ c :: rest) :
    ∃ before t after, trips = before ++ t :: after ∧ before.filterMap g = front ∧ g t = some c := by
  obtain ⟨first, second, rfl, hfront, hsecond⟩ := List.filterMap_eq_append_iff.1 h
  obtain ⟨skipped, t, after, rfl, hskipped, ht, -⟩ := List.filterMap_eq_cons_iff.1 hsecond
  refine ⟨first ++ skipped, t, after, by simp, ?_, ht⟩
  rw [List.filterMap_append, hfront, List.filterMap_eq_nil_iff.2 hskipped, List.append_nil]

/-- The candidates of a pattern come in the order of their times. -/
theorem pairwise_survey (d : Direction) (cfg : SearchConfig) (r : BoardingRequest)
    (rules : List Entry) (p : Position) (pattern : Pattern) :
    (survey d cfg r rules p (d.order pattern.trips)).Pairwise
      fun a b => d.isBefore b.time a.time = false := by
  refine (pairwise_survey_noLater d cfg r rules p pattern).imp_of_mem fun {a b} ha hb hab => ?_
  obtain ⟨ht, htime, -⟩ := mem_survey_iff.1 ha
  obtain ⟨hu, htime', -⟩ := mem_survey_iff.1 hb
  exact Pattern.isBefore_of_noLater (Direction.mem_order_iff.1 ht) (Direction.mem_order_iff.1 hu) hab
    htime htime'

/-! ## The candidate that is chosen -/

/-- **The chosen candidate does not stand behind one that decides.** -/
theorem eq_or_mem_of_pick {cs front rest : List Candidate} {c x : Candidate}
    (hcs : cs = front ++ c :: rest) (hc : Decides front c) (hx : pick cfg [] cs = some x) :
    x = c ∨ x ∈ front := by
  obtain ⟨mid, tail, hsplit, hund, -, -⟩ := (pick_eq_some_iff undecided_nil patient_nil).1 hx
  rw [hcs, List.append_eq_append_iff] at hsplit
  rcases hsplit with ⟨between, rfl, hbetween⟩ | ⟨between, rfl, hbetween⟩
  · cases between with
    | nil =>
      cases hbetween
      exact .inl rfl
    | cons y between =>
      -- the candidate that decides would be one of the row in which none does
      cases hbetween
      exact absurd hc (hund front c between (by simp))
  · cases between with
    | nil =>
      cases hbetween
      exact .inl rfl
    | cons y between =>
      cases hbetween
      exact .inr (by simp)

/-- In a row that is not undecided one decides behind those in front of it. -/
theorem not_undecided_iff {row : List Candidate} :
    ¬ Undecided row ↔ ∃ front c rest, row = front ++ c :: rest ∧ Decides front c := by
  unfold Undecided
  simp only [Classical.not_forall, Classical.not_not, exists_prop]

/-- Where a candidate decides behind a patient row, one is chosen. -/
theorem exists_pick_of_decides {cs front rest : List Candidate} {c : Candidate}
    (hcs : cs = front ++ c :: rest) (hc : Decides front c) (hpat : Patient cfg front) :
    ∃ x, pick cfg [] cs = some x := by
  -- by induction on the row in front, which shrinks as long as another one in it decides
  induction hlen : front.length using Nat.strongRecOn generalizing front c rest with
  | ind n ih =>
    by_cases hund : Undecided front
    · exact ⟨c, (pick_eq_some_iff undecided_nil patient_nil).2 ⟨front, rest, hcs, hund, hc, hpat⟩⟩
    · obtain ⟨a, x, b, rfl, hx⟩ := not_undecided_iff.1 hund
      rw [List.append_assoc, List.cons_append] at hcs
      refine ih a.length ?_ hcs hx hpat.of_append rfl
      rw [← hlen, List.length_append, List.length_cons]
      omega

/-- What a search gives is the boarding of the chosen candidate. -/
theorem inSlot?_eq_some_iff {b : Boarding} :
    inSlot? d cfg pattern s p r = some b ↔ applicable s r ≠ [] ∧ ∃ stop, pattern.stops[p]? = some stop ∧
      ∃ c, pick cfg [] (survey d cfg r (applicable s r) p (d.order pattern.trips)) = some c ∧
        b = c.boarding stop p r := by
  by_cases happ : applicable s r = []
  · rw [inSlot?_of_not_applicable happ]
    simp [happ]
  · rcases hstop : pattern.stops[p]? with _ | stop
    · rw [inSlot?_of_no_stop hstop]
      simp
    · rw [inSlot?_of_applicable happ hstop, Option.map_eq_some_iff]
      constructor
      · rintro ⟨c, hc, rfl⟩
        exact ⟨happ, stop, rfl, c, hc, rfl⟩
      · rintro ⟨-, stop', hstop', c, hc, rfl⟩
        cases hstop'
        exact ⟨c, hc, rfl⟩

/-- What is chosen in one survey of trips has a counterpart in another, if the candidates of the one have
counterparts in the other whose verdicts support theirs. It decides there, and the row in front of it stems from
the same trips. -/
theorem exists_decides_of_supports {f g : Trip → Option Candidate} {trips : List Trip}
    (h : ∀ t c, g t = some c → ∃ x, f t = some x ∧ x.verdict.Supports c.verdict) {c : Candidate}
    (hc : pick cfg [] (trips.filterMap g) = some c) :
    ∃ before t after x, trips = before ++ t :: after ∧ g t = some c ∧ f t = some x ∧
      trips.filterMap f = before.filterMap f ++ x :: after.filterMap f ∧
      Decides (before.filterMap f) x ∧ Patient cfg (before.filterMap g) := by
  obtain ⟨front, rest, hsplit, -, hdecides, hpat⟩ := (pick_eq_some_iff undecided_nil patient_nil).1 hc
  obtain ⟨before, t, after, rfl, rfl, ht⟩ := exists_trip_of_filterMap_eq hsplit
  obtain ⟨x, hx, hsupports⟩ := h t c ht
  refine ⟨before, t, after, x, rfl, ht, hx, ?_, ?_, hpat⟩
  · rw [List.filterMap_append, List.filterMap_cons_some hx]
  · exact Decides.of_supports (fun u _ => h u) hsupports hdecides

/-- What is chosen for a postponed request has a counterpart for the request, which decides there. -/
theorem exists_decides_of_postpones (h : r.Postpones d r') {rules : List Entry} {trips : List Trip}
    {c : Candidate} (hc : pick cfg [] (survey d cfg r' rules p trips) = some c) :
    ∃ front x rest, survey d cfg r rules p trips = front ++ x :: rest ∧ x.time = c.time ∧
      Decides front x := by
  have hcounterpart : ∀ t c, candidate? d cfg r' rules p t = some c →
      ∃ x, candidate? d cfg r rules p t = some x ∧ x.verdict.Supports c.verdict := by
    intro t c hc
    obtain ⟨x, hx, -, hsupports⟩ := candidate?_of_postpones h hc
    exact ⟨x, hx, hsupports⟩
  obtain ⟨before, t, after, x, -, ht, hx, hsplit, hdecides, -⟩ :=
    exists_decides_of_supports hcounterpart hc
  refine ⟨_, x, _, hsplit, ?_, hdecides⟩
  obtain ⟨y, hy, htime, -⟩ := candidate?_of_postpones h ht
  rw [hx] at hy
  cases hy
  exact htime

/-- A row of candidates of a pattern is patient when the scan gives up only behind more trips than there
are. -/
theorem patient_of_length_lt {rules : List Entry} {front rest : List Candidate}
    (habort : pattern.trips.length < cfg.abortAfter)
    (hsplit : survey d cfg r rules p (d.order pattern.trips) = front ++ rest) : Patient cfg front := by
  have hcount : ordinaryCount front ≤ front.length := List.countP_le_length
  have hrow : front.length ≤ (survey d cfg r rules p (d.order pattern.trips)).length := by
    rw [hsplit, List.length_append]
    omega
  have hsurvey : (survey d cfg r rules p (d.order pattern.trips)).length ≤
      (d.order pattern.trips).length := List.length_filterMap_le _ _
  have horder : (d.order pattern.trips).length = pattern.trips.length := by
    cases d
    · rfl
    · exact List.length_reverse
  unfold Patient
  omega

/-- **Arriving later never gets an earlier trip.** Where both a request and one that postpones it lead to a
boarding, the second boarding is not before the first. And where the scan cannot give up, because there are
fewer trips than it would have to pass, a boarding for the postponed request implies one for the request. -/
theorem boarding?_postponed (d : Direction) (cfg : SearchConfig) (pattern : Pattern) (i : RuleIndex)
    (p : Position) {r r' : BoardingRequest} (h : r.Postpones d r') :
    (∀ b b', boarding? d cfg pattern i p r = some b → boarding? d cfg pattern i p r' = some b' →
      d.isBefore b'.time b.time = false) ∧
    (pattern.trips.length < cfg.abortAfter → ∀ b', boarding? d cfg pattern i p r' = some b' →
      ∃ b, boarding? d cfg pattern i p r = some b) := by
  have hrules : applicable (i.slot p) r' = applicable (i.slot p) r := by
    unfold applicable
    rw [h.trip_eq, h.stop_eq]
  unfold boarding?
  refine ⟨fun b b' hb hb' => ?_, fun habort b' hb' => ?_⟩
  · obtain ⟨-, stop, -, x, hx, rfl⟩ := inSlot?_eq_some_iff.1 hb
    obtain ⟨-, stop', -, c, hc, rfl⟩ := inSlot?_eq_some_iff.1 hb'
    rw [hrules] at hc
    obtain ⟨front, y, rest, hsplit, htime, hdecides⟩ := exists_decides_of_postpones h hc
    show d.isBefore c.time x.time = false
    rw [← htime]
    rcases eq_or_mem_of_pick hsplit hdecides hx with rfl | hfront
    · cases d <;> simp [Direction.isBefore, Time.lt_def]
    · have horder := pairwise_survey d cfg r (applicable (i.slot p) r) p pattern
      rw [hsplit] at horder
      exact (List.pairwise_append.1 horder).2.2 x hfront y List.mem_cons_self
  · obtain ⟨happ, stop, hstop, c, hc, rfl⟩ := inSlot?_eq_some_iff.1 hb'
    rw [hrules] at happ hc
    obtain ⟨front, y, rest, hsplit, -, hdecides⟩ := exists_decides_of_postpones h hc
    obtain ⟨x, hx⟩ :=
      exists_pick_of_decides hsplit hdecides (patient_of_length_lt habort hsplit)
    exact ⟨_, inSlot?_eq_some_iff.2 ⟨happ, stop, hstop, x, hx, rfl⟩⟩

/-- A rider of the first trip of the crossing who arrives at the stop in the middle at some time and could
change there at once. -/
def changingAt (secs : Int) : BoardingRequest where
  sourceTrip := Timetable.Spot.firstArrival.trip
  sourceStop := ⟨1⟩
  sourceTime := .ofInt secs
  earliest := .ofInt secs

/-- The rules of the second pattern of the crossing where a minute is asked for to change. -/
def minuteToChange : RuleIndex :=
  (Timetable.crossing.ruleBook [Timetable.change Timetable.ruleX Timetable.stopB Timetable.stopB
    (.minTransferTime 60)]).index 1 .forward

/-- Where a minute is asked for at the crossing, arriving 40 seconds later costs the first onward trip. -/
theorem boarding?_postponed_crossing :
    (changingAt 480).Postpones .forward (changingAt 520) ∧
    ∃ b b',
      boarding? .forward ⟨false, 3⟩ Timetable.crossing.patterns[1] minuteToChange 0 (changingAt 480) =
        some b ∧
      boarding? .forward ⟨false, 3⟩ Timetable.crossing.patterns[1] minuteToChange 0 (changingAt 520) =
        some b' ∧
      b.tripIndex = 0 ∧ b'.tripIndex = 1 ∧ Direction.isBefore .forward b'.time b.time = false := by
  have hpostpones : (changingAt 480).Postpones .forward (changingAt 520) :=
    ⟨rfl, rfl, by decide, by decide⟩
  obtain ⟨hlater, hearlier⟩ := boarding?_postponed .forward ⟨false, 3⟩ Timetable.crossing.patterns[1]
    minuteToChange 0 hpostpones
  have hlate : boarding? .forward ⟨false, 3⟩ Timetable.crossing.patterns[1] minuteToChange 0
      (changingAt 520) =
        some ⟨1, ⟨"d", by decide⟩, 0, ⟨1⟩, .ofInt 840, .ofInt 520, .minTransferTime 60⟩ := by
    decide
  obtain ⟨b, hb⟩ := hearlier (by decide) _ hlate
  have hindex : b.tripIndex = 0 := by
    have hearly : boarding? .forward ⟨false, 3⟩ Timetable.crossing.patterns[1] minuteToChange 0
        (changingAt 480) =
          some ⟨0, ⟨"c", by decide⟩, 0, ⟨1⟩, .ofInt 570, .ofInt 480, .minTransferTime 60⟩ := by
      decide
    rw [hearly] at hb
    cases hb
    rfl
  exact ⟨hpostpones, b, _, hb, hlate, hindex, rfl, hlater b _ hb hlate⟩

end Search

end Interchange
