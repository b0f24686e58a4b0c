import Interchange.Proofs.Search.Amendment
import Interchange.Proofs.Search.Postponement

/-!
# Minimum times that are made longer

Where the operator asks for more time to change, or a rider's slack is added to what is asked for, fewer trips
meet their minimum times. Those that do not are only passed: they bring the scan no nearer to giving up, and
forbid nothing.

* `Constraint.Tightened` — the same constraint, or a minimum time that is not shorter.
* `Search.Verdict.NoWorse` — a verdict that does for the scan what another does, and is no more of a reason to
  give up. `judge_noWorse` — so is the verdict on a trip to the one by a tightened rule.
* `Search.exists_pick_of_noWorse` — what is chosen by verdicts that are no worse stands no later.
* `Timetable.boarding?_tightened` — a search with tightened records finds nothing that the search with the
  records does not find as well, of the same trip or of one in front of it.
-/

namespace Interchange

/-- A constraint is another one, or a minimum time that is not shorter than it. -/
inductive Constraint.Tightened : Constraint → Constraint → Prop
  | same (c : Constraint) : Tightened c c
  | longer {n m : UInt32} (h : n ≤ m) : Tightened (.minTransferTime n) (.minTransferTime m)

/-- More seconds lead no less far. -/
theorem Direction.isBefore_ahead_of_le (d : Direction) (t : Time) {n m : Int} (h : n ≤ m) :
    d.isBefore (d.ahead t m) (d.ahead t n) = false := by
  cases d with
  | forward =>
    simp only [isBefore, ahead, Time.later, Time.ofInt, Time.clamp, Time.least, Time.greatest, Time.lt_def,
      decide_eq_false_iff_not]
    omega
  | reverse =>
    simp only [isBefore, ahead, Time.earlier, Time.ofInt, Time.clamp, Time.least, Time.greatest, Time.lt_def,
      decide_eq_false_iff_not]
    omega

namespace Search

variable {d : Direction} {cfg cfg' : SearchConfig} {r : BoardingRequest} {rules rules' : List Entry}
  {p : Position}

/-! ## Verdicts -/

/-- One verdict is no worse than another: it does for the scan what the other does, and is ordinary only where
the other is, so that it is no more of a reason to give up. -/
structure Verdict.NoWorse (v w : Verdict) : Prop extends v.Supports w where
  ordinary_only : v = .ordinary → w = .ordinary

/-- A verdict is no worse than itself. -/
theorem Verdict.NoWorse.refl (v : Verdict) : v.NoWorse v := ⟨.refl v, id⟩

/-- A time that meets a minimum time meets one that is not longer, also where that one holds exactly and the
longer one is a lower bound beside the earliest ordinary time. -/
theorem Meets.of_tightened (hcfg : cfg.definitiveMinTime = false → cfg'.definitiveMinTime = false)
    {n m : UInt32} (h : n ≤ m) {time : Time} (hmeets : Meets d cfg' r m time) : Meets d cfg r n time := by
  obtain ⟨hexact, hearliest⟩ := hmeets
  refine ⟨Direction.not_isBefore_trans hexact (d.isBefore_ahead_of_le _ ?_), fun hc => hearliest (hcfg hc)⟩
  have hle := UInt32.le_iff_toNat_le.1 h
  omega

/-- The verdict by a minimum time is no worse than the one by a longer time. -/
theorem noWorse_of_meets {n m : UInt32} {time : Time}
    (h : Meets d cfg' r m time → Meets d cfg r n time) :
    (if d.isBefore time (required d cfg r n) then Verdict.timeUnmet else .timeMet n).NoWorse
      (if d.isBefore time (required d cfg' r m) then .timeUnmet else .timeMet m) := by
  by_cases hm : Meets d cfg' r m time
  · rw [isBefore_required_iff.2 hm, isBefore_required_iff.2 (h hm)]
    exact ⟨⟨fun _ => rfl, nofun, nofun⟩, nofun⟩
  · have hunmet := (Bool.not_eq_false _).mp (mt isBefore_required_iff.1 hm)
    rw [if_pos hunmet]
    refine ⟨.of_passed (.inl rfl), ?_⟩
    split <;> exact nofun

/-- **The verdict on a trip is no worse than the one by a tightened rule.** -/
theorem judge_noWorse (hcfg : cfg.definitiveMinTime = false → cfg'.definitiveMinTime = false)
    {rule rule' : Option Entry} (hrule : Option.Rel (Entry.Amended Constraint.Tightened) rule rule')
    (time : Time) : (judge d cfg r rule time).NoWorse (judge d cfg' r rule' time) := by
  cases hrule with
  | none => exact .refl _
  | @some e e' he =>
    obtain ⟨key, constraint, transfer⟩ := e
    obtain ⟨key', constraint', transfer'⟩ := e'
    obtain ⟨hkey, -, hconstraint⟩ := he
    dsimp only at hkey hconstraint
    subst hkey
    cases hconstraint with
    | longer hle => exact noWorse_of_meets (Meets.of_tightened hcfg hle)
    | same =>
      cases constraint with
      | minTransferTime seconds => exact noWorse_of_meets (Meets.of_tightened hcfg (UInt32.le_refl _))
      | regular => exact .refl _
      | guaranteed => exact .refl _
      | staySeated => exact .refl _
      | notAllowed => exact .refl _

/-! ## Candidates -/

/-- A trip is a candidate by both rules or by neither, at the same time, and its verdict is no worse. -/
theorem candidate?_noWorse (hcfg : cfg.definitiveMinTime = false → cfg'.definitiveMinTime = false)
    (h : List.Forall₂ (Entry.Amended Constraint.Tightened) rules rules') (t : Trip) :
    Option.Rel (fun x c : Candidate => x.trip = c.trip ∧ x.verdict.NoWorse c.verdict)
      (candidate? d cfg r rules p t) (candidate? d cfg' r rules' p t) := by
  unfold candidate?
  rcases d.eventTime? t p with _ | time
  · exact .none
  · rw [Option.bind_some, Option.bind_some]
    split
    · exact .none
    · exact .some ⟨rfl, judge_noWorse hcfg (rule?_amended h t) time⟩

/-- Where the verdicts are no worse, there are no more ordinary candidates. -/
theorem ordinaryCount_filterMap_le {f g : Trip → Option Candidate}
    (h : ∀ t, Option.Rel (fun x c : Candidate => x.trip = c.trip ∧ x.verdict.NoWorse c.verdict) (f t) (g t))
    (trips : List Trip) : ordinaryCount (trips.filterMap f) ≤ ordinaryCount (trips.filterMap g) := by
  unfold ordinaryCount
  rw [List.countP_filterMap, List.countP_filterMap]
  apply List.countP_mono_left
  intro t _
  have ht := h t
  generalize f t = x at ht
  generalize g t = c at ht
  cases ht with
  | none => exact id
  | some hxc => simpa using hxc.2.ordinary_only

/-- **What is chosen by verdicts that are no worse stands no later**: where a candidate is chosen in one survey,
one is chosen in the other, which is of the same trip or stands in front of one that is. -/
theorem exists_pick_of_noWorse {f g : Trip → Option Candidate} {trips : List Trip}
    (h : ∀ t, Option.Rel (fun x c : Candidate => x.trip = c.trip ∧ x.verdict.NoWorse c.verdict) (f t) (g t))
    (habort : cfg'.abortAfter = cfg.abortAfter) {c : Candidate}
    (hc : pick cfg' [] (trips.filterMap g) = some c) :
    ∃ y front x rest, pick cfg [] (trips.filterMap f) = some y ∧
      trips.filterMap f = front ++ x :: rest ∧ x.trip = c.trip ∧ (y = x ∨ y ∈ front) := by
  have hcounterpart : ∀ t c, g t = some c → ∃ x, f t = some x ∧ x.trip = c.trip ∧
      x.verdict.NoWorse c.verdict := by
    intro t c hc
    have ht := h t
    rw [hc] at ht
    generalize f t = x at ht
    cases ht with
    | some hxc => exact ⟨_, rfl, hxc⟩
  obtain ⟨before, t, after, x, -, ht, hx, hsplit, hdecides, hpat⟩ :=
    exists_decides_of_supports (fun t c hc => by
      obtain ⟨x, hx, -, hnoWorse⟩ := hcounterpart t c hc
      exact ⟨x, hx, hnoWorse.toSupports⟩) hc
  have hpat' : Patient cfg (before.filterMap f) := by
    have hle := ordinaryCount_filterMap_le h before
    unfold Patient at *
    omega
  obtain ⟨y, hy⟩ := exists_pick_of_decides hsplit hdecides hpat'
  obtain ⟨x', hx', htrip, -⟩ := hcounterpart t c ht
  rw [hx] at hx'
  cases hx'
  exact ⟨y, _, x, _, hy, hsplit, htrip, eq_or_mem_of_pick hsplit hdecides hy⟩

/-! ## Searches -/

/-- A search of a slot with tightened entries finds nothing that the search of the slot does not find as well, of
a trip that comes no later. -/
theorem inSlot?_tightened (hcfg : cfg.definitiveMinTime = false → cfg'.definitiveMinTime = false)
    (habort : cfg'.abortAfter = cfg.abortAfter) {s s' : Slot}
    (h : List.Forall₂ (Entry.Amended Constraint.Tightened) s s') {pattern : Pattern} {b' : Boarding}
    (hb' : inSlot? d cfg' pattern s' p r = some b') :
    ∃ b, inSlot? d cfg pattern s p r = some b ∧ d.NoLater b.tripIndex b'.tripIndex := by
  have hrules := applicable_amended h r
  obtain ⟨happ', stop, hstop, c, hc, rfl⟩ := inSlot?_eq_some_iff.1 hb'
  have happ := mt (applicable_amended_eq_nil_iff h r).2 happ'
  obtain ⟨y, front, x, rest, hy, hsplit, htrip, hyx⟩ :=
    exists_pick_of_noWorse (candidate?_noWorse hcfg hrules) habort hc
  refine ⟨_, inSlot?_eq_some_iff.2 ⟨happ, stop, hstop, y, hy, rfl⟩, ?_⟩
  show d.NoLater y.trip.index c.trip.index
  rw [← htrip]
  rcases hyx with rfl | hfront
  · exact .refl
  · -- candidates stand in search order
    have horder := pairwise_survey_noLater d cfg r (applicable s r) p pattern
    unfold survey at horder
    rw [hsplit] at horder
    exact (List.pairwise_append.1 horder).2.2 y hfront x List.mem_cons_self

end Search

namespace Timetable

/-- **Longer minimum times never help.** Of two rows of records that differ only in that some minimum transfer
times are longer in the second, and with minimum times that hold exactly in both searches, in neither, or in the
first alone: where a search with the second leads to a boarding, the same search with the first leads to one as
well, of a trip that comes no later in search order. This is so in either direction, at any position, for every
request, and whenever the scans give up. -/
theorem boarding?_tightened (tt : Timetable) {ts ts' : List Transfer}
    (h : List.Forall₂ (Transfer.Amended Constraint.Tightened) ts ts') {definitive definitive' : Bool}
    (hdefinitive : definitive = definitive' ∨ definitive = true ∧ definitive' = false) (i : Nat)
    (d : Direction) (abortAfter : Nat) (pattern : Pattern) (p : Position) (r : BoardingRequest)
    {b' : Boarding}
    (hb' : Search.boarding? d ⟨definitive', abortAfter⟩ pattern ((tt.ruleBook ts').index i d) p r =
      some b') :
    ∃ b, Search.boarding? d ⟨definitive, abortAfter⟩ pattern ((tt.ruleBook ts).index i d) p r = some b ∧
      d.NoLater b.tripIndex b'.tripIndex := by
  refine Search.inSlot?_tightened ?_ ?_ ((tt.ruleBook_amended h).slots i d p) hb'
  · rcases hdefinitive with rfl | ⟨rfl, rfl⟩
    · exact id
    · exact nofun
  · rfl

/-- Where two minutes are asked for at the crossing in place of one, and only beside the earliest ordinary time,
a rider who arrives at 480 seconds catches the second onward trip in place of the first. -/
theorem boarding?_tightened_crossing :
    List.Forall₂ (Transfer.Amended Constraint.Tightened)
      [change ruleX stopB stopB (.minTransferTime 60)] [change ruleX stopB stopB (.minTransferTime 120)] ∧
    ∃ b b',
      Search.boarding? .forward ⟨false, 3⟩ crossing.patterns[1]
        ((crossing.ruleBook [change ruleX stopB stopB (.minTransferTime 120)]).index 1 .forward) 0
        (Search.changingAt 480) = some b' ∧
      Search.boarding? .forward ⟨true, 3⟩ crossing.patterns[1]
        ((crossing.ruleBook [change ruleX stopB stopB (.minTransferTime 60)]).index 1 .forward) 0
        (Search.changingAt 480) = some b ∧
      b.tripIndex = 0 ∧ b'.tripIndex = 1 ∧ Direction.NoLater .forward b.tripIndex b'.tripIndex := by
  have hrecords : List.Forall₂ (Transfer.Amended Constraint.Tightened)
      [change ruleX stopB stopB (.minTransferTime 60)]
      [change ruleX stopB stopB (.minTransferTime 120)] :=
    .cons ⟨rfl, rfl, rfl, .longer (by decide)⟩ .nil
  have hslow : Search.boarding? .forward ⟨false, 3⟩ crossing.patterns[1]
      ((crossing.ruleBook [change ruleX stopB stopB (.minTransferTime 120)]).index 1 .forward) 0
      (Search.changingAt 480) =
        some ⟨1, ⟨"d", by decide⟩, 0, ⟨1⟩, .ofInt 840, .ofInt 480, .minTransferTime 120⟩ := by
    decide
  obtain ⟨b, hb, hnoLater⟩ := crossing.boarding?_tightened hrecords (.inr ⟨rfl, rfl⟩) 1 .forward 3
    crossing.patterns[1] 0 (Search.changingAt 480) hslow
  have hquick : Search.boarding? .forward ⟨true, 3⟩ crossing.patterns[1]
      ((crossing.ruleBook [change ruleX stopB stopB (.minTransferTime 60)]).index 1 .forward) 0
      (Search.changingAt 480) =
        some ⟨0, ⟨"c", by decide⟩, 0, ⟨1⟩, .ofInt 570, .ofInt 480, .minTransferTime 60⟩ := by
    decide
  have hindex : b.tripIndex = 0 := by
    rw [hquick] at hb
    cases hb
    rfl
  exact ⟨hrecords, b, _, hslow, hb, hindex, rfl, hnoLater⟩

end Timetable

end Interchange
