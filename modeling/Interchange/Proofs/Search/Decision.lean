import Interchange.Proofs.RuleBook.Placement
import Interchange.Proofs.Search.Scan
import Interchange.Proofs.Search.Selection

/-!
# What a search answers

`Search.Answers` says what the boarding should be, in terms of positions in the row of trips and with
no loop, counter or flag: where no rule counts there is none; otherwise each trip in reach has a label
(`Search.Labelled`), and the first that decides is boarded unless too many ordinary ones stand in
front of it. `inSlot?_eq_iff` — a search of a well-formed slot gives just that, and
`boarding?_ruleBook_eq_iff` — so does a search with the rule book.
-/

namespace Interchange

/-- Every trip of a pattern has an event at every position of the pattern, whichever counts. -/
theorem Pattern.exists_eventTime? {pattern : Pattern} {d : Direction} {p : Position}
    {stop : StopOrdinal} (hp : pattern.stops[p]? = some stop) :
    ∀ t ∈ d.order pattern.trips, ∃ time, d.eventTime? t p = some time := by
  intro t ht
  obtain ⟨hlen, -⟩ := pattern.fits t (Direction.mem_order_iff.1 ht)
  have hlt : p < t.calls.length := by
    rw [hlen]
    exact (List.getElem?_eq_some_iff.1 hp).1
  have hcall := List.getElem?_eq_getElem hlt
  cases d with
  | forward => exact ⟨_, congrArg (Option.map Call.departure) hcall⟩
  | reverse => exact ⟨_, congrArg (Option.map Call.arrival) hcall⟩

namespace Search

variable {d : Direction} {cfg : SearchConfig} {r : BoardingRequest} {s : Slot} {p : Position}

/-! ## Labels -/

/-- A time meets a minimum transfer time: it is not before the source time moved by the seconds, nor,
unless minimum times are definitive, before the time from which an ordinary transfer is possible. -/
def Meets (d : Direction) (cfg : SearchConfig) (r : BoardingRequest) (seconds : UInt32)
    (time : Time) : Prop :=
  d.isBefore time (d.ahead r.sourceTime (min (seconds.toNat : Int) Time.greatest)) = false ∧
    (cfg.definitiveMinTime = false → d.isBefore time r.earliest = false)

/-- The time that the search asks for is the least that meets a minimum transfer time. -/
theorem isBefore_required_iff {seconds : UInt32} {time : Time} :
    d.isBefore time (required d cfg r seconds) = false ↔ Meets d cfg r seconds time := by
  unfold required Meets
  by_cases h : cfg.definitiveMinTime = true
  · simp [h]
  · simp [h, Direction.isBefore_laterOf]

/-- What the rules of a slot mean for a trip at a time. -/
inductive Labelled (d : Direction) (cfg : SearchConfig) (r : BoardingRequest) (s : Slot) (t : Trip)
    (time : Time) : Verdict → Prop
  /-- A rule for the trip guarantees the transfer, or lets the rider stay seated. -/
  | facilitated {e : Entry} {c : Constraint} (h : Prevails s r t e) (hc : e.constraint = c)
      (hf : c.isFacilitated = true) : Labelled d cfg r s t time (.facilitated c)
  /-- A rule for every trip forbids the transfer. -/
  | blocked {e : Entry} (h : Prevails s r t e) (hc : e.constraint = .notAllowed)
      (htarget : e.key.target = .any) : Labelled d cfg r s t time .blocked
  /-- A rule for the route or for the trip forbids the transfer. -/
  | forbidden {e : Entry} (h : Prevails s r t e) (hc : e.constraint = .notAllowed)
      (htarget : e.key.target ≠ .any) : Labelled d cfg r s t time .forbidden
  /-- A minimum transfer time is met. -/
  | timeMet {e : Entry} {seconds : UInt32} (h : Prevails s r t e)
      (hc : e.constraint = .minTransferTime seconds) (hmeets : Meets d cfg r seconds time) :
      Labelled d cfg r s t time (.timeMet seconds)
  /-- A minimum transfer time is not met. -/
  | timeUnmet {e : Entry} {seconds : UInt32} (h : Prevails s r t e)
      (hc : e.constraint = .minTransferTime seconds) (hmeets : ¬ Meets d cfg r seconds time) :
      Labelled d cfg r s t time .timeUnmet
  /-- The trip has no rule or a regular one, and an ordinary transfer is possible. -/
  | ordinary (h : ∀ e, Prevails s r t e → e.constraint = .regular)
      (hbefore : d.isBefore time r.earliest = false) : Labelled d cfg r s t time .ordinary
  /-- The trip has no rule or a regular one, and an ordinary transfer is not possible yet. -/
  | tooEarly (h : ∀ e, Prevails s r t e → e.constraint = .regular)
      (hbefore : d.isBefore time r.earliest = true) : Labelled d cfg r s t time .tooEarly

/-- What the search judges by, where an entry prevails for a trip, is its constraint. -/
theorem judge_of_prevails (hs : s.WellFormed) {t : Trip} {e : Entry} (he : Prevails s r t e)
    (time : Time) :
    judge d cfg r (rule? (applicable s r) t) time =
      match e.constraint with
      | .regular => judgeOrdinary d r time
      | .guaranteed => .facilitated .guaranteed
      | .staySeated => .facilitated .staySeated
      | .notAllowed => if e.key.target = .any then .blocked else .forbidden
      | .minTransferTime seconds =>
        if d.isBefore time (required d cfg r seconds) then .timeUnmet else .timeMet seconds := by
  rw [(rule?_eq_some_iff hs).2 he]
  rfl

/-- The search judges a trip as ordinary when it has no rule or a regular one. -/
theorem judge_of_regular (hs : s.WellFormed) {t : Trip}
    (h : ∀ e, Prevails s r t e → e.constraint = .regular) (time : Time) :
    judge d cfg r (rule? (applicable s r) t) time = judgeOrdinary d r time := by
  rcases hrule : rule? (applicable s r) t with _ | e
  · rfl
  · have he := (rule?_eq_some_iff hs).1 hrule
    rw [← hrule, judge_of_prevails hs he, h e he]

/-- The label of a trip is the verdict of the search on it. -/
theorem Labelled.eq_judge (hs : s.WellFormed) {t : Trip} {time : Time} {v : Verdict}
    (h : Labelled d cfg r s t time v) : judge d cfg r (rule? (applicable s r) t) time = v := by
  cases h with
  | @facilitated e c h hc hf =>
    rw [judge_of_prevails hs h, hc]
    cases c with
    | guaranteed => rfl
    | staySeated => rfl
    | regular => cases hf
    | notAllowed => cases hf
    | minTransferTime seconds => cases hf
  | blocked h hc htarget =>
    rw [judge_of_prevails hs h, hc]
    exact if_pos htarget
  | forbidden h hc htarget =>
    rw [judge_of_prevails hs h, hc]
    exact if_neg htarget
  | timeMet h hc hmeets =>
    rw [judge_of_prevails hs h, hc]
    exact if_neg (by rw [isBefore_required_iff.2 hmeets]; exact Bool.false_ne_true)
  | timeUnmet h hc hmeets =>
    rw [judge_of_prevails hs h, hc]
    exact if_pos ((Bool.not_eq_false _).mp (mt isBefore_required_iff.1 hmeets))
  | ordinary h hbefore =>
    rw [judge_of_regular hs h, judgeOrdinary, hbefore]
    rfl
  | tooEarly h hbefore =>
    rw [judge_of_regular hs h, judgeOrdinary, hbefore]
    rfl

/-- The verdict of the search on a trip is its label. -/
theorem labelled_judge (hs : s.WellFormed) (t : Trip) (time : Time) :
    Labelled d cfg r s t time (judge d cfg r (rule? (applicable s r) t) time) := by
  by_cases hregular : ∀ e, Prevails s r t e → e.constraint = .regular
  · rw [judge_of_regular hs hregular]
    unfold judgeOrdinary
    split
    · rename_i hbefore
      exact .tooEarly hregular hbefore
    · rename_i hbefore
      exact .ordinary hregular ((Bool.not_eq_true _).mp hbefore)
  · obtain ⟨e, hne⟩ := Classical.not_forall.1 hregular
    obtain ⟨he, hne⟩ := Classical.not_imp.1 hne
    rw [judge_of_prevails hs he]
    cases hc : e.constraint with
    | regular => exact absurd hc hne
    | guaranteed => exact .facilitated he hc rfl
    | staySeated => exact .facilitated he hc rfl
    | notAllowed =>
      dsimp only
      by_cases htarget : e.key.target = .any
      · rw [if_pos htarget]
        exact .blocked he hc htarget
      · rw [if_neg htarget]
        exact .forbidden he hc htarget
    | minTransferTime seconds =>
      dsimp only
      split
      · rename_i hbefore
        refine .timeUnmet he hc fun hmeets => ?_
        rw [isBefore_required_iff.2 hmeets] at hbefore
        cases hbefore
      · rename_i hbefore
        exact .timeMet he hc (isBefore_required_iff.1 ((Bool.not_eq_true _).mp hbefore))

/-- **The search judges a trip by its label.** -/
theorem labelled_iff (hs : s.WellFormed) {t : Trip} {time : Time} {v : Verdict} :
    Labelled d cfg r s t time v ↔ judge d cfg r (rule? (applicable s r) t) time = v := by
  refine ⟨fun h => h.eq_judge hs, ?_⟩
  rintro rfl
  exact labelled_judge hs t time

/-! ## Surveys -/

/-- Whether a trip is in reach: its event at the position is not before the source time. -/
def inReach (d : Direction) (r : BoardingRequest) (p : Position) (t : Trip) : Bool :=
  (d.eventTime? t p).any fun time => !d.isBefore time r.sourceTime

/-- A row of candidates surveys a pattern at a position: its trips are those of the pattern in reach,
in search order, each with its time and its label. -/
structure Surveys (d : Direction) (cfg : SearchConfig) (pattern : Pattern) (s : Slot) (p : Position)
    (r : BoardingRequest) (cs : List Candidate) : Prop where
  trips_eq : cs.map (·.trip) = (d.order pattern.trips).filter (inReach d r p)
  time_eq : ∀ c ∈ cs, d.eventTime? c.trip p = some c.time
  labelled : ∀ c ∈ cs, Labelled d cfg r s c.trip c.time c.verdict

/-- A trip is in reach when it is a candidate. -/
theorem inReach_eq_isSome {rules : List Entry} (t : Trip) :
    inReach d r p t = (candidate? d cfg r rules p t).isSome := by
  unfold inReach candidate?
  rcases d.eventTime? t p with _ | time
  · rfl
  · rw [Option.any_some, Option.bind_some]
    by_cases h : d.isBefore time r.sourceTime = true
    · rw [if_pos h, h]
      rfl
    · rw [if_neg h, (Bool.not_eq_true _).mp h]
      rfl

/-- What a list is mapped to where that is possible, in terms of what it stands for: the elements for
which it is possible, each with its image. -/
theorem eq_filterMap_iff {α β : Type} {f : α → Option β} {g : β → α} {q : α → Bool}
    (hg : ∀ a b, f a = some b → g b = a) (hq : ∀ a, q a = (f a).isSome) {l : List α} {bs : List β} :
    bs = l.filterMap f ↔ bs.map g = l.filter q ∧ ∀ b ∈ bs, f (g b) = some b := by
  induction l generalizing bs with
  | nil =>
    rw [List.filterMap_nil, List.filter_nil, List.map_eq_nil_iff]
    exact ⟨fun h => ⟨h, by simp [h]⟩, fun h => h.1⟩
  | cons a l ih =>
    rcases ha : f a with _ | b
    · rw [List.filterMap_cons_none ha, List.filter_cons_of_neg (by simp [hq, ha])]
      exact ih
    · rw [List.filterMap_cons_some ha, List.filter_cons_of_pos (by simp [hq, ha])]
      constructor
      · rintro rfl
        obtain ⟨hmap, himages⟩ := ih.1 rfl
        refine ⟨by rw [List.map_cons, hg a b ha, hmap], fun x hx => ?_⟩
        rcases List.mem_cons.1 hx with rfl | hx
        · rw [hg a x ha, ha]
        · exact himages x hx
      · rintro ⟨hmap, himages⟩
        obtain ⟨x, bs, rfl, hx, hrest⟩ := List.map_eq_cons_iff.1 hmap
        have hxb := himages x List.mem_cons_self
        rw [hx, ha] at hxb
        cases hxb
        rw [ih.2 ⟨hrest, fun y hy => himages y (List.mem_cons_of_mem _ hy)⟩]

/-- **The one survey of a pattern** is the row that the scan goes through. -/
theorem surveys_iff (hs : s.WellFormed) {pattern : Pattern} {cs : List Candidate} :
    Surveys d cfg pattern s p r cs ↔
      cs = survey d cfg r (applicable s r) p (d.order pattern.trips) := by
  unfold survey
  rw [eq_filterMap_iff (fun t c h => (candidate?_eq_some_iff.1 h).1) inReach_eq_isSome]
  constructor
  · rintro ⟨htrips, htime, hlabel⟩
    refine ⟨htrips, fun c hc => candidate?_eq_some_iff.2 ⟨rfl, htime c hc, ?_, ?_⟩⟩
    · have hmem : c.trip ∈ (d.order pattern.trips).filter (inReach d r p) :=
        htrips ▸ List.mem_map_of_mem hc
      have hreach := (List.mem_filter.1 hmem).2
      unfold inReach at hreach
      rw [htime c hc, Option.any_some, Bool.not_eq_true'] at hreach
      exact hreach
    · exact ((labelled_iff hs).1 (hlabel c hc)).symm
  · rintro ⟨htrips, hcandidates⟩
    refine ⟨htrips, fun c hc => ?_, fun c hc => ?_⟩
    · exact (candidate?_eq_some_iff.1 (hcandidates c hc)).2.1
    · exact (labelled_iff hs).2 (candidate?_eq_some_iff.1 (hcandidates c hc)).2.2.2.symm

/-! ## Answers -/

/-- What the boarding should be. -/
inductive Answers (d : Direction) (cfg : SearchConfig) (pattern : Pattern) (s : Slot) (p : Position)
    (r : BoardingRequest) : Option Boarding → Prop
  /-- No rule counts for the rider. -/
  | noRule (h : ∀ e, ¬ Counts s r e) : Answers d cfg pattern s p r none
  /-- The pattern has no such position. -/
  | noStop (h : pattern.stops[p]? = none) : Answers d cfg pattern s p r none
  /-- The first candidate that decides is boarded, if the ordinary ones in front of it are few. -/
  | boards {e : Entry} {stop : StopOrdinal} {front rest : List Candidate} {c : Candidate}
      (he : Counts s r e) (hstop : pattern.stops[p]? = some stop)
      (hsurvey : Surveys d cfg pattern s p r (front ++ c :: rest)) (hfront : Undecided front)
      (hc : Decides front c) (hfew : Patient cfg front) :
      Answers d cfg pattern s p r (some (c.boarding stop p r))
  /-- No candidate decides, or too many ordinary ones are in front of the first. -/
  | leaves {e : Entry} {stop : StopOrdinal} {cs : List Candidate} (he : Counts s r e)
      (hstop : pattern.stops[p]? = some stop) (hsurvey : Surveys d cfg pattern s p r cs)
      (h : ∀ front c rest, cs = front ++ c :: rest → Undecided front → Decides front c →
        ¬ Patient cfg front) : Answers d cfg pattern s p r none

/-- Without a rule that applies a search gives nothing. -/
theorem inSlot?_of_not_applicable {pattern : Pattern} (h : applicable s r = []) :
    inSlot? d cfg pattern s p r = none := by
  unfold inSlot? run
  rw [h]
  rfl

/-- Without a rule that counts a search gives nothing. -/
theorem inSlot?_of_not_counts (hs : s.WellFormed) {pattern : Pattern} (h : ∀ e, ¬ Counts s r e) :
    inSlot? d cfg pattern s p r = none :=
  inSlot?_of_not_applicable ((applicable_eq_nil_iff hs).2 h)

/-- Outside the pattern a search gives nothing. -/
theorem inSlot?_of_no_stop {pattern : Pattern} (h : pattern.stops[p]? = none) :
    inSlot? d cfg pattern s p r = none := by
  unfold inSlot? run
  rcases applicable s r with _ | ⟨e, rest⟩
  · rfl
  · rw [h]
    rfl

/-- With a rule that applies, at a position of the pattern, a search gives the boarding of the
candidate that is chosen among all. -/
theorem inSlot?_of_applicable {pattern : Pattern} {stop : StopOrdinal} (happ : applicable s r ≠ [])
    (hstop : pattern.stops[p]? = some stop) :
    inSlot? d cfg pattern s p r =
      (pick cfg [] (survey d cfg r (applicable s r) p (d.order pattern.trips))).map
        fun c => c.boarding stop p r := by
  rw [← boarding?_scan (Pattern.exists_eventTime? hstop) patient_nil]
  unfold inSlot? run
  rcases hrules : applicable s r with _ | ⟨x, rest⟩
  · exact absurd hrules happ
  · rw [hstop]
    rfl

/-- The same, for a rule that counts. -/
theorem inSlot?_of_counts (hs : s.WellFormed) {pattern : Pattern} {e : Entry} {stop : StopOrdinal}
    (he : Counts s r e) (hstop : pattern.stops[p]? = some stop) :
    inSlot? d cfg pattern s p r =
      (pick cfg [] (survey d cfg r (applicable s r) p (d.order pattern.trips))).map
        fun c => c.boarding stop p r :=
  inSlot?_of_applicable (List.ne_nil_of_mem ((mem_applicable_iff hs).2 he)) hstop

/-- A boarding is that of a candidate at the position. -/
theorem exists_candidate_of_inSlot? {pattern : Pattern} {b : Boarding}
    (h : inSlot? d cfg pattern s p r = some b) :
    ∃ c ∈ survey d cfg r (applicable s r) p (d.order pattern.trips), ∃ stop,
      pattern.stops[p]? = some stop ∧ b = c.boarding stop p r := by
  by_cases happ : applicable s r = []
  · rw [inSlot?_of_not_applicable happ] at h
    cases h
  · rcases hstop : pattern.stops[p]? with _ | stop
    · rw [inSlot?_of_no_stop hstop] at h
      cases h
    · rw [inSlot?_of_applicable happ hstop] at h
      obtain ⟨c, hc, rfl⟩ := Option.map_eq_some_iff.1 h
      exact ⟨c, mem_of_pick hc, stop, rfl, rfl⟩

/-- What a search gives is what the boarding should be. -/
theorem answers_inSlot? (hs : s.WellFormed) (pattern : Pattern) :
    Answers d cfg pattern s p r (inSlot? d cfg pattern s p r) := by
  by_cases hcounts : ∃ e, Counts s r e
  · obtain ⟨e, he⟩ := hcounts
    rcases hstop : pattern.stops[p]? with _ | stop
    · rw [inSlot?_of_no_stop hstop]
      exact .noStop hstop
    · have hsurvey : Surveys d cfg pattern s p r _ := (surveys_iff hs).2 rfl
      rw [inSlot?_of_counts hs he hstop]
      rcases hpick : pick cfg [] (survey d cfg r (applicable s r) p (d.order pattern.trips))
        with _ | c
      · refine .leaves he hstop hsurvey fun front c rest hcs hfront hc hfew => ?_
        rw [(pick_eq_some_iff undecided_nil patient_nil).2 ⟨front, rest, hcs, hfront, hc, hfew⟩]
          at hpick
        cases hpick
      · obtain ⟨front, rest, hcs, hfront, hc, hfew⟩ :=
          (pick_eq_some_iff undecided_nil patient_nil).1 hpick
        rw [hcs] at hsurvey
        exact .boards he hstop hsurvey hfront hc hfew
  · rw [inSlot?_of_not_counts hs (not_exists.1 hcounts)]
    exact .noRule (not_exists.1 hcounts)

/-- What the boarding should be is what a search gives. -/
theorem Answers.eq_inSlot? (hs : s.WellFormed) {pattern : Pattern} {b : Option Boarding}
    (h : Answers d cfg pattern s p r b) : inSlot? d cfg pattern s p r = b := by
  cases h with
  | noRule h => exact inSlot?_of_not_counts hs h
  | noStop h => exact inSlot?_of_no_stop h
  | boards he hstop hsurvey hfront hc hfew =>
    rw [inSlot?_of_counts hs he hstop, ← (surveys_iff hs).1 hsurvey,
      (pick_eq_some_iff undecided_nil patient_nil).2 ⟨_, _, rfl, hfront, hc, hfew⟩]
    rfl
  | leaves he hstop hsurvey h =>
    rw [inSlot?_of_counts hs he hstop, ← (surveys_iff hs).1 hsurvey, Option.map_eq_none_iff,
      Option.eq_none_iff_forall_ne_some]
    intro c hpick
    obtain ⟨front, rest, hcs, hfront, hc, hfew⟩ :=
      (pick_eq_some_iff undecided_nil patient_nil).1 hpick
    exact h front c rest hcs hfront hc hfew

/-- **A search of a well-formed slot gives what the boarding should be.** -/
theorem inSlot?_eq_iff (hs : s.WellFormed) {pattern : Pattern} {b : Option Boarding} :
    inSlot? d cfg pattern s p r = b ↔ Answers d cfg pattern s p r b := by
  refine ⟨?_, fun h => h.eq_inSlot? hs⟩
  rintro rfl
  exact answers_inSlot? hs pattern

/-- Slots in which the same entries count for the rider give the same. -/
theorem inSlot?_congr {s' : Slot} (hs : s.WellFormed) (hs' : s'.WellFormed)
    (h : ∀ e, Counts s r e ↔ Counts s' r e) (pattern : Pattern) :
    inSlot? d cfg pattern s p r = inSlot? d cfg pattern s' p r := by
  by_cases hcounts : ∃ e, Counts s r e
  · obtain ⟨e, he⟩ := hcounts
    rcases hstop : pattern.stops[p]? with _ | stop
    · rw [inSlot?_of_no_stop hstop, inSlot?_of_no_stop hstop]
    · rw [inSlot?_of_counts hs he hstop, inSlot?_of_counts hs' ((h e).1 he) hstop,
        survey_congr (rule?_congr hs hs' h)]
  · have hnone : ∀ e, ¬ Counts s r e := not_exists.1 hcounts
    rw [inSlot?_of_not_counts hs hnone, inSlot?_of_not_counts hs' fun e he => hnone e ((h e).2 he)]

/-- **A search with the rule book gives what the boarding should be**, for every pattern, direction,
position, request and configuration. -/
theorem boarding?_ruleBook_eq_iff (tt : Timetable) (ts : List Transfer) (i : Nat) (d : Direction)
    (cfg : SearchConfig) (pattern : Pattern) (p : Position) (r : BoardingRequest)
    (b : Option Boarding) :
    boarding? d cfg pattern ((tt.ruleBook ts).index i d) p r = b ↔
      Answers d cfg pattern ((tt.ruleBook ts).slot i d p) p r b :=
  inSlot?_eq_iff (Timetable.wellFormed_slot_ruleBook tt ts i d p)

end Search

end Interchange
