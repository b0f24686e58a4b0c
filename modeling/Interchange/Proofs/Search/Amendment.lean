import Interchange.Proofs.RuleBook.Amendment
import Interchange.Proofs.Search.Decision

/-!
# Searches with amended rules

A search looks at the constraint of a rule only when it judges a trip. So in slots that match but for their
constraints the rules that count match, and so does the rule for each trip (`Search.applicable_amended`,
`Search.rule?_amended`).

The first amendment is one that does not matter: where minimum transfer times hold exactly, a guarantee is a
minimum time of no seconds.

* `Constraint.asMinTime` — a guarantee, written as such a minimum time.
* `Search.judge_asMinTime` — the verdict on a trip in reach is then that the minimum time is met.
* `Timetable.boarding?_asMinTime` — the same is reported, and every search leads to the same trip.
-/

namespace Interchange

/-! ## The rules that count -/

/-- Of two rows that match, the parts match up to the first elements that fail, if the tests agree on what
matches. -/
theorem forall₂_takeWhile {α β : Type} {S : α → β → Prop} {p : α → Bool} {q : β → Bool} {as : List α}
    {bs : List β} (hpq : ∀ a b, S a b → p a = q b) (h : List.Forall₂ S as bs) :
    List.Forall₂ S (as.takeWhile p) (bs.takeWhile q) := by
  induction h with
  | nil => exact .nil
  | @cons a b as bs hab _ ih =>
    rw [List.takeWhile_cons, List.takeWhile_cons, hpq a b hab]
    split
    · exact .cons hab ih
    · exact .nil

namespace Search

variable {R : Constraint → Constraint → Prop} {d : Direction} {cfg : SearchConfig} {r : BoardingRequest}
  {s s' : Slot} {rules rules' : List Entry} {p : Position}

/-- In slots that match, the rules that count match. -/
theorem applicable_amended (h : List.Forall₂ (Entry.Amended R) s s') (r : BoardingRequest) :
    List.Forall₂ (Entry.Amended R) (applicable s r) (applicable s' r) := by
  have hfilter : List.Forall₂ (Entry.Amended R)
      (s.filter fun e => e.acceptsSource r.sourceStop r.sourceTrip)
      (s'.filter fun e => e.acceptsSource r.sourceStop r.sourceTrip) := by
    refine List.rel_filter (fun e e' he => ?_) h
    simp [Entry.acceptsSource, he.key_eq]
  unfold applicable
  generalize s.filter _ = l at hfilter
  generalize s'.filter _ = l' at hfilter
  cases hfilter with
  | nil => exact .nil
  | cons he hrest =>
    refine .cons he (forall₂_takeWhile (fun x x' hx => ?_) hrest)
    rw [hx.key_eq, he.key_eq]

/-- A rule counts in one of them when one does in the other. -/
theorem applicable_amended_eq_nil_iff (h : List.Forall₂ (Entry.Amended R) s s') (r : BoardingRequest) :
    applicable s' r = [] ↔ applicable s r = [] := by
  rw [← List.length_eq_zero_iff, ← List.length_eq_zero_iff, (applicable_amended h r).length_eq]

/-- Where the rules match, a trip has no rule in both, or rules that match. -/
theorem rule?_amended (h : List.Forall₂ (Entry.Amended R) rules rules') (t : Trip) :
    Option.Rel (Entry.Amended R) (rule? rules t) (rule? rules' t) :=
  rel_find? (fun e e' he => by rw [Entry.acceptsTarget, Entry.acceptsTarget, he.key_eq]) h

end Search

/-! ## Guarantees as minimum times -/

/-- A guarantee, written as a minimum transfer time of no seconds; any other constraint as it is. -/
def Constraint.asMinTime : Constraint → Constraint
  | .guaranteed => .minTransferTime 0
  | c => c

/-- A record with its guarantee written as a minimum time. -/
def Transfer.asMinTime (t : Transfer) : Transfer := { t with constraint := t.constraint.asMinTime }

/-- A boarding with its guarantee written as a minimum time. -/
def Boarding.asMinTime (b : Boarding) : Boarding := { b with constraint := b.constraint.asMinTime }

/-- No seconds lead nowhere. -/
theorem Direction.ahead_zero (d : Direction) (t : Time) : d.ahead t 0 = t := by
  cases d with
  | forward => simp [ahead, Time.later]
  | reverse => simp [ahead, Time.earlier]

namespace Search

variable {d : Direction} {cfg : SearchConfig} {r : BoardingRequest} {s s' : Slot}
  {rules rules' : List Entry} {p : Position}

/-- A verdict by a guarantee, as the one by a minimum time of no seconds. -/
def Verdict.asMinTime : Verdict → Verdict
  | .facilitated .guaranteed => .timeMet 0
  | v => v

/-- The constraint of such a verdict is the one that is written so. -/
theorem Verdict.constraint_asMinTime (v : Verdict) : v.asMinTime.constraint = v.constraint.asMinTime := by
  cases v with
  | facilitated c => cases c <;> rfl
  | _ => rfl

/-- Such a verdict has the same effect. -/
theorem Verdict.sameEffect_asMinTime (v : Verdict) : v.asMinTime.SameEffect v := by
  cases v with
  | facilitated c => cases c <;> exact ⟨rfl, by simp [asMinTime], by simp [asMinTime]⟩
  | _ => exact .refl _

/-- A candidate with its verdict written so. -/
def Candidate.asMinTime (c : Candidate) : Candidate := { c with verdict := c.verdict.asMinTime }

/-- An ordinary verdict is written as it is. -/
theorem asMinTime_judgeOrdinary (d : Direction) (r : BoardingRequest) (time : Time) :
    (judgeOrdinary d r time).asMinTime = judgeOrdinary d r time := by
  unfold judgeOrdinary
  split <;> rfl

/-- **Where minimum times hold exactly, a minimum time of no seconds does for a trip in reach what a
guarantee does.** -/
theorem judge_asMinTime (hcfg : cfg.definitiveMinTime = true) {rule rule' : Option Entry}
    (hrule : Option.Rel (Entry.Amended fun c c' => c' = c.asMinTime) rule rule') {time : Time}
    (hreach : d.isBefore time r.sourceTime = false) :
    judge d cfg r rule' time = (judge d cfg r rule time).asMinTime := by
  cases hrule with
  | none => exact (asMinTime_judgeOrdinary d r time).symm
  | @some e e' he =>
    obtain ⟨key, constraint, transfer⟩ := e
    obtain ⟨key', constraint', transfer'⟩ := e'
    obtain ⟨hkey, -, hconstraint⟩ := he
    dsimp only at hkey hconstraint
    subst hkey hconstraint
    cases constraint with
    | regular => exact (asMinTime_judgeOrdinary d r time).symm
    | guaranteed =>
      -- the time that is asked for is the source time, and a trip in reach is not before that
      have hzero : min ((0 : UInt32).toNat : Int) Time.greatest = 0 := rfl
      have hrequired : required d cfg r 0 = r.sourceTime := by
        rw [required, if_pos hcfg, hzero, Direction.ahead_zero]
      simp [judge, Constraint.asMinTime, Verdict.asMinTime, hrequired, hreach]
    | staySeated => rfl
    | notAllowed =>
      simp only [judge, Constraint.asMinTime]
      split <;> rfl
    | minTransferTime seconds =>
      simp only [judge, Constraint.asMinTime]
      split <;> rfl

/-- So the candidates in a row of trips are the same, with their verdicts written so. -/
theorem survey_asMinTime (hcfg : cfg.definitiveMinTime = true)
    (h : List.Forall₂ (Entry.Amended fun c c' => c' = c.asMinTime) rules rules') (trips : List Trip) :
    survey d cfg r rules' p trips = (survey d cfg r rules p trips).map Candidate.asMinTime := by
  unfold survey
  rw [List.map_filterMap]
  apply List.filterMap_congr
  intro t _
  unfold candidate?
  rcases d.eventTime? t p with _ | time
  · rfl
  · rw [Option.bind_some, Option.bind_some]
    by_cases hbefore : d.isBefore time r.sourceTime = true
    · rw [if_pos hbefore, if_pos hbefore]
      rfl
    · rw [if_neg hbefore, if_neg hbefore,
        judge_asMinTime hcfg (rule?_amended h t) ((Bool.not_eq_true _).mp hbefore)]
      rfl

/-- And so is the boarding. -/
theorem inSlot?_asMinTime (hcfg : cfg.definitiveMinTime = true)
    (h : List.Forall₂ (Entry.Amended fun c c' => c' = c.asMinTime) s s') (pattern : Pattern)
    (p : Position) (r : BoardingRequest) :
    inSlot? d cfg pattern s' p r = (inSlot? d cfg pattern s p r).map Boarding.asMinTime := by
  by_cases happ : applicable s r = []
  · rw [inSlot?_of_not_applicable happ,
      inSlot?_of_not_applicable ((applicable_amended_eq_nil_iff h r).2 happ)]
    rfl
  · have happ' : applicable s' r ≠ [] := mt (applicable_amended_eq_nil_iff h r).1 happ
    rcases hstop : pattern.stops[p]? with _ | stop
    · rw [inSlot?_of_no_stop hstop, inSlot?_of_no_stop hstop]
      rfl
    · have hpick : ∀ cs : List Candidate,
          pick cfg [] (cs.map Candidate.asMinTime) = (pick cfg [] cs).map Candidate.asMinTime :=
        fun cs => pick_map (fun c => c.verdict.sameEffect_asMinTime) [] cs
      rw [inSlot?_of_applicable happ hstop, inSlot?_of_applicable happ' hstop,
        survey_asMinTime hcfg (applicable_amended h r), hpick, Option.map_map, Option.map_map]
      congr 1
      funext c
      simp [Candidate.boarding, Candidate.asMinTime, Boarding.asMinTime, Verdict.constraint_asMinTime]

end Search

namespace Timetable

/-- **With exact minimum times a guarantee is a minimum time of no seconds.** Where every guarantee among the
records is written as such a minimum time, the same issues are reported in the same order; and where minimum
times hold exactly, every search leads to the same boarding as before, with a guarantee written so: in either
direction, at any position, whatever the request and whenever the scan gives up. -/
theorem boarding?_asMinTime (tt : Timetable) (ts : List Transfer) :
    (tt.ruleBook (ts.map Transfer.asMinTime)).issues = (tt.ruleBook ts).issues ∧
      ∀ i d abortAfter pattern p r,
        Search.boarding? d ⟨true, abortAfter⟩ pattern
            ((tt.ruleBook (ts.map Transfer.asMinTime)).index i d) p r =
          (Search.boarding? d ⟨true, abortAfter⟩ pattern ((tt.ruleBook ts).index i d) p r).map
            Boarding.asMinTime := by
  have hrecords : List.Forall₂ (Transfer.Amended fun c c' => c' = c.asMinTime) ts
      (ts.map Transfer.asMinTime) :=
    List.forall₂_map_right_iff.2 (List.forall₂_same.2 fun t _ => ⟨rfl, rfl, rfl, rfl⟩)
  have hbooks := tt.ruleBook_amended hrecords
  refine ⟨hbooks.issues_eq, fun i d abortAfter pattern p r => ?_⟩
  exact Search.inSlot?_asMinTime rfl (hbooks.slots i d p) pattern p r

end Timetable

end Interchange
