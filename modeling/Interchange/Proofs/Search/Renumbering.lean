import Interchange.Proofs.Search.Decision

/-!
# The number of a stop

A search asks of an entry whether it is about the stop of the rider, and nothing else about the number of
that stop. Where the same entries stand under another number, it comes to the same.

* `Entry.moveTo`, `BoardingRequest.moveTo` — an entry or a request under another number of its stop.
* `Search.Renumbers` — a slot holds, under one number, the entries that another slot holds under another.
  `Search.rule?_moveTo` — such slots lead to the same rule for every trip.
* `Search.inSlot?_moveTo` — and to the same boarding, but for the stop at which it is.
-/

namespace Interchange

/-- A key with another stop. -/
def Key.moveTo (k : Key) (o : StopOrdinal) : Key := { k with stop := o }

/-- An entry with another stop in its key. -/
def Entry.moveTo (e : Entry) (o : StopOrdinal) : Entry := { e with key := e.key.moveTo o }

/-- A request of a rider at another stop. -/
def BoardingRequest.moveTo (r : BoardingRequest) (o : StopOrdinal) : BoardingRequest :=
  { r with sourceStop := o }

/-- A boarding at another stop. -/
def Boarding.moveTo (b : Boarding) (o : StopOrdinal) : Boarding := { b with stop := o }

/-- An entry that is moved to where it was comes back. -/
theorem Entry.moveTo_moveTo_self (e : Entry) {o o' : StopOrdinal} (h : e.key.stop = o) :
    (e.moveTo o').moveTo o = e := by
  rw [← h]
  rfl

namespace Search

variable {d : Direction} {cfg : SearchConfig} {r : BoardingRequest} {s s' : Slot} {p : Position}
  {o : StopOrdinal}

/-- One slot holds, under a number, just the entries that another holds under the number of the stop that
the rider comes from. -/
def Renumbers (r : BoardingRequest) (o : StopOrdinal) (s s' : Slot) : Prop :=
  ∀ e, e.key.stop = r.sourceStop → (e ∈ s ↔ e.moveTo o ∈ s')

/-! ## Rules -/

/-- An entry applies when it does under the other number. -/
theorem applies_moveTo (h : Renumbers r o s s') {e : Entry} (hstop : e.key.stop = r.sourceStop) :
    Applies s' (r.moveTo o) (e.moveTo o) ↔ Applies s r e := by
  constructor
  · rintro ⟨hmem, -, haccepts⟩
    exact ⟨(h e hstop).2 hmem, hstop, haccepts⟩
  · rintro ⟨hmem, -, haccepts⟩
    exact ⟨(h e hstop).1 hmem, rfl, haccepts⟩

/-- An entry that applies under the other number is one that is moved there. -/
theorem exists_of_applies_moveTo (h : Renumbers r o s s') {x : Entry}
    (hx : Applies s' (r.moveTo o) x) : ∃ e, e.moveTo o = x ∧ Applies s r e := by
  have hback : (x.moveTo r.sourceStop).moveTo o = x := x.moveTo_moveTo_self hx.stop_eq
  refine ⟨x.moveTo r.sourceStop, hback, (applies_moveTo h rfl).1 ?_⟩
  rw [hback]
  exact hx

/-- An entry counts when it does under the other number. -/
theorem counts_moveTo (h : Renumbers r o s s') {e : Entry} (hstop : e.key.stop = r.sourceStop) :
    Counts s' (r.moveTo o) (e.moveTo o) ↔ Counts s r e := by
  constructor
  · rintro ⟨happlies, hnarrowest⟩
    refine ⟨(applies_moveTo h hstop).1 happlies, fun x hx => ?_⟩
    exact hnarrowest (x.moveTo o) ((applies_moveTo h hx.stop_eq).2 hx)
  · rintro ⟨happlies, hnarrowest⟩
    refine ⟨(applies_moveTo h hstop).2 happlies, fun x hx => ?_⟩
    obtain ⟨y, rfl, hy⟩ := exists_of_applies_moveTo h hx
    exact hnarrowest y hy

/-- An entry prevails for a trip when it does under the other number. -/
theorem prevails_moveTo (h : Renumbers r o s s') {t : Trip} {e : Entry}
    (hstop : e.key.stop = r.sourceStop) :
    Prevails s' (r.moveTo o) t (e.moveTo o) ↔ Prevails s r t e := by
  constructor
  · rintro ⟨hcounts, haccepts, hnarrowest⟩
    refine ⟨(counts_moveTo h hstop).1 hcounts, haccepts, fun x hx hxaccepts => ?_⟩
    exact hnarrowest (x.moveTo o) ((counts_moveTo h hx.applies.stop_eq).2 hx) hxaccepts
  · rintro ⟨hcounts, haccepts, hnarrowest⟩
    refine ⟨(counts_moveTo h hstop).2 hcounts, haccepts, fun x hx hxaccepts => ?_⟩
    obtain ⟨y, rfl, hy⟩ := exists_of_applies_moveTo h hx.applies
    exact hnarrowest y ((counts_moveTo h hy.stop_eq).1 hx) hxaccepts

/-- **The rule for a trip is the same**, under its own number. -/
theorem rule?_moveTo (hs : s.WellFormed) (hs' : s'.WellFormed) (h : Renumbers r o s s') (t : Trip) :
    rule? (applicable s' (r.moveTo o)) t =
      (rule? (applicable s r) t).map fun e => e.moveTo o := by
  apply Option.ext
  intro x
  rw [rule?_eq_some_iff hs', Option.map_eq_some_iff]
  simp only [rule?_eq_some_iff hs]
  constructor
  · intro hx
    obtain ⟨e, rfl, he⟩ := exists_of_applies_moveTo h hx.counts.applies
    exact ⟨e, (prevails_moveTo h he.stop_eq).1 hx, rfl⟩
  · rintro ⟨e, he, rfl⟩
    exact (prevails_moveTo h he.counts.applies.stop_eq).2 he

/-- No entry applies when none does under the other number. -/
theorem applicable_moveTo_eq_nil_iff (hs : s.WellFormed) (hs' : s'.WellFormed)
    (h : Renumbers r o s s') : applicable s' (r.moveTo o) = [] ↔ applicable s r = [] := by
  rw [applicable_eq_nil_iff hs, applicable_eq_nil_iff hs']
  constructor
  · intro hnone e he
    exact hnone (e.moveTo o) ((counts_moveTo h he.applies.stop_eq).2 he)
  · intro hnone x hx
    obtain ⟨e, rfl, he⟩ := exists_of_applies_moveTo h hx.applies
    exact hnone e ((counts_moveTo h he.stop_eq).1 hx)

/-! ## Boardings -/

/-- The verdict on a trip does not hang on the number of the stop in the rule. -/
theorem judge_moveTo (rule : Option Entry) (time : Time) :
    judge d cfg (r.moveTo o) (rule.map fun e => e.moveTo o) time = judge d cfg r rule time := by
  cases rule <;> rfl

/-- The candidates are the same under the other number. -/
theorem survey_moveTo (hs : s.WellFormed) (hs' : s'.WellFormed) (h : Renumbers r o s s')
    (trips : List Trip) :
    survey d cfg (r.moveTo o) (applicable s' (r.moveTo o)) p trips =
      survey d cfg r (applicable s r) p trips := by
  have hcandidate : candidate? d cfg (r.moveTo o) (applicable s' (r.moveTo o)) p =
      candidate? d cfg r (applicable s r) p := by
    funext t
    unfold candidate?
    simp only [rule?_moveTo hs hs' h, judge_moveTo]
    rfl
  unfold survey
  rw [hcandidate]

/-- **The boarding is the same, but for the stop at which it is**: the slots hold the same entries under
two numbers of the rider's stop, and the patterns have the same trips. -/
theorem inSlot?_moveTo (hs : s.WellFormed) (hs' : s'.WellFormed) (h : Renumbers r o s s')
    {pattern pattern' : Pattern} (htrips : pattern'.trips = pattern.trips) {stop stop' : StopOrdinal}
    (hstop : pattern.stops[p]? = some stop) (hstop' : pattern'.stops[p]? = some stop') :
    inSlot? d cfg pattern' s' p (r.moveTo o) =
      (inSlot? d cfg pattern s p r).map fun b => b.moveTo stop' := by
  by_cases happ : applicable s r = []
  · rw [inSlot?_of_not_applicable happ,
      inSlot?_of_not_applicable ((applicable_moveTo_eq_nil_iff hs hs' h).2 happ)]
    rfl
  · have happ' : applicable s' (r.moveTo o) ≠ [] := mt (applicable_moveTo_eq_nil_iff hs hs' h).1 happ
    rw [inSlot?_of_applicable happ hstop, inSlot?_of_applicable happ' hstop',
      survey_moveTo hs hs' h, htrips, Option.map_map]
    rfl

end Search

end Interchange
