import Interchange.Timetable.Trip
import Mathlib.Data.List.Chain
import Mathlib.Order.Bounds.Basic

/-!
# Which lists of times make a trip

A trip is made of two lists, its arrivals and its departures. Position by position it is tested that a departure
is not before its arrival, nor an arrival before the departure in front of it. These tests of neighbours find out
whether the times run in order as a whole, and the first position that fails is the first up to which they do not.

* `Time.alternate` — the times of the two lists in the order of travel.
* `Call.firstDecrease_eq_none_iff_pairwise` — a row of calls has no decrease when its times run in order.
  `Call.firstDecrease_take` — what is found among the first calls does not depend on those behind them.
  `Call.firstDecrease_eq_some_iff` — so a first decrease is at the least position up to which the times are out of
  order.
* `Trip.ofTimes_eq_ok_iff` — which trip is made. `Trip.exists_ofTimes_iff`, `Trip.ofTimes_eq_decreasingTimes_iff` —
  when one is made, and when it is refused for the order of its times.
* `Trip.ofTimes_iff_pairwise_alternate` — the same, with what it means for the times as a whole.
-/

namespace Interchange

/-- The times of a trip in the order of travel: the first arrival, the first departure, the second arrival, and so
on. -/
def Time.alternate : List Time → List Time → List Time
  | a :: arrivals, d :: departures => a :: d :: alternate arrivals departures
  | _, _ => []

/-! ## Rows of calls -/

namespace Call

/-- The calls at two lists of times have the times of the lists in turn. -/
theorem interleave_zipWith (arrivals departures : List Time) :
    interleave (List.zipWith Call.mk arrivals departures) = Time.alternate arrivals departures := by
  induction arrivals generalizing departures with
  | nil => rfl
  | cons a arrivals ih =>
    cases departures with
    | nil => rfl
    | cons d departures => exact congrArg (fun times => a :: d :: times) (ih departures)

/-- A call has two times, so the first calls have twice as many times. -/
theorem interleave_take (calls : List Call) (n : Nat) :
    interleave (calls.take n) = (interleave calls).take (2 * n) := by
  induction calls generalizing n with
  | nil => simp [interleave]
  | cons c rest ih =>
    cases n with
    | zero => rfl
    | succ n => exact congrArg (fun times => c.arrival :: c.departure :: times) (ih n)

/-- A row of calls has no decrease, coming from a departure if there is one, when its times run in order. -/
theorem firstDecrease_eq_none_iff {before : Option Time} {calls : List Call} :
    firstDecrease before calls = none ↔ (before.toList ++ interleave calls).IsChain (· ≤ ·) := by
  induction calls generalizing before with
  | nil => cases before <;> simp [firstDecrease, interleave]
  | cons c rest ih =>
    have hstep : firstDecrease before (c :: rest) = none ↔
        ¬ (c.departure < c.arrival ∨ before.any (fun d => decide (c.arrival < d)) = true) ∧
          firstDecrease (some c.departure) rest = none := by
      rw [firstDecrease]
      split <;> simp_all only [Option.map_eq_none_iff, reduceCtorEq, not_true_eq_false, false_and,
        not_false_eq_true, true_and]
    have hle : ∀ x y : Time, ¬ x < y ↔ y ≤ x := fun x y => by simp [Time.lt_def, Time.le_def]
    have htimes : interleave (c :: rest) = c.arrival :: c.departure :: interleave rest := rfl
    rw [hstep, ih, htimes, not_or, hle]
    cases before with
    | none => simp [List.isChain_cons_cons]
    | some d => simp [List.isChain_cons_cons, hle, and_assoc, and_left_comm]

/-- A row of calls has no decrease when none of its times is behind a later one. -/
theorem firstDecrease_eq_none_iff_pairwise {calls : List Call} :
    firstDecrease none calls = none ↔ (interleave calls).Pairwise (· ≤ ·) :=
  ⟨fun h => (pairwise_of_firstDecrease h).1, fun h => firstDecrease_eq_none_iff.2 h.isChain⟩

/-- The first calls have the decrease of the whole row if it is among them, and none otherwise. -/
theorem firstDecrease_take (before : Option Time) (calls : List Call) (n : Nat) :
    firstDecrease before (calls.take n) =
      (firstDecrease before calls).filter fun p => decide (p < n) := by
  induction calls generalizing before n with
  | nil => rw [List.take_nil, firstDecrease, Option.filter_none]
  | cons c rest ih =>
    cases n with
    | zero => exact (Option.filter_eq_none_iff.2 fun p _ => by simp).symm
    | succ n =>
      rw [List.take_succ_cons, firstDecrease, firstDecrease]
      split
      · exact (Option.filter_some_pos (by simp)).symm
      · -- behind the first call the positions, and so the bound, move by one
        rw [ih, Option.filter_map]
        congr 2
        funext p
        simp

/-- The first calls run in order unless a decrease is among them. -/
theorem pairwise_interleave_take_iff {calls : List Call} {n : Nat} :
    (interleave (calls.take n)).Pairwise (· ≤ ·) ↔ ∀ p, firstDecrease none calls = some p → n ≤ p := by
  rw [← firstDecrease_eq_none_iff_pairwise, firstDecrease_take, Option.filter_eq_none_iff]
  simp

/-- A decrease is at one of the calls. -/
theorem lt_length_of_firstDecrease {before : Option Time} {calls : List Call} {p : Position}
    (h : firstDecrease before calls = some p) : p < calls.length := by
  have htake := firstDecrease_take before calls calls.length
  rw [List.take_length, h] at htake
  simpa using htake.symm

/-- The first decrease is at a position up to which the times are out of order, and before it they are not. -/
theorem isLeast_of_firstDecrease {calls : List Call} {p : Position} (h : firstDecrease none calls = some p) :
    IsLeast {q | q < calls.length ∧ ¬ (interleave (calls.take (q + 1))).Pairwise (· ≤ ·)} p := by
  refine ⟨⟨lt_length_of_firstDecrease h, fun hordered => ?_⟩, fun q hq => ?_⟩
  · exact absurd (pairwise_interleave_take_iff.1 hordered p h) (by omega)
  · by_contra hlt
    refine hq.2 (pairwise_interleave_take_iff.2 fun p' h' => ?_)
    obtain rfl := Option.some.inj (h.symm.trans h')
    omega

/-- **The first decrease is at the least position up to which the times are out of order.** -/
theorem firstDecrease_eq_some_iff {calls : List Call} {p : Position} :
    firstDecrease none calls = some p ↔
      IsLeast {q | q < calls.length ∧ ¬ (interleave (calls.take (q + 1))).Pairwise (· ≤ ·)} p := by
  refine ⟨isLeast_of_firstDecrease, fun h => ?_⟩
  rcases hd : firstDecrease none calls with _ | p'
  · refine absurd (pairwise_interleave_take_iff.2 fun q hq => ?_) h.1.2
    cases hd.symm.trans hq
  · rw [(isLeast_of_firstDecrease hd).unique h]

/-- Each call is in order, but the second arrives before the first has departed. -/
example : firstDecrease none [⟨.ofInt 0, .ofInt 30⟩, ⟨.ofInt 20, .ofInt 40⟩] = some 1 := by decide

end Call

/-! ## Making a trip -/

namespace Trip

variable {id : TripId} {route : RouteId} {arrivals departures : List Time}

/-- **Which trip is made.** It has the given names, no number yet, and calls at the given times, of which there
are equally many. -/
theorem ofTimes_eq_ok_iff {t : Trip} :
    ofTimes id route arrivals departures = .ok t ↔
      t.id = id ∧ t.route = route ∧ t.index = 0 ∧ t.calls = List.zipWith Call.mk arrivals departures ∧
        arrivals.length = departures.length := by
  unfold ofTimes
  constructor
  · intro h
    split at h
    · cases h
    split at h
    · rename_i hlen
      dsimp only at h
      split at h
      · cases h
      · cases h
        exact ⟨rfl, rfl, rfl, rfl, hlen⟩
    · cases h
  · rintro ⟨hid, hroute, hindex, hcalls, hlen⟩
    have hne : arrivals ≠ [] := by
      rintro rfl
      exact t.calls_ne_nil hcalls
    have hordered : Call.firstDecrease none (List.zipWith Call.mk arrivals departures) = none :=
      Call.firstDecrease_eq_none_iff_pairwise.2 (hcalls ▸ t.ordered)
    rw [dif_neg hne, dif_pos hlen]
    dsimp only
    split
    · rename_i hdecrease
      cases hordered.symm.trans hdecrease
    · cases t
      simp only at hid hroute hindex hcalls
      subst hid hroute hindex hcalls
      rfl

/-- A trip is made when there are equally many times of both kinds, and some, and none of the calls goes back in
time. -/
theorem exists_ofTimes_iff :
    (∃ t, ofTimes id route arrivals departures = .ok t) ↔
      arrivals.length = departures.length ∧ arrivals ≠ [] ∧
        Call.firstDecrease none (List.zipWith Call.mk arrivals departures) = none := by
  constructor
  · rintro ⟨t, ht⟩
    obtain ⟨-, -, -, hcalls, hlen⟩ := ofTimes_eq_ok_iff.1 ht
    refine ⟨hlen, ?_, Call.firstDecrease_eq_none_iff_pairwise.2 (hcalls ▸ t.ordered)⟩
    rintro rfl
    exact t.calls_ne_nil hcalls
  · rintro ⟨hlen, hne, hnone⟩
    have hcalls : List.zipWith Call.mk arrivals departures ≠ [] := by
      rw [Ne, List.zipWith_eq_nil_iff]
      rintro (hnil | rfl)
      · exact hne hnil
      · exact hne (List.eq_nil_of_length_eq_zero hlen)
    exact ⟨⟨id, route, 0, _, hcalls, (Call.pairwise_of_firstDecrease hnone).1⟩,
      ofTimes_eq_ok_iff.2 ⟨rfl, rfl, rfl, rfl, hlen⟩⟩

/-- Times are refused for their order when there are equally many of both kinds, and some, and one of the calls
goes back in time; the first that does is told. -/
theorem ofTimes_eq_decreasingTimes_iff {p : Position} :
    ofTimes id route arrivals departures = .error (.decreasingTimes id p) ↔
      arrivals.length = departures.length ∧ arrivals ≠ [] ∧
        Call.firstDecrease none (List.zipWith Call.mk arrivals departures) = some p := by
  unfold ofTimes
  by_cases hne : arrivals = []
  · simp [hne]
  by_cases hlen : arrivals.length = departures.length
  · rw [dif_neg hne, dif_pos hlen]
    dsimp only
    split
    · rename_i q hq
      simp [hq, hlen, hne]
    · rename_i hq
      simp [hq]
  · simp [hne, hlen]

/-- **A trip is made of times that run in order as a whole.** It is made when there are as many arrivals as
departures, and some, and none of the times is behind a later one. When the order alone is wrong, the least
position is told at whose departure the times so far are out of order. -/
theorem ofTimes_iff_pairwise_alternate (id : TripId) (route : RouteId) (arrivals departures : List Time) :
    ((∃ t, ofTimes id route arrivals departures = .ok t) ↔
      arrivals.length = departures.length ∧ arrivals ≠ [] ∧
        (Time.alternate arrivals departures).Pairwise (· ≤ ·)) ∧
    ((∃ p, ofTimes id route arrivals departures = .error (.decreasingTimes id p)) ↔
      arrivals.length = departures.length ∧ arrivals ≠ [] ∧
        ¬ (Time.alternate arrivals departures).Pairwise (· ≤ ·)) ∧
    ∀ p, ofTimes id route arrivals departures = .error (.decreasingTimes id p) ↔
      arrivals.length = departures.length ∧ arrivals ≠ [] ∧
        IsLeast {q | q < arrivals.length ∧
          ¬ ((Time.alternate arrivals departures).take (2 * (q + 1))).Pairwise (· ≤ ·)} p := by
  have hpairwise : (Time.alternate arrivals departures).Pairwise (· ≤ ·) ↔
      Call.firstDecrease none (List.zipWith Call.mk arrivals departures) = none := by
    rw [Call.firstDecrease_eq_none_iff_pairwise, Call.interleave_zipWith]
  refine ⟨?_, ?_, fun p => ?_⟩
  · rw [hpairwise]
    exact exists_ofTimes_iff
  · rw [hpairwise, ← ne_eq, Option.ne_none_iff_exists']
    simp only [ofTimes_eq_decreasingTimes_iff, exists_and_left]
  · rw [ofTimes_eq_decreasingTimes_iff]
    refine and_congr_right fun hlen => and_congr_right fun _ => ?_
    have hcalls : (List.zipWith Call.mk arrivals departures).length = arrivals.length := by
      simp [List.length_zipWith, ← hlen]
    simp only [Call.firstDecrease_eq_some_iff, Call.interleave_take, Call.interleave_zipWith, hcalls]

end Trip

end Interchange
