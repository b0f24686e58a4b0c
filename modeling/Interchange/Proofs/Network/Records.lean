import Interchange.Proofs.Network.Building
import Mathlib.Data.List.Perm.Basic

/-!
# What the trip records say

A trip is made of a record alone, and the arrangement of the trips of a pattern can be told from the records.

* `TripRecord.calls` — the calls that are recorded; without departures a trip departs when it arrives.
  `TripRecord.makes_iff` — the trip that a record makes has just these calls, and
  `TripRecord.exists_makes_iff` — it makes one when its times run in order.
* `TripRecord.startsFirst` — which of two records comes in front: by the first departure, ties by id.
  `TripRecord.startsBefore` — the same of two different ones.
* `PatternRecord.Row` — the trips of a record in that order. `PatternRecord.Row.makes_arrange` — they make the
  arranged trips, one for one, and `PatternRecord.exists_row` — there is such a row.
-/

namespace Interchange

/-! ## Records of trips -/

namespace TripRecord

/-- The departures of a record: those that are stored, or else the arrivals. -/
def departureTimes (r : TripRecord) : List Time := r.departures.getD r.arrivals

/-- The calls of a record. -/
def calls (r : TripRecord) : List Call := List.zipWith Call.mk r.arrivals r.departureTimes

/-- A record calls where it has an arrival and a departure. -/
theorem getElem?_calls {r : TripRecord} {p : Position} {c : Call} :
    r.calls[p]? = some c ↔
      r.arrivals[p]? = some c.arrival ∧ r.departureTimes[p]? = some c.departure := by
  unfold calls
  rw [List.getElem?_zipWith]
  cases c
  cases r.arrivals[p]? <;> cases r.departureTimes[p]? <;> simp

/-- A record calls as often as it arrives, if it departs as often. -/
theorem length_calls {r : TripRecord} (h : r.arrivals.length = r.departureTimes.length) :
    r.calls.length = r.arrivals.length := by
  simp [calls, List.length_zipWith, ← h]

/-- **Which trip a record makes.** It runs on the route, has no number yet and calls as is recorded. -/
theorem makes_iff {route : RouteId} {r : TripRecord} {t : Trip} :
    r.Makes route t ↔ t.id = r.id ∧ t.route = route ∧ t.index = 0 ∧ t.calls = r.calls ∧
      r.arrivals.length = r.departureTimes.length :=
  Trip.ofTimes_eq_ok_iff

/-- **When a record makes a trip**: it calls somewhere, arrives as often as it departs, and its times run in
order. -/
theorem exists_makes_iff {route : RouteId} {r : TripRecord} :
    (∃ t, r.Makes route t) ↔ r.arrivals ≠ [] ∧ r.arrivals.length = r.departureTimes.length ∧
      (Call.interleave r.calls).IsChain (· ≤ ·) := by
  have hmakes : (∃ t, r.Makes route t) ↔ r.arrivals.length = r.departureTimes.length ∧ r.arrivals ≠ [] ∧
      Call.firstDecrease none r.calls = none := Trip.exists_ofTimes_iff
  rw [hmakes, Call.firstDecrease_eq_none_iff, and_left_comm]
  rfl

/-- Whether a record starts no later than another; of two that start together, the one with the smaller id
comes first. Records without times do not start. -/
def startsFirst (a b : TripRecord) : Bool :=
  match a.departureTimes.head?, b.departureTimes.head? with
  | some x, some y => decide (x < y) || (decide (x = y) && decide (a.id ≤ b.id))
  | _, _ => false

/-- Two records that start before each other have one id. -/
theorem id_eq_of_startsFirst {a b : TripRecord} (hab : a.startsFirst b = true)
    (hba : b.startsFirst a = true) : a.id = b.id := by
  unfold startsFirst at hab hba
  cases ha : a.departureTimes.head? <;> cases hb : b.departureTimes.head? <;> simp only [ha, hb] at hab hba
  · cases hab
  · cases hab
  · cases hab
  · simp only [Bool.or_eq_true, Bool.and_eq_true, decide_eq_true_eq, Time.lt_def] at hab hba
    rcases hab with hlt | ⟨rfl, hle⟩
    · rcases hba with hlt' | ⟨rfl, -⟩ <;> omega
    · rcases hba with hlt | ⟨-, hle'⟩
      · omega
      · exact Id.ext_text (String.le_antisymm hle hle')

/-- Whether a record starts before another: the two have ids of their own, and it starts first. -/
def startsBefore (a b : TripRecord) : Bool := decide (a.id ≠ b.id) && a.startsFirst b

/-- A trip starts when its record departs first. -/
theorem Makes.head?_departureTimes {route : RouteId} {r : TripRecord} {t : Trip}
    (h : r.Makes route t) : r.departureTimes.head? = some t.start := by
  obtain ⟨-, -, -, hcalls, -⟩ := makes_iff.1 h
  have hfirst : r.calls[0]? = some (t.calls.head t.calls_ne_nil) := hcalls ▸ t.getElem?_calls_zero
  rw [List.head?_eq_getElem?]
  exact (getElem?_calls.1 hfirst).2

/-- Trips start in the order of their records. -/
theorem Makes.startsFirst_eq {route : RouteId} {r r' : TripRecord} {t t' : Trip} (h : r.Makes route t)
    (h' : r'.Makes route t') : r.startsFirst r' = Pattern.startsFirst t t' := by
  unfold startsFirst Pattern.startsFirst
  rw [h.head?_departureTimes, h'.head?_departureTimes, h.id_eq, h'.id_eq]

end TripRecord

/-! ## Matched rows -/

section Matched

variable {α β : Type} {R : α → β → Prop} {as : List α} {bs : List β}

/-- Of two matched rows one is pairwise related when the other is. -/
theorem pairwise_iff_of_forall₂ {S : α → α → Prop} {S' : β → β → Prop}
    (hS : ∀ a b a' b', R a b → R a' b' → (S a a' ↔ S' b b')) (h : List.Forall₂ R as bs) :
    as.Pairwise S ↔ bs.Pairwise S' := by
  induction h with
  | nil => simp
  | @cons a b as bs hab hrest ih =>
    rw [List.pairwise_cons, List.pairwise_cons, ih]
    refine and_congr_left fun _ => ⟨fun hfirst b' hb' => ?_, fun hfirst a' ha' => ?_⟩
    · obtain ⟨a', ha', hab'⟩ := exists_of_forall₂_of_mem hrest hb'
      exact (hS a b a' b' hab hab').1 (hfirst a' ha')
    · obtain ⟨b', hb', hab'⟩ := exists_of_forall₂_of_mem hrest.flip ha'
      exact (hS a b a' b' hab hab').2 (hfirst b' hb')

/-- Of two matched rows one is related from neighbour to neighbour when the other is. -/
theorem isChain_iff_of_forall₂ {S : α → α → Prop} {S' : β → β → Prop}
    (hS : ∀ a b a' b', R a b → R a' b' → (S a a' ↔ S' b b')) (h : List.Forall₂ R as bs) :
    as.IsChain S ↔ bs.IsChain S' := by
  induction h with
  | nil => simp
  | @cons a b as bs hab hrest ih =>
    cases hrest with
    | nil => simp
    | @cons a' b' as bs hab' hrest =>
      rw [List.isChain_cons_cons, List.isChain_cons_cons, ih, hS a b a' b' hab hab']

/-- In a row that is ordered strictly as many elements come before one as its place says. -/
theorem countP_eq_of_getElem? {before : α → α → Bool}
    (h : as.Pairwise fun a b => before a b = true ∧ before b a = false)
    (hself : ∀ a, before a a = false) {i : Nat} {a : α} (ha : as[i]? = some a) :
    (as.countP fun x => before x a) = i := by
  induction as generalizing i with
  | nil => cases ha
  | cons b as ih =>
    obtain ⟨hb, has⟩ := List.pairwise_cons.1 h
    rw [List.countP_cons]
    cases i with
    | zero =>
      cases ha
      have hnone : (as.countP fun x => before x a) = 0 :=
        List.countP_eq_zero.2 fun x hx => by simp [(hb x hx).2]
      simp [hnone, hself]
    | succ i =>
      rw [List.getElem?_cons_succ] at ha
      simp [ih has ha, (hb a (List.mem_of_getElem? ha)).1]

end Matched

/-! ## The trips of a record in order -/

/-- The trips of a record in the order of their starts, ties by id. Where no two share an id there is one such
row at most. -/
structure PatternRecord.Row (r : PatternRecord) (row : List TripRecord) : Prop where
  perm : row.Perm r.trips
  inOrder : row.Pairwise fun a b => a.startsFirst b = true

/-- The trips of a record have one order at least, if each makes a trip. -/
theorem PatternRecord.exists_row {r : PatternRecord} {trips : List Trip}
    (h : List.Forall₂ (TripRecord.Makes r.route) r.trips trips) :
    ∃ row, r.Row row ∧
      List.Forall₂ (TripRecord.Makes r.route) row (arrange Pattern.startsFirst trips) := by
  obtain ⟨row, hrow, hperm⟩ := List.perm_comp_forall₂ (arrange_perm Pattern.startsFirst trips) h.flip
  have harranged : (arrange Pattern.startsFirst trips).Pairwise fun a b =>
      Pattern.startsFirst a b = true :=
    pairwise_arrange Pattern.startsFirst_total Pattern.startsFirst_trans trips
  refine ⟨row, ⟨hperm, ?_⟩, hrow.flip⟩
  refine (pairwise_iff_of_forall₂ (fun a b a' b' hab hab' => ?_) hrow).1 harranged
  rw [TripRecord.Makes.startsFirst_eq hab hab']

/-- **Records in order make the arranged trips**, if they have ids of their own. -/
theorem PatternRecord.Row.makes_arrange {r : PatternRecord} {row : List TripRecord} (hrow : r.Row row)
    {trips : List Trip} (h : List.Forall₂ (TripRecord.Makes r.route) r.trips trips)
    (hids : (r.trips.map (·.id)).Nodup) :
    List.Forall₂ (TripRecord.Makes r.route) row (arrange Pattern.startsFirst trips) := by
  obtain ⟨row', hrow', hmakes⟩ := PatternRecord.exists_row h
  have hsame : row = row' := by
    refine List.Perm.eq_of_pairwise (fun a b ha hb hab hba => ?_) hrow.inOrder hrow'.inOrder
      (hrow.perm.trans hrow'.perm.symm)
    have ha : a ∈ r.trips := hrow.perm.mem_iff.1 ha
    have hb : b ∈ r.trips := hrow'.perm.mem_iff.1 hb
    exact List.inj_on_of_nodup_map hids ha hb (TripRecord.id_eq_of_startsFirst hab hba)
  rw [hsame]
  exact hmakes

/-- Trips have the ids of the records that make them. -/
theorem TripRecord.map_id_of_makes {route : RouteId} {rs : List TripRecord} {trips : List Trip}
    (h : List.Forall₂ (TripRecord.Makes route) rs trips) : trips.map (·.id) = rs.map (·.id) := by
  induction h with
  | nil => rfl
  | cons hmake _ ih => rw [List.map_cons, List.map_cons, ih, hmake.id_eq]

/-- A pattern carries the trips of its record, by their ids. -/
theorem PatternRecord.Makes.map_id_trips_perm {s : StopIndex} {r : PatternRecord} {p : Pattern}
    (h : r.Makes s p) : (p.trips.map (·.id)).Perm (r.trips.map (·.id)) := by
  obtain ⟨-, trips, hmakes, hp⟩ := h
  obtain ⟨-, -, -, htrips⟩ := Pattern.fields_of_ofTrips hp
  rw [htrips, Pattern.map_id_number, ← TripRecord.map_id_of_makes hmakes]
  exact (arrange_perm _ trips).map _

/-- A record stands in the row behind as many others as start before it, if no two share an id. -/
theorem PatternRecord.Row.countP_startsBefore {r : PatternRecord} {row : List TripRecord} (hrow : r.Row row)
    (hids : (r.trips.map (·.id)).Nodup) {i : Nat} {t : TripRecord} (ht : row[i]? = some t) :
    (r.trips.countP fun x => x.startsBefore t) = i := by
  have hne : row.Pairwise fun a b => a.id ≠ b.id :=
    List.pairwise_map.1 ((hrow.perm.map _).nodup_iff.2 hids)
  rw [← hrow.perm.countP_eq]
  refine countP_eq_of_getElem? ((hne.and hrow.inOrder).imp fun {a b} hab => ?_) (fun a => ?_) ht
  · refine ⟨by simp [TripRecord.startsBefore, hab], (Bool.not_eq_true _).mp fun hba => ?_⟩
    exact hab.1 (TripRecord.id_eq_of_startsFirst hab.2 (Bool.and_eq_true_iff.1 hba).2)
  · simp [TripRecord.startsBefore]

end Interchange
