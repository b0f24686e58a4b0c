import Interchange.Order
import Mathlib.Data.List.Induction
import Mathlib.Data.List.Nodup

/-!
# Rows without repetition, and rows in order of weight

What is registered one after another is a row. Of a row that is kept by key the first element of each
key counts; in a row that is kept by weight the heavier elements stand in front, and those of one weight
keep the order they came in.

* `find?_eq_some_iff_of_nodup` — what is found by a key, where no two elements share one.
* `firstOfEach` — the elements whose key is new. One more element at the end counts if its key is new,
  `firstOfEach_append_singleton`.
* `pairwise_insertBefore` — where an element has to be put for a row to stay in order.
* `eq_of_filter_weight_eq` — a row in order of weight is told by its elements of each weight.
* `mergeSort_append_singleton` — to sort a row with one more element at its end is to sort the row and to
  put the element behind those of its own weight and in front of the lighter ones.
-/

namespace Interchange

/-! ## Rows that are kept by key -/

section Keys

variable {α κ : Type} [DecidableEq κ] {key : α → κ}

/-- Where no two elements of a row share a key, the one that has a key is found by it. -/
theorem find?_eq_some_iff_of_nodup {l : List α} (h : (l.map key).Nodup) {k : κ} {a : α} :
    (l.find? fun b => key b = k) = some a ↔ a ∈ l ∧ key a = k := by
  have hfound : ∀ b, (l.find? fun b => key b = k) = some b → b ∈ l ∧ key b = k := fun b hb =>
    ⟨List.mem_of_find?_eq_some hb, by simpa using List.find?_some hb⟩
  refine ⟨hfound a, ?_⟩
  rintro ⟨ha, hk⟩
  rcases hfind : l.find? fun b => key b = k with _ | b
  · rw [List.find?_eq_none] at hfind
    exact absurd (decide_eq_true hk) (hfind a ha)
  · obtain ⟨hb, hkb⟩ := hfound b hfind
    rw [List.inj_on_of_nodup_map h hb ha (hkb.trans hk.symm)]

/-- The elements of a row whose key no earlier element has. -/
def firstOfEach (key : α → κ) (l : List α) : List α :=
  l.eraseDupsBy fun later earlier => decide (key later = key earlier)

@[simp] theorem firstOfEach_nil : firstOfEach key [] = [] := rfl

/-- The first element of a row counts, and of the rest those that have another key and are the first to
have it. -/
theorem firstOfEach_cons (a : α) (l : List α) :
    firstOfEach key (a :: l) = a :: firstOfEach key (l.filter fun b => key b ≠ key a) := by
  unfold firstOfEach
  rw [List.eraseDupsBy_cons]
  simp

/-- One more element at the end of a row counts if its key is new. -/
theorem firstOfEach_append_singleton (a : α) : ∀ l : List α,
    firstOfEach key (l ++ [a]) =
      if key a ∈ l.map key then firstOfEach key l else firstOfEach key l ++ [a]
  | [] => by simp [firstOfEach_cons]
  | b :: l => by
    have ih := firstOfEach_append_singleton a (l.filter fun c => key c ≠ key b)
    rw [List.cons_append, firstOfEach_cons, firstOfEach_cons, List.filter_append]
    by_cases hab : key a = key b
    · rw [List.filter_cons_of_neg (by simpa using hab), List.filter_nil, List.append_nil,
        if_pos (by simp [hab])]
    · have hmem : key a ∈ (l.filter fun c => key c ≠ key b).map key ↔ key a ∈ (b :: l).map key := by
        simp only [List.mem_map, List.mem_filter, List.mem_cons, decide_eq_true_eq]
        constructor
        · rintro ⟨c, ⟨hc, -⟩, hk⟩
          exact ⟨c, .inr hc, hk⟩
        · rintro ⟨c, rfl | hc, hk⟩
          · exact absurd hk.symm hab
          · exact ⟨c, ⟨hc, hk ▸ hab⟩, hk⟩
      rw [List.filter_cons_of_pos (by simpa using hab), List.filter_nil, ih, apply_ite (b :: ·)]
      simp only [hmem, List.cons_append]
termination_by l => l.length
decreasing_by
  exact Nat.lt_succ_of_le (List.length_filter_le _ _)

/-- The keys of a row are those of the elements that count. -/
theorem mem_map_firstOfEach {k : κ} {l : List α} :
    k ∈ (firstOfEach key l).map key ↔ k ∈ l.map key := by
  induction l using List.reverseRecOn with
  | nil => exact Iff.rfl
  | append_singleton l a ih =>
    rw [firstOfEach_append_singleton, List.map_append, List.mem_append, List.map_singleton,
      List.mem_singleton]
    split
    · rename_i ha
      rw [ih]
      exact ⟨.inl, fun h => h.elim id fun hk => hk ▸ ha⟩
    · rw [List.map_append, List.mem_append, ih, List.map_singleton, List.mem_singleton]

end Keys

/-! ## Inserting in order -/

/-- An element that is put behind all that come before it and in front of the first that it comes before
leaves a row in order. -/
theorem pairwise_insertBefore {α : Type} {R : α → α → Prop} (htrans : ∀ a b c, R a b → R b c → R a c)
    {p : α → Bool} {a : α} (hfront : ∀ b, p b = true → R a b) (hbehind : ∀ b, p b = false → R b a)
    {l : List α} (h : l.Pairwise R) : (insertBefore p a l).Pairwise R := by
  induction l with
  | nil => exact List.pairwise_singleton R a
  | cons b rest ih =>
    obtain ⟨hb, hrest⟩ := List.pairwise_cons.1 h
    unfold insertBefore
    split
    · rename_i hp
      refine List.Pairwise.cons ?_ h
      intro x hx
      rcases List.mem_cons.1 hx with rfl | hx
      · exact hfront x hp
      · exact htrans a b x (hfront b hp) (hb x hx)
    · rename_i hp
      refine List.Pairwise.cons ?_ (ih hrest)
      intro x hx
      rcases mem_insertBefore.1 hx with rfl | hx
      · exact hbehind b (by simpa using hp)
      · exact hb x hx

/-! ## Order of weight -/

section Weight

variable {α : Type} {weight : α → Nat} {l l' : List α}

/-- An element that is put in front of the first lighter one leaves a row in order of weight. -/
theorem pairwise_insertBefore_weight (h : l.Pairwise fun a b => weight b ≤ weight a) (a : α) :
    (insertBefore (fun b => decide (weight b < weight a)) a l).Pairwise
      fun a b => weight b ≤ weight a := by
  have htrans : ∀ a b c, weight b ≤ weight a → weight c ≤ weight b → weight c ≤ weight a :=
    fun _ _ _ hab hbc => Nat.le_trans hbc hab
  refine pairwise_insertBefore htrans ?_ ?_ h
  · exact fun b hb => Nat.le_of_lt (of_decide_eq_true hb)
  · exact fun b hb => Nat.le_of_not_lt (of_decide_eq_false hb)

/-- Among the elements of one weight, an element that is put in front of the first lighter one comes
last. -/
theorem filter_weight_insertBefore (h : l.Pairwise fun a b => weight b ≤ weight a) (a : α) (n : Nat) :
    (insertBefore (fun b => decide (weight b < weight a)) a l).filter (fun b => weight b = n) =
      (l ++ [a]).filter fun b => weight b = n := by
  induction l with
  | nil => rfl
  | cons b rest ih =>
    obtain ⟨hb, hrest⟩ := List.pairwise_cons.1 h
    unfold insertBefore
    by_cases hlt : weight b < weight a
    · rw [if_pos (by simpa using hlt), List.filter_append]
      by_cases hn : weight a = n
      · -- only lighter elements follow
        have hnone : (b :: rest).filter (fun x => weight x = n) = [] := by
          simp only [List.filter_eq_nil_iff, List.mem_cons, decide_eq_true_eq]
          rintro x (rfl | hx)
          · omega
          · have := hb x hx
            omega
        rw [List.filter_cons_of_pos (by simpa using hn), hnone, List.nil_append,
          List.filter_cons_of_pos (by simpa using hn), List.filter_nil]
      · have hnone : [a].filter (fun x => weight x = n) = [] :=
          List.filter_cons_of_neg (by simpa using hn)
        rw [List.filter_cons_of_neg (by simpa using hn), hnone, List.append_nil]
    · rw [if_neg (by simpa using hlt), List.cons_append, List.filter_cons, List.filter_cons, ih hrest]

/-- Two rows with the same elements of each weight have the same elements. -/
theorem mem_iff_of_filter_weight_eq
    (hfilter : ∀ n, l.filter (fun a => weight a = n) = l'.filter fun a => weight a = n) (a : α) :
    a ∈ l ↔ a ∈ l' := by
  have hmem : a ∈ l.filter (fun x => weight x = weight a) ↔
      a ∈ l'.filter (fun x => weight x = weight a) := by
    rw [hfilter]
  simpa [List.mem_filter] using hmem

/-- A row in order has none heavier than its first element. -/
theorem weight_le_head {a b : α} (h : (a :: l).Pairwise fun a b => weight b ≤ weight a)
    (hb : b ∈ a :: l) : weight b ≤ weight a := by
  rcases List.mem_cons.1 hb with rfl | hb
  · exact Nat.le_refl _
  · exact (List.pairwise_cons.1 h).1 b hb

/-- **A row in order is told by its elements of each weight.** -/
theorem eq_of_filter_weight_eq (h : l.Pairwise fun a b => weight b ≤ weight a)
    (h' : l'.Pairwise fun a b => weight b ≤ weight a)
    (hfilter : ∀ n, l.filter (fun a => weight a = n) = l'.filter fun a => weight a = n) :
    l = l' := by
  have hmem := mem_iff_of_filter_weight_eq hfilter
  induction l generalizing l' with
  | nil => exact (List.eq_nil_iff_forall_not_mem.2 fun b hb => List.not_mem_nil ((hmem b).2 hb)).symm
  | cons a rest ih =>
    cases l' with
    | nil => exact absurd ((hmem a).1 List.mem_cons_self) List.not_mem_nil
    | cons b rest' =>
      -- both rows begin with the first of their heaviest elements
      have hweight : weight b = weight a :=
        Nat.le_antisymm (weight_le_head h ((hmem b).2 List.mem_cons_self))
          (weight_le_head h' ((hmem a).1 List.mem_cons_self))
      have hheads := hfilter (weight a)
      rw [List.filter_cons_of_pos (by simp), List.filter_cons_of_pos (by simpa using hweight)] at hheads
      obtain ⟨rfl, -⟩ := List.cons.inj hheads
      have hrests : ∀ n, rest.filter (fun x => weight x = n) = rest'.filter fun x => weight x = n := by
        intro n
        have hn := hfilter n
        rw [List.filter_cons, List.filter_cons] at hn
        split at hn
        · exact (List.cons.inj hn).2
        · exact hn
      rw [ih (List.pairwise_cons.1 h).2 (List.pairwise_cons.1 h').2 hrests
        (mem_iff_of_filter_weight_eq hrests)]

/-- Whether an element is no lighter than another. -/
def noLighter (weight : α → Nat) (a b : α) : Bool := decide (weight b ≤ weight a)

/-- Of three elements the first is no lighter than the last when each is no lighter than the next. -/
theorem noLighter_trans (a b c : α) (hab : noLighter weight a b = true)
    (hbc : noLighter weight b c = true) : noLighter weight a c = true := by
  simp only [noLighter, decide_eq_true_eq] at *
  omega

/-- Of two elements one is no lighter than the other. -/
theorem noLighter_total (a b : α) : (noLighter weight a b || noLighter weight b a) = true := by
  simp only [noLighter, Bool.or_eq_true, decide_eq_true_eq]
  omega

/-- A sorted row is in order. -/
theorem pairwise_mergeSort_weight (l : List α) :
    (l.mergeSort (noLighter weight)).Pairwise fun a b => weight b ≤ weight a := by
  simpa [noLighter] using List.pairwise_mergeSort noLighter_trans noLighter_total l

/-- Sorting keeps the elements of one weight in their order. -/
theorem filter_weight_mergeSort (l : List α) (n : Nat) :
    (l.mergeSort (noLighter weight)).filter (fun a => weight a = n) =
      l.filter fun a => weight a = n := by
  have hsame : (l.filter fun a => weight a = n).Pairwise fun a b => noLighter weight a b = true := by
    refine List.pairwise_filter.2 (List.pairwise_of_forall fun a b ha hb => ?_)
    simp only [noLighter, decide_eq_true_eq] at *
    omega
  have hsub : (l.filter fun a => weight a = n).Sublist (l.mergeSort (noLighter weight)) :=
    List.sublist_mergeSort noLighter_trans noLighter_total hsame List.filter_sublist
  have hsub' := hsub.filter fun a => weight a = n
  simp only [List.filter_filter, Bool.and_self] at hsub'
  exact (hsub'.eq_of_length ((List.mergeSort_perm l _).filter _).length_eq.symm).symm

/-- **To sort a row with one more element** is to sort the row and to put the element behind those of its own
weight and in front of the lighter ones. -/
theorem mergeSort_append_singleton (l : List α) (a : α) :
    (l ++ [a]).mergeSort (noLighter weight) =
      insertBefore (fun b => decide (weight b < weight a)) a (l.mergeSort (noLighter weight)) := by
  have hordered : (l.mergeSort (noLighter weight)).Pairwise fun a b => weight b ≤ weight a :=
    pairwise_mergeSort_weight l
  refine eq_of_filter_weight_eq (pairwise_mergeSort_weight _) (pairwise_insertBefore_weight hordered a)
    fun n => ?_
  rw [filter_weight_mergeSort, filter_weight_insertBefore hordered, List.filter_append,
    List.filter_append, filter_weight_mergeSort]

end Weight

end Interchange
