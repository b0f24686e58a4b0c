import Interchange.Proofs.Rows
import Interchange.Rule.Index

/-!
# What a slot holds

Entries are registered in a slot one after another. Whatever they are, the slot stays in a form that
a search can rely on, and it keeps the first entry of every key.

* `Slot.WellFormed` — no two entries share a key, and heavier entries stand in front of lighter ones;
  `wellFormed_register` is the step and `wellFormed_registerAll` the run.
* `Slot.holder?` — the entry with a key. `holder?_register` says what one registration does to it, and
  `holder?_registerAll` what a run does: a free key goes to the first entry that has it.
-/

namespace Interchange

/-! ## Weights -/

/-- Weights compare source sides first and target sides between equal source sides. -/
theorem Key.weight_le_iff {a b : Key} :
    a.weight ≤ b.weight ↔
      a.source.specificity.rank < b.source.specificity.rank ∨
        (a.source.specificity = b.source.specificity ∧
          a.target.specificity.rank ≤ b.target.specificity.rank) := by
  unfold Key.weight
  cases a.source.specificity <;> cases b.source.specificity <;> cases a.target.specificity <;>
    cases b.target.specificity <;> decide

namespace Slot

/-! ## The entry with a key -/

/-- The entry of a slot that has a key. -/
def holder? (s : Slot) (k : Key) : Option Entry := s.find? fun e => e.key = k

/-- The entry with a key is in the slot and has the key. -/
theorem mem_of_holder? {s : Slot} {k : Key} {e : Entry} (h : s.holder? k = some e) :
    e ∈ s ∧ e.key = k := by
  unfold holder? at h
  exact ⟨List.mem_of_find?_eq_some h, by simpa using List.find?_some h⟩

/-- A slot has an entry with a key when one of its entries has the key. -/
theorem exists_mem_key_iff {s : Slot} {k : Key} :
    (∃ e ∈ s, e.key = k) ↔ ∃ e, s.holder? k = some e := by
  rw [← Option.isSome_iff_exists]
  simp [holder?]

/-- A key is free when no entry has it. -/
theorem holder?_eq_none_iff {s : Slot} {k : Key} : s.holder? k = none ↔ ∀ e ∈ s, e.key ≠ k := by
  simp [holder?]

/-- Inserting an entry leaves every other key to whom it belongs. -/
theorem holder?_insert_of_ne (s : Slot) {e : Entry} {k : Key} (h : e.key ≠ k) :
    (s.insert e).holder? k = s.holder? k := by
  unfold holder? insert
  rw [insertBefore_eq_append, List.find?_append, List.find?_cons_of_neg (by simpa using h),
    ← List.find?_append, List.takeWhile_append_dropWhile]

/-- Inserting an entry gives it its key if the key was free. -/
theorem holder?_insert_self (s : Slot) {e : Entry} (h : s.holder? e.key = none) :
    (s.insert e).holder? e.key = some e := by
  unfold holder? insert at *
  rw [insertBefore_eq_append, List.find?_append, List.find?_cons_of_pos (by simp)]
  rw [← List.takeWhile_append_dropWhile (p := fun b => !decide (b.weight < e.weight)) (l := s),
    List.find?_append, Option.or_eq_none_iff] at h
  rw [h.1, Option.none_or]

/-- An entry is inserted if its key is free, and changes nothing otherwise. -/
theorem register_of_free {s : Slot} {e : Entry} (h : s.holder? e.key = none) :
    s.register e = (s.insert e, .added) := by
  unfold holder? at h
  rw [register, h]

/-- An entry whose key is held changes nothing; whether that is a conflict hangs on the holder. -/
theorem register_of_held {s : Slot} {e kept : Entry} (h : s.holder? e.key = some kept) :
    s.register e =
      (s, if kept.transfer = e.transfer then .duplicate else .conflict kept.transfer) := by
  unfold holder? at h
  rw [register, h]

/-- What one registration does to a key: it stays with whom it belongs to, and a free key goes to the
entry if it is its key. -/
theorem holder?_register (s : Slot) (e : Entry) (k : Key) :
    (s.register e).1.holder? k = (s.holder? k).or (if e.key = k then some e else none) := by
  by_cases hk : e.key = k
  · subst hk
    rw [if_pos rfl]
    rcases h : s.holder? e.key with _ | kept
    · rw [register_of_free h, holder?_insert_self s h, Option.none_or]
    · rw [register_of_held h, h, Option.some_or]
  · rw [if_neg hk, Option.or_none]
    rcases h : s.holder? e.key with _ | kept
    · rw [register_of_free h, holder?_insert_of_ne s hk]
    · rw [register_of_held h]

/-! ## Order and distinct keys -/

/-- The form of a slot: no two entries share a key, and no entry stands in front of a heavier
one. -/
structure WellFormed (s : Slot) : Prop where
  keys_nodup : (s.map (·.key)).Nodup
  ordered : s.Pairwise fun a b => b.weight ≤ a.weight

/-- An entry is inserted behind all that are no lighter and in front of the lighter ones, so the
slot stays ordered. -/
theorem ordered_insert {s : Slot} (h : s.Pairwise fun a b => b.weight ≤ a.weight) (e : Entry) :
    (s.insert e).Pairwise fun a b => b.weight ≤ a.weight :=
  pairwise_insertBefore_weight h e

/-- The empty slot is well-formed. -/
theorem wellFormed_nil : WellFormed [] := ⟨List.nodup_nil, List.Pairwise.nil⟩

/-- Registering an entry keeps a slot well-formed. -/
theorem wellFormed_register {s : Slot} (h : s.WellFormed) (e : Entry) :
    (s.register e).1.WellFormed := by
  rcases hk : s.holder? e.key with _ | kept
  · rw [register_of_free hk]
    refine ⟨?_, ordered_insert h.ordered e⟩
    have hfree : e.key ∉ s.map (·.key) := by
      intro hmem
      obtain ⟨x, hx, hxk⟩ := List.mem_map.1 hmem
      exact holder?_eq_none_iff.1 hk x hx hxk
    have hperm : ((s.insert e).map (·.key)).Perm ((e :: s).map (·.key)) :=
      (insertBefore_perm _ e s).map _
    rw [hperm.nodup_iff, List.map_cons, List.nodup_cons]
    exact ⟨hfree, h.keys_nodup⟩
  · rw [register_of_held hk]
    exact h

/-- In a well-formed slot an entry is the one with its key. -/
theorem WellFormed.mem_iff {s : Slot} (h : s.WellFormed) {e : Entry} :
    e ∈ s ↔ s.holder? e.key = some e := by
  unfold holder?
  rw [find?_eq_some_iff_of_nodup h.keys_nodup, and_iff_left rfl]

/-- In a well-formed slot two entries with one key are the same. -/
theorem WellFormed.eq_of_key_eq {s : Slot} (h : s.WellFormed) {a b : Entry} (ha : a ∈ s)
    (hb : b ∈ s) (hk : a.key = b.key) : a = b := by
  have ha' := h.mem_iff.1 ha
  rw [hk, h.mem_iff.1 hb] at ha'
  exact (Option.some.inj ha').symm

/-! ## A run of registrations -/

/-- Registers entries one after another. -/
def registerAll (s : Slot) (es : List Entry) : Slot := es.foldl (fun s e => (s.register e).1) s

/-- What a run of registrations does to a key: it stays with whom it belongs to, and a free key goes
to the first entry that has it. -/
theorem holder?_registerAll (s : Slot) (es : List Entry) (k : Key) :
    (s.registerAll es).holder? k = (s.holder? k).or (es.find? fun e => e.key = k) := by
  induction es generalizing s with
  | nil => exact Option.or_none.symm
  | cons e es ih =>
    have hstep : s.registerAll (e :: es) = (s.register e).1.registerAll es := rfl
    rw [hstep, ih, holder?_register, Option.or_assoc, List.find?_cons]
    by_cases hk : e.key = k
    · rw [if_pos hk, Option.some_or, decide_eq_true hk]
    · rw [if_neg hk, Option.none_or, decide_eq_false hk]

/-- A run of registrations keeps a slot well-formed. -/
theorem wellFormed_registerAll {s : Slot} (h : s.WellFormed) (es : List Entry) :
    (s.registerAll es).WellFormed := by
  induction es generalizing s with
  | nil => exact h
  | cons e es ih => exact ih (wellFormed_register h e)

end Slot

end Interchange
