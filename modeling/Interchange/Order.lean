/-!
# Insertion into an ordered list

* `insertBefore p a l` — puts `a` in front of the first element of `l` that satisfies `p`.
* `arrange le l` — the stable arrangement of `l` by a relation: every element is put in front of the
  first later one that it precedes.
-/

namespace Interchange

variable {α : Type}

/-- Puts an element in front of the first one that satisfies a test, or at the end when none does. -/
def insertBefore (p : α → Bool) (a : α) : List α → List α
  | [] => [a]
  | b :: rest => if p b then a :: b :: rest else b :: insertBefore p a rest

/-- Inserting splits a list where the test first holds. -/
theorem insertBefore_eq_append (p : α → Bool) (a : α) (l : List α) :
    insertBefore p a l = l.takeWhile (fun b => !p b) ++ a :: l.dropWhile (fun b => !p b) := by
  induction l with
  | nil => rfl
  | cons b rest ih => by_cases h : p b <;> simp [insertBefore, h, ih]

/-- Inserting adds the element and changes nothing else. -/
theorem insertBefore_perm (p : α → Bool) (a : α) (l : List α) :
    (insertBefore p a l).Perm (a :: l) := by
  induction l with
  | nil => exact List.Perm.refl _
  | cons b rest ih =>
    by_cases h : p b
    · simp [insertBefore, h]
    · simpa [insertBefore, h] using (ih.cons b).trans (List.Perm.swap a b rest)

/-- What a list holds after inserting. -/
theorem mem_insertBefore {p : α → Bool} {a b : α} {l : List α} :
    b ∈ insertBefore p a l ↔ b = a ∨ b ∈ l := by
  rw [(insertBefore_perm p a l).mem_iff, List.mem_cons]

/-- The elements that were there keep their order. -/
theorem sublist_insertBefore (p : α → Bool) (a : α) (l : List α) :
    l.Sublist (insertBefore p a l) := by
  induction l with
  | nil => exact List.nil_sublist _
  | cons b rest ih =>
    by_cases h : p b
    · simp [insertBefore, h]
    · simpa [insertBefore, h] using ih

/-- The stable arrangement of a list by a relation. -/
def arrange (le : α → α → Bool) : List α → List α
  | [] => []
  | a :: rest => insertBefore (le a) a (arrange le rest)

/-- Arranging a list only changes the order of its elements. -/
theorem arrange_perm (le : α → α → Bool) (l : List α) : (arrange le l).Perm l := by
  induction l with
  | nil => exact List.Perm.refl _
  | cons a rest ih => exact (insertBefore_perm (le a) a (arrange le rest)).trans (ih.cons a)

end Interchange
