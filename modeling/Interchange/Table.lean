/-!
# Tables

What is looked up again and again is kept in a table.

* `Table κ α` — the values last set for keys.
* `Table.listAt` and `Table.append` — for tables of lists: the list of a key, which is empty as long as
  nothing was appended to it.
-/

namespace Interchange

/-- Values by key. The row that was written last counts, and stands in front. -/
structure Table (κ α : Type) where
  rows : List (κ × α)

namespace Table

variable {κ α : Type} [DecidableEq κ]

/-- No values. -/
def empty : Table κ α := ⟨[]⟩

/-- The value of a key. -/
def get? (t : Table κ α) (k : κ) : Option α := t.rows.lookup k

/-- Sets the value of a key. -/
def set (t : Table κ α) (k : κ) (a : α) : Table κ α := ⟨(k, a) :: t.rows⟩

/-- Setting a value changes that of its key only. -/
theorem get?_set (t : Table κ α) (k k' : κ) (a : α) :
    (t.set k a).get? k' = if k' = k then some a else t.get? k' := by
  unfold get? set
  rw [List.lookup_cons]
  by_cases h : k' = k
  · rw [if_pos h, beq_iff_eq.2 h]
  · rw [if_neg h, beq_false_of_ne h]

/-- The list of a key. -/
def listAt (t : Table κ (List α)) (k : κ) : List α := (t.get? k).getD []

/-- Puts one more element at the end of the list of a key. -/
def append (t : Table κ (List α)) (k : κ) (a : α) : Table κ (List α) := t.set k (t.listAt k ++ [a])

/-- Appending changes the list of its key only. -/
theorem listAt_append (t : Table κ (List α)) (k k' : κ) (a : α) :
    (t.append k a).listAt k' = if k' = k then t.listAt k ++ [a] else t.listAt k' := by
  unfold append
  rw [listAt, get?_set]
  split <;> rfl

end Table

end Interchange
