import Interchange.Text.Decimal
import Mathlib.Algebra.Group.Nat.Defs

/-!
# Decimal numerals are read back

* `Decimal.value_digits` — the numeral of a number stands for it. `Decimal.isDigit_of_mem_digits` — it holds
  digits only, and `Decimal.eq_nil_of_digits_eq_zero_cons` — it has no leading zero.
* `Decimal.value_padded`, `Decimal.length_padded` — zeros in front change nothing but the width.
-/

namespace Interchange.Decimal

/-! ## Digits -/

/-- The character of a number below ten is a digit that stands for it. -/
theorem digit?_digitChar : ∀ d < 10, digit? (Nat.digitChar d) = some d := by decide

/-- The numeral of a number ends in its last digit. -/
theorem digits_eq (n : Nat) :
    digits n = if n < 10 then [Nat.digitChar n] else digits (n / 10) ++ [Nat.digitChar (n % 10)] :=
  Nat.toDigits_eq_if (by decide)

/-- A numeral is not empty. -/
theorem digits_ne_nil (n : Nat) : digits n ≠ [] := Nat.toDigits_ne_nil

/-- A numeral holds digits only. -/
theorem isDigit_of_mem_digits {n : Nat} {c : Char} (h : c ∈ digits n) : isDigit c = true := by
  induction n using Nat.strongRecOn with
  | ind n ih =>
    rw [digits_eq] at h
    split at h
    · rename_i hn
      rw [List.mem_singleton.1 h, isDigit, digit?_digitChar n hn]
      rfl
    · rcases List.mem_append.1 h with h | h
      · exact ih (n / 10) (by omega) h
      · rw [List.mem_singleton.1 h, isDigit, digit?_digitChar (n % 10) (by omega)]
        rfl

/-- A row of digits with one more digit behind it. -/
theorem value_concat (ds : List Char) (c : Char) :
    value (ds ++ [c]) = 10 * value ds + (digit? c).getD 0 := by
  simp [value]

/-- **The numeral of a number stands for the number.** -/
@[simp] theorem value_digits (n : Nat) : value (digits n) = n := by
  induction n using Nat.strongRecOn with
  | ind n ih =>
    rw [digits_eq]
    split
    · rename_i hn
      simp [value, digit?_digitChar n hn]
    · rw [value_concat, ih (n / 10) (by omega), digit?_digitChar (n % 10) (by omega)]
      simp only [Option.getD_some]
      omega

/-- The numeral of a number other than zero does not start with a zero. -/
theorem head?_digits_ne {n : Nat} (h : n ≠ 0) : (digits n).head? ≠ some '0' := by
  induction n using Nat.strongRecOn with
  | ind n ih =>
    rw [digits_eq]
    split
    · rename_i hn
      have hchar : ∀ d < 10, d ≠ 0 → Nat.digitChar d ≠ '0' := by decide
      simpa using hchar n hn h
    · obtain ⟨c, ds, hds⟩ := List.exists_cons_of_ne_nil (digits_ne_nil (n / 10))
      have hrest := ih (n / 10) (by omega) (by omega)
      rw [hds] at hrest ⊢
      exact hrest

/-- Only the numeral of zero starts with a zero, and it has no other digit. -/
theorem eq_nil_of_digits_eq_zero_cons {n : Nat} {ds : List Char} (h : digits n = '0' :: ds) : ds = [] := by
  by_cases hn : n = 0
  · subst hn
    rw [digits_eq, if_pos (by decide)] at h
    exact (List.cons.inj h).2.symm
  · exact absurd (by rw [h, List.head?_cons]) (head?_digits_ne hn)

/-! ## Padded numerals -/

/-- Zeros in front of a row of digits do not count. -/
theorem value_replicate_append (k : Nat) (ds : List Char) : value (List.replicate k '0' ++ ds) = value ds := by
  induction k with
  | zero => rfl
  | succ k ih =>
    have hzero : (digit? '0').getD 0 = 0 := by decide
    rw [← ih]
    simp [value, List.replicate_succ, hzero]

/-- A padded numeral stands for its number. -/
@[simp] theorem value_padded (width n : Nat) : value (padded width n) = n := by
  rw [padded, value_replicate_append, value_digits]

/-- A padded numeral holds digits only. -/
theorem isDigit_of_mem_padded {width n : Nat} {c : Char} (h : c ∈ padded width n) : isDigit c = true := by
  rcases List.mem_append.1 h with h | h
  · rw [List.eq_of_mem_replicate h]
    decide
  · exact isDigit_of_mem_digits h

/-- A number of at most a number of digits is padded to that width. -/
theorem length_padded {width n : Nat} (hwidth : 0 < width) (h : n < 10 ^ width) :
    (padded width n).length = width := by
  have hle : (digits n).length ≤ width := (Nat.length_toDigits_le_iff (by decide) hwidth).2 h
  rw [padded, List.length_append, List.length_replicate]
  omega

/-- A padded numeral is no longer than its width or the digits of its number. -/
theorem length_padded_le {width bound n : Nat} (hbound : 0 < bound) (hwidth : width ≤ bound)
    (h : n < 10 ^ bound) : (padded width n).length ≤ bound := by
  have hle : (digits n).length ≤ bound := (Nat.length_toDigits_le_iff (by decide) hbound).2 h
  rw [padded, List.length_append, List.length_replicate]
  omega

/-- A padded numeral is not empty. -/
theorem padded_ne_nil (width n : Nat) : padded width n ≠ [] :=
  List.append_ne_nil_of_right_ne_nil _ (digits_ne_nil n)

end Interchange.Decimal
