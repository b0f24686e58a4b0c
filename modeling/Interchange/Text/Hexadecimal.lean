/-!
# Hexadecimal digits

The value of a hexadecimal digit in either case, and the numeral of a number in lower case.
-/

namespace Interchange.Hexadecimal

/-- The value of a hexadecimal digit. -/
def digit? (c : Char) : Option Nat :=
  if '0' ≤ c ∧ c ≤ '9' then some (c.toNat - '0'.toNat)
  else if 'a' ≤ c ∧ c ≤ 'f' then some (c.toNat - 'a'.toNat + 10)
  else if 'A' ≤ c ∧ c ≤ 'F' then some (c.toNat - 'A'.toNat + 10)
  else none

/-- The numeral of a number, without leading zeros. -/
def text (n : Nat) : String := String.ofList (Nat.toDigits 16 n)

end Interchange.Hexadecimal
