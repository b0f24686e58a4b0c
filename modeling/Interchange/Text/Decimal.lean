/-!
# Decimal numerals

* `Decimal.digits n` — the decimal numeral of a natural number, and `Decimal.value` its reading.
* `Decimal.unsigned bound s` — reads a whole text as an unsigned number below `bound`, with one
  optional leading `+`; of two faults the one further left is reported.
* `Decimal.padded width n` — the numeral of `n`, filled with zeros on the left.
-/

namespace Interchange.Decimal

/-- The value of an ASCII decimal digit. -/
def digit? (c : Char) : Option Nat :=
  if '0' ≤ c ∧ c ≤ '9' then some (c.toNat - '0'.toNat) else none

/-- Whether a character is an ASCII decimal digit. -/
def isDigit (c : Char) : Bool := (digit? c).isSome

/-- The number a row of digits stands for, most significant digit first. Characters that are no
digits count as zero; callers pass digits only. -/
def value (ds : List Char) : Nat :=
  ds.foldl (fun n c => 10 * n + (digit? c).getD 0) 0

/-- The decimal numeral of a natural number, without leading zeros. -/
def digits (n : Nat) : List Char := Nat.toDigits 10 n

/-- The decimal numeral of `n` as text. -/
def text (n : Nat) : String := String.ofList (digits n)

/-- The decimal numeral of an integer, with `-` in front of a negative one. -/
def signedText (n : Int) : String :=
  if n < 0 then "-" ++ text n.natAbs else text n.natAbs

/-- The numeral of `n`, filled with zeros on the left up to `width` digits. -/
def padded (width n : Nat) : List Char :=
  List.replicate (width - (digits n).length) '0' ++ digits n

/-! ## Reading a bounded number -/

/-- Why a text is no unsigned number of the wanted size. -/
inductive Fault
  | empty
  | digit
  | tooLarge
  deriving DecidableEq, Repr

/-- The wording of a fault. -/
def Fault.message : Fault → String
  | .empty => "cannot parse integer from empty string"
  | .digit => "invalid digit found in string"
  | .tooLarge => "number too large to fit in target type"

/-- Reads the remaining digits of a number below `bound`, `n` being read so far. At each character
the digit is checked first and the size second. -/
def below (bound : Nat) : Nat → List Char → Except Fault Nat
  | n, [] => .ok n
  | n, c :: rest =>
    match digit? c with
    | none => .error .digit
    | some d => if 10 * n + d < bound then below bound (10 * n + d) rest else .error .tooLarge

/-- Reads a whole text as an unsigned number below `bound`. One leading `+` is allowed when a digit
follows it. -/
def unsigned (bound : Nat) (s : String) : Except Fault Nat :=
  match s.toList with
  | [] => .error .empty
  | ['+'] => .error .digit
  | '+' :: rest => below bound 0 rest
  | cs => below bound 0 cs

/-- One more than the largest number of an unsigned 64-bit word, the size of counts and positions. -/
def wordBound : Nat := 18446744073709551616

end Interchange.Decimal
