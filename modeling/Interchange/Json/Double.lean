import Interchange.Text.Decimal

/-!
# Numbers in double precision

A number that is kept for later is kept in double precision. It is made from its decimal numeral in
three steps, each of which rounds: the leading digits that fit in a word, the power of ten they
count, and the product of the two.

* `Double.round` — rounds to 53 significant bits, a half to the even neighbour.
* `Double.leading` — the leading digits of a number that fit in a word.
* `Double.isFinite` — whether the number that is made is finite.

Near the largest double the steps show: `17976931348623158e292` has no finite double, while
`179769313486231581e291`, which is larger, has one.
-/

namespace Interchange.Double

/-- The weight of the last significant bit of `n` when 53 bits are kept; 1 for a number that has no
more. -/
def unit (n : Nat) : Nat := Nat.pow 2 (n.log2 - 52)

/-- Rounds to 53 significant bits, a half to the even neighbour. -/
def round (n : Nat) : Nat :=
  let kept := n / unit n
  let rest := n % unit n
  if unit n < 2 * rest ∨ unit n = 2 * rest ∧ kept % 2 = 1 then (kept + 1) * unit n
  else kept * unit n

/-- The midpoint between the largest double and the next power of two. What lies below rounds to a
double; the midpoint itself is a half and goes to the even neighbour, which is no double. -/
def bound : Nat := Nat.pow 2 1024 - Nat.pow 2 970

/-- The largest exponent whose power of ten rounds to a double. -/
def largestPower : Nat := 308

/-- The leading digits of a number that fit in a word, as many as possible, and how many digits
follow them. A number of 20 digits may fit or not, one of 19 always does. -/
def leading (n : Nat) : Nat × Nat :=
  if n < Decimal.wordBound then (n, 0)
  else
    let dropped := (Decimal.digits n).length - 20
    if n / Nat.pow 10 dropped < Decimal.wordBound then (n / Nat.pow 10 dropped, dropped)
    else (n / Nat.pow 10 (dropped + 1), dropped + 1)

/-- Whether `mantissa · 10 ^ exponent` becomes a finite double. Zero does whatever its exponent, and
so does a word that is only divided. -/
def isFinite (mantissa : Nat) (exponent : Int) : Bool :=
  let (lead, dropped) := leading mantissa
  let power := exponent + dropped
  mantissa = 0 || power < 0 ||
    (power ≤ largestPower && round lead * round (Nat.pow 10 power.toNat) < bound)

/-- A number that has at most 53 bits is its own rounding. -/
theorem round_eq_self {n : Nat} (h : n < Nat.pow 2 53) : round n = n := by
  have hlog : n.log2 - 52 = 0 := by
    by_cases hn : n = 0
    · subst hn; decide
    · have := (Nat.log2_lt hn).2 h
      omega
  have hunit : unit n = 1 := by simp [unit, hlog]
  simp [round, hunit, Nat.mod_one]

/-- Rounding at most doubles a number. -/
theorem round_le_two_mul (n : Nat) : round n ≤ 2 * n := by
  have hsplit : n / unit n * unit n + n % unit n = n := Nat.div_add_mod' n (unit n)
  simp only [round]
  split
  · next h =>
    rw [Nat.add_mul]
    omega
  · omega

/-- The leading digits of a word are the word. -/
theorem leading_of_lt {n : Nat} (h : n < Decimal.wordBound) : leading n = (n, 0) := by
  simp [leading, h]

/-- A word is finite in double precision. -/
theorem isFinite_of_lt {n : Nat} (h : n < Decimal.wordBound) : isFinite n 0 = true := by
  have hround := round_le_two_mul n
  have hbound : 2 * Decimal.wordBound < bound := by decide +kernel
  have hone : round 1 = 1 := round_eq_self (by decide)
  have hfinite : round n < bound := by omega
  simp [isFinite, leading_of_lt h, hone, hfinite]

end Interchange.Double
