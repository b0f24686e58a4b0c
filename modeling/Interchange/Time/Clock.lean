import Interchange.Text.Decimal
import Interchange.Text.Split
import Interchange.Time

/-!
# Clock texts

The written form of a time is `H:MM`, `HH:MM` or `HHH:MM`, with `:SS` behind it when the seconds
count and `-` in front of it before the start of the service day.

* `Time.text` — the written form, with at least two digits for the hours and without zero seconds.
* `Time.parse` — reads a written form, or tells the first fault: the number of parts, then the
  hours, the minutes and the seconds from left to right. The hours have at most three digits, so a
  time beyond `999:59:59` can be shown but not read.
-/

namespace Interchange

/-- Why a text is no clock text. -/
inductive ClockFault
  | shape
  | hourDigits
  | minuteDigits
  | minuteRange
  | secondDigits
  | secondRange
  deriving DecidableEq, Repr

/-- The wording of a fault. -/
def ClockFault.reason : ClockFault → String
  | .shape => "expected HH:MM or HH:MM:SS"
  | .hourDigits => "invalid hour digits"
  | .minuteDigits => "invalid minute digits"
  | .minuteRange => "minute must be 0-59"
  | .secondDigits => "invalid second digits"
  | .secondRange => "second must be 0-59"

namespace Clock

/-- The hours of a clock text: one to three digits. -/
def hours (ds : List Char) : Except ClockFault Nat :=
  if ds = [] ∨ 3 < ds.length ∨ ds.all Decimal.isDigit = false then .error .hourDigits
  else .ok (Decimal.value ds)

/-- The minutes or seconds of a clock text: two digits that stand for less than sixty. The two
faults are those of the part that is read. -/
def sixtieth (digitFault rangeFault : ClockFault) (ds : List Char) : Except ClockFault Nat :=
  if ds.length ≠ 2 ∨ ds.all Decimal.isDigit = false then .error digitFault
  else if 59 < Decimal.value ds then .error rangeFault
  else .ok (Decimal.value ds)

/-- The seconds of the day that the parts of a clock text stand for. -/
def seconds : List (List Char) → Except ClockFault Nat
  | [h, m] => do
    let h ← hours h
    let m ← sixtieth .minuteDigits .minuteRange m
    return 3600 * h + 60 * m
  | [h, m, s] => do
    let h ← hours h
    let m ← sixtieth .minuteDigits .minuteRange m
    let s ← sixtieth .secondDigits .secondRange s
    return 3600 * h + 60 * m + s
  | _ => .error .shape

end Clock

namespace Time

/-- Reads the characters of a clock text. -/
def ofChars : List Char → Except ClockFault Time
  | '-' :: body => do
    let n ← Clock.seconds (Split.pieces ':' body)
    return ofInt (-n)
  | body => do
    let n ← Clock.seconds (Split.pieces ':' body)
    return ofInt n

/-- Reads a clock text. -/
def parse (s : String) : Except ClockFault Time := ofChars s.toList

/-- The characters of the written form of a number of seconds that is not negative. -/
def clockChars (n : Nat) : List Char :=
  Decimal.padded 2 (n / 3600) ++ ':' :: Decimal.padded 2 (n % 3600 / 60) ++
    if n % 60 = 0 then [] else ':' :: Decimal.padded 2 (n % 60)

/-- The characters of the written form of a time. -/
def chars (t : Time) : List Char :=
  if t.secs < 0 then '-' :: clockChars t.secs.natAbs else clockChars t.secs.natAbs

/-- The written form of a time. -/
def text (t : Time) : String := String.ofList t.chars

instance : ToString Time := ⟨text⟩

/-- The time shown with its type. -/
def labelled (t : Time) : String := "TransitTime(" ++ t.text ++ ")"

end Time

end Interchange
