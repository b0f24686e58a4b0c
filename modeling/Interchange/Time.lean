/-!
# Service-day time

A timetable counts seconds from the start of a service day. A trip that leaves late in the evening
arrives at `24:20`, and a reverse search may reach before the start of the day, so a time is any
number of seconds, of either sign, within fixed bounds.

* `Time` — whole seconds between `Time.least` and `Time.greatest`.
* `Time.ofInt` — the time nearest to a number of seconds: within the bounds the number itself,
  beyond them the bound that was passed. Every shift of a time saturates in this way.
* `Slack` — a length of time, of which only the whole seconds count.
-/

namespace Interchange

/-- A time of the service day: whole seconds within 32-bit bounds. -/
structure Time where
  secs : Int
  least_le : -2147483648 ≤ secs
  le_greatest : secs ≤ 2147483647
  deriving DecidableEq

namespace Time

/-- The smallest number of seconds of a time. -/
def least : Int := -2147483648

/-- The largest number of seconds of a time. -/
def greatest : Int := 2147483647

/-- A number of seconds, moved to the nearer bound when it lies outside both. -/
def clamp (n : Int) : Int := max least (min n greatest)

/-- A clamped number is no smaller than the lower bound. -/
theorem least_le_clamp (n : Int) : -2147483648 ≤ clamp n := by
  simp only [clamp, least, greatest]; omega

/-- A clamped number is no larger than the upper bound. -/
theorem clamp_le_greatest (n : Int) : clamp n ≤ 2147483647 := by
  simp only [clamp, least, greatest]; omega

/-- The time nearest to a number of seconds. -/
def ofInt (n : Int) : Time := ⟨clamp n, least_le_clamp n, clamp_le_greatest n⟩

/-- Two times with the same seconds are the same. -/
theorem ext_secs {a b : Time} (h : a.secs = b.secs) : a = b := by
  cases a; cases b; simp_all

/-- A number between the bounds is its own nearest. -/
theorem clamp_of_mem {n : Int} (h : -2147483648 ≤ n) (h' : n ≤ 2147483647) : clamp n = n := by
  simp only [clamp, least, greatest]; omega

/-- The time nearest to the seconds of a time is that time. -/
@[simp] theorem ofInt_secs (t : Time) : ofInt t.secs = t :=
  ext_secs (clamp_of_mem t.least_le t.le_greatest)

/-- The start of the service day. -/
def midnight : Time := ⟨0, by decide, by decide⟩

instance : LE Time := ⟨fun a b => a.secs ≤ b.secs⟩

instance : LT Time := ⟨fun a b => a.secs < b.secs⟩

instance (a b : Time) : Decidable (a ≤ b) := inferInstanceAs (Decidable (a.secs ≤ b.secs))

instance (a b : Time) : Decidable (a < b) := inferInstanceAs (Decidable (a.secs < b.secs))

/-- The order of times, as one of three outcomes. -/
instance : Ord Time := ⟨fun a b => compare a.secs b.secs⟩

instance : Max Time := ⟨fun a b => if a ≤ b then b else a⟩

instance : Min Time := ⟨fun a b => if a ≤ b then a else b⟩

/-- Times are ordered as their seconds are. -/
theorem le_def {a b : Time} : a ≤ b ↔ a.secs ≤ b.secs := Iff.rfl

/-- Times are strictly ordered as their seconds are. -/
theorem lt_def {a b : Time} : a < b ↔ a.secs < b.secs := Iff.rfl

/-- The time of an hour, minute and second of the service day; each may have either sign. -/
def ofClock (hours minutes seconds : Int) : Time :=
  ofInt (3600 * hours + 60 * minutes + seconds)

/-- The time `n` seconds later, saturating. -/
def later (t : Time) (n : Int) : Time := ofInt (t.secs + n)

/-- The time `n` seconds earlier, saturating. -/
def earlier (t : Time) (n : Int) : Time := ofInt (t.secs - n)

end Time

/-! ## Slack -/

/-- A length of time, in milliseconds, of either sign. -/
structure Slack where
  milliseconds : Int
  deriving DecidableEq

namespace Slack

/-- A slack of whole seconds. -/
def ofSeconds (n : Int) : Slack := ⟨1000 * n⟩

/-- The whole seconds of a slack; a fraction of a second is dropped toward zero. -/
def wholeSeconds (d : Slack) : Int := d.milliseconds.tdiv 1000

/-- The whole seconds of a slack, kept within the bounds of a time. -/
def shift (d : Slack) : Int := Time.clamp d.wholeSeconds

end Slack

/-- The time a slack later, saturating. -/
def Time.after (t : Time) (d : Slack) : Time := t.later d.shift

/-- The time a slack earlier, saturating. -/
def Time.before (t : Time) (d : Slack) : Time := t.earlier d.shift

end Interchange
