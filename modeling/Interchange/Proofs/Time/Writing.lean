import Interchange.Proofs.Text.Decimal
import Interchange.Proofs.Time.Reading

/-!
# Clock texts are read back

A time within reach of a clock text is written so that it is read again as the same time, with or without
seconds, on either side of the start of the service day. Beyond that reach a time can only be shown.

* `Split.pieces_append_cons` — a separator ends the piece in front of it.
* `Clock.seconds_clockChars` — the parts of a written form stand for its seconds.
* `Time.parse_text` — a time on the clock is read from its own text.
* `Time.ReadsBack` — a time is read from its own text. `Time.readsBack_iff` — only those on the clock are; the
  hours of all others have too many digits.
-/

namespace Interchange

/-! ## Pieces -/

namespace Split

variable {separator : Char} {piece : List Char}

/-- A text without separators is one piece. -/
theorem pieces_of_not_mem (h : separator ∉ piece) : pieces separator piece = [piece] := by
  induction piece with
  | nil => rfl
  | cons c piece ih =>
    have hc : c ≠ separator := fun heq => h (heq ▸ List.mem_cons_self)
    have hpiece : separator ∉ piece := fun hmem => h (List.mem_cons_of_mem c hmem)
    rw [pieces, if_neg hc, ih hpiece]

/-- A separator ends the piece in front of it. -/
theorem pieces_append_cons (h : separator ∉ piece) (rest : List Char) :
    pieces separator (piece ++ separator :: rest) = piece :: pieces separator rest := by
  induction piece with
  | nil => rw [List.nil_append, pieces, if_pos rfl]
  | cons c piece ih =>
    have hc : c ≠ separator := fun heq => h (heq ▸ List.mem_cons_self)
    have hpiece : separator ∉ piece := fun hmem => h (List.mem_cons_of_mem c hmem)
    rw [List.cons_append, pieces, if_neg hc, ih hpiece]

end Split

/-! ## Numerals -/

namespace Decimal

variable {width n : Nat}

/-- All characters of a padded numeral are digits. -/
theorem all_isDigit_padded : (padded width n).all isDigit = true := by
  apply List.all_eq_true.2
  intro c hc
  exact isDigit_of_mem_padded hc

/-- A character that is no digit does not occur in a padded numeral. -/
theorem not_mem_padded {c : Char} (h : isDigit c = false) : c ∉ padded width n := by
  intro hc
  rw [isDigit_of_mem_padded hc] at h
  contradiction

end Decimal

/-! ## Clock texts -/

namespace Clock

/-- Fewer than a thousand hours are read from their numeral. -/
theorem hours_padded {n : Nat} (h : n < 1000) : hours (Decimal.padded 2 n) = .ok n := by
  have hlen : (Decimal.padded 2 n).length ≤ 3 := Decimal.length_padded_le (by simp) (by simp) h
  have hfaultless : ¬(Decimal.padded 2 n = [] ∨ 3 < (Decimal.padded 2 n).length ∨
      (Decimal.padded 2 n).all Decimal.isDigit = false) := by
    rintro (hnil | hlong | hdigits)
    · exact Decimal.padded_ne_nil 2 n hnil
    · omega
    · simp [Decimal.all_isDigit_padded] at hdigits
  rw [hours, if_neg hfaultless, Decimal.value_padded]

/-- Fewer than sixty minutes or seconds are read from their numeral. -/
theorem sixtieth_padded {f g : ClockFault} {n : Nat} (h : n < 60) :
    sixtieth f g (Decimal.padded 2 n) = .ok n := by
  have hlen : (Decimal.padded 2 n).length = 2 := Decimal.length_padded (by simp) (by omega)
  have hfaultless : ¬((Decimal.padded 2 n).length ≠ 2 ∨
      (Decimal.padded 2 n).all Decimal.isDigit = false) := by
    rintro (hwidth | hdigits)
    · exact hwidth hlen
    · simp [Decimal.all_isDigit_padded] at hdigits
  rw [sixtieth, if_neg hfaultless, Decimal.value_padded, if_neg (by omega)]

/-- **The parts of a written form stand for its seconds**, below a thousand hours. -/
theorem seconds_clockChars {n : Nat} (h : n < 3600000) :
    seconds (Split.pieces ':' (Time.clockChars n)) = .ok n := by
  have hcolon : ∀ m, ':' ∉ Decimal.padded 2 m := fun m => Decimal.not_mem_padded (by decide)
  have hhours : hours (Decimal.padded 2 (n / 3600)) = .ok (n / 3600) := hours_padded (by omega)
  have hminutes : sixtieth .minuteDigits .minuteRange (Decimal.padded 2 (n % 3600 / 60)) =
      .ok (n % 3600 / 60) := sixtieth_padded (by omega)
  have hseconds : sixtieth .secondDigits .secondRange (Decimal.padded 2 (n % 60)) = .ok (n % 60) :=
    sixtieth_padded (by omega)
  rw [Time.clockChars, List.append_assoc, List.cons_append, Split.pieces_append_cons (hcolon _)]
  split
  · rename_i hzero
    rw [List.append_nil, Split.pieces_of_not_mem (hcolon _), seconds, hhours, hminutes]
    show Except.ok (3600 * (n / 3600) + 60 * (n % 3600 / 60)) = .ok n
    congr 1
    omega
  · rw [Split.pieces_append_cons (hcolon _), Split.pieces_of_not_mem (hcolon _), seconds, hhours, hminutes,
      hseconds]
    show Except.ok (3600 * (n / 3600) + 60 * (n % 3600 / 60) + n % 60) = .ok n
    congr 1
    omega

end Clock

namespace Time

/-- The written form of seconds that are not negative starts with a digit, not with a sign. -/
theorem clockChars_ne_minus (n : Nat) (rest : List Char) : clockChars n ≠ '-' :: rest := by
  intro h
  obtain ⟨c, ds, hds⟩ := List.exists_cons_of_ne_nil (Decimal.padded_ne_nil 2 (n / 3600))
  have hc : Decimal.isDigit c = true := Decimal.isDigit_of_mem_padded (hds ▸ List.mem_cons_self)
  rw [clockChars, hds] at h
  rw [(List.cons.inj h).1] at hc
  contradiction

/-- Seconds that are not negative are read from their written form. -/
theorem ofChars_clockChars {n : Nat} (h : n < 3600000) : ofChars (clockChars n) = .ok (ofInt n) := by
  unfold ofChars
  split
  · rename_i hchars
    exact absurd hchars (clockChars_ne_minus n _)
  · rw [Clock.seconds_clockChars h]
    rfl

/-- **A time on the clock is read from its own text.** -/
theorem parse_text {t : Time} (h : t.OnClock) : parse t.text = .ok t := by
  obtain ⟨hleast, hgreatest⟩ := h
  have hsmall : t.secs.natAbs < 3600000 := by omega
  rw [parse, text, String.toList_ofList, chars]
  split
  · rename_i hneg
    have hsecs : -(t.secs.natAbs : Int) = t.secs := by omega
    rw [ofChars, Clock.seconds_clockChars hsmall]
    show Except.ok (ofInt (-(t.secs.natAbs : Int))) = .ok t
    rw [hsecs, ofInt_secs]
  · rename_i hneg
    have hsecs : (t.secs.natAbs : Int) = t.secs := by omega
    rw [ofChars_clockChars hsmall, hsecs, ofInt_secs]

end Time

/-! ## Times that can only be shown -/

/-- A number of more digits than a bound has a numeral that is longer than the bound. -/
theorem Decimal.lt_length_padded {width bound n : Nat} (hbound : 0 < bound) (h : 10 ^ bound ≤ n) :
    bound < (padded width n).length := by
  have hlong : ¬ (digits n).length ≤ bound := by
    intro hle
    have hlt : n < 10 ^ bound := (Nat.length_toDigits_le_iff (by decide) hbound).1 hle
    omega
  rw [padded, List.length_append, List.length_replicate]
  omega

namespace Clock

/-- A thousand hours or more are not read from their numeral. -/
theorem hours_padded_of_le {n : Nat} (h : 1000 ≤ n) :
    hours (Decimal.padded 2 n) = .error .hourDigits := by
  have hlen : 3 < (Decimal.padded 2 n).length := Decimal.lt_length_padded (by decide) h
  rw [hours, if_pos (.inr (.inl hlen))]

/-- The written form of a thousand hours or more is refused for its hours. -/
theorem seconds_clockChars_of_le {n : Nat} (h : 3600000 ≤ n) :
    seconds (Split.pieces ':' (Time.clockChars n)) = .error .hourDigits := by
  have hcolon : ∀ m, ':' ∉ Decimal.padded 2 m := fun m => Decimal.not_mem_padded (by decide)
  have hhours : hours (Decimal.padded 2 (n / 3600)) = .error .hourDigits := hours_padded_of_le (by omega)
  rw [Time.clockChars, List.append_assoc, List.cons_append, Split.pieces_append_cons (hcolon _)]
  -- whether there are seconds or not, the hours are looked at first
  split
  · rw [List.append_nil, Split.pieces_of_not_mem (hcolon _), seconds, hhours]
    rfl
  · rw [Split.pieces_append_cons (hcolon _), Split.pieces_of_not_mem (hcolon _), seconds, hhours]
    rfl

end Clock

namespace Time

/-- A time that is not on the clock is not read from its own text: its hours have too many digits. -/
theorem parse_text_of_not_onClock {t : Time} (h : ¬ t.OnClock) : parse t.text = .error .hourDigits := by
  have hlarge : 3600000 ≤ t.secs.natAbs := by
    unfold OnClock at h
    omega
  rw [parse, text, String.toList_ofList, chars]
  split
  · rw [ofChars, Clock.seconds_clockChars_of_le hlarge]
    rfl
  · unfold ofChars
    split
    · rename_i hchars
      exact absurd hchars (clockChars_ne_minus _ _)
    · rw [Clock.seconds_clockChars_of_le hlarge]
      rfl

/-- A time is read from its own text. -/
def ReadsBack (t : Time) : Prop := parse t.text = .ok t

/-- **Which times are read from their own text**: those less than a thousand hours from the start of the
service day. Every other time is refused for the digits of its hours. -/
theorem readsBack_iff (t : Time) :
    (t.ReadsBack ↔ t.OnClock) ∧ (¬ t.ReadsBack → parse t.text = .error .hourDigits) := by
  have hiff : t.ReadsBack ↔ t.OnClock := ⟨onClock_of_parse, parse_text⟩
  refine ⟨hiff, fun hnot => ?_⟩
  rw [hiff] at hnot
  exact parse_text_of_not_onClock hnot

/-- A slack of a thousand hours leads from the start of the service day to a time that is shown and not read. -/
theorem not_readsBack_of_long_slack :
    (midnight.after (.ofSeconds 3600000)).text = "1000:00" ∧
      ¬ (midnight.after (.ofSeconds 3600000)).ReadsBack := by
  refine ⟨by decide, fun h => ?_⟩
  have hclock := onClock_of_parse h
  exact absurd hclock.2 (by decide)

end Time

end Interchange
