import Interchange.Proofs.Time.Writing
import Mathlib.Data.List.Induction

/-!
# The grammar of clock texts

A clock text is said here apart from the reader: an optional sign, one to three digits for the hours, and
after a colon each the two digits of the minutes and, if they are there, of the seconds. The reader cuts a text
at its colons and looks at the pieces; it accepts the texts of this grammar and no others.

* `Decimal.Spells`, `Clock.Spells`, `Time.Spells` — the grammar, with what a text of it says.
* `Clock.seconds_pieces_eq_ok_iff` — the pieces of a text are read exactly if the text is in the grammar.
* `Clock.Reading.secs?` — the seconds of a reading, computed as words with a check at each step.
* `Time.parse_eq_ok_iff_spells` — which texts are read, as which time, and that no step of it overflows.
-/

namespace Interchange

/-! ## Rows of digits -/

namespace Decimal

variable {ds : List Char} {n : Nat}

/-- A row of ASCII digits spells a number, one more digit at its end at a time. -/
inductive Spells : List Char → Nat → Prop
  | nil : Spells [] 0
  | concat {ds : List Char} {n : Nat} {c : Char} (h : Spells ds n) (hc : '0' ≤ c ∧ c ≤ '9') :
      Spells (ds ++ [c]) (10 * n + (c.toNat - '0'.toNat))

/-- The characters of a spelled number are digits. -/
theorem Spells.all_isDigit (h : Spells ds n) : ds.all isDigit = true := by
  induction h with
  | nil => rfl
  | concat h hc ih => simp [ih, isDigit, digit?, hc]

/-- A row of digits stands for the number it spells. -/
theorem Spells.value_eq (h : Spells ds n) : value ds = n := by
  induction h with
  | nil => rfl
  | concat h hc ih => rw [value_concat, ih, digit?, if_pos hc, Option.getD_some]

/-- Every row of digits spells the number it stands for. -/
theorem spells_value (ds : List Char) (h : ds.all isDigit = true) : Spells ds (value ds) := by
  -- from the last digit, as the number is spelled
  induction ds using List.reverseRecOn with
  | nil => exact .nil
  | append_singleton ds c ih =>
    rw [List.all_append, Bool.and_eq_true] at h
    have hc : '0' ≤ c ∧ c ≤ '9' := by simpa [isDigit, digit?] using h.2
    rw [value_concat, digit?, if_pos hc]
    exact .concat (ih h.1) hc

/-- **A text spells a number** exactly if it holds digits only and stands for the number. -/
theorem spells_iff : Spells ds n ↔ ds.all isDigit = true ∧ value ds = n := by
  constructor
  · intro h
    exact ⟨h.all_isDigit, h.value_eq⟩
  · rintro ⟨hdigits, rfl⟩
    exact spells_value ds hdigits

/-- A character that is no digit does not occur in a spelled number. -/
theorem Spells.not_mem (h : Spells ds n) {c : Char} (hc : isDigit c = false) : c ∉ ds := by
  intro hmem
  rw [List.all_eq_true.1 h.all_isDigit c hmem] at hc
  contradiction

end Decimal

/-! ## Pieces -/

namespace Split

variable {separator : Char} {cs piece : List Char}

/-- A text has a first piece. -/
theorem pieces_ne_nil (cs : List Char) : pieces separator cs ≠ [] := by
  cases cs with
  | nil => simp [pieces]
  | cons c cs =>
    rw [pieces]
    split
    · simp
    · split <;> simp

/-- **The first piece of a text** ends with the text or at the first separator, behind which the other pieces
follow. -/
theorem pieces_eq_cons_iff {others : List (List Char)} :
    pieces separator cs = piece :: others ↔
      separator ∉ piece ∧ (cs = piece ∧ others = [] ∨
        ∃ rest, cs = piece ++ separator :: rest ∧ pieces separator rest = others) := by
  constructor
  · intro h
    by_cases hmem : separator ∈ cs
    · obtain ⟨front, rest, rfl, hfront⟩ := List.eq_append_cons_of_mem hmem
      rw [pieces_append_cons hfront] at h
      obtain ⟨rfl, rfl⟩ := List.cons.inj h
      exact ⟨hfront, .inr ⟨rest, rfl, rfl⟩⟩
    · rw [pieces_of_not_mem hmem] at h
      obtain ⟨rfl, rfl⟩ := List.cons.inj h
      exact ⟨hmem, .inl ⟨rfl, rfl⟩⟩
  · rintro ⟨hpiece, ⟨rfl, rfl⟩ | ⟨rest, rfl, rfl⟩⟩
    · exact pieces_of_not_mem hpiece
    · exact pieces_append_cons hpiece rest

/-- A text of one piece is that piece. -/
theorem pieces_eq_singleton_iff : pieces separator cs = [piece] ↔ separator ∉ piece ∧ cs = piece := by
  rw [pieces_eq_cons_iff]
  simp [pieces_ne_nil]

/-- A text of more than one piece has a separator behind the first. -/
theorem pieces_eq_cons_cons_iff {second : List Char} {others : List (List Char)} :
    pieces separator cs = piece :: second :: others ↔
      separator ∉ piece ∧ ∃ rest, cs = piece ++ separator :: rest ∧ pieces separator rest = second :: others := by
  rw [pieces_eq_cons_iff]
  simp

end Split

/-! ## Clock texts without a sign -/

namespace Clock

/-- Hours are spelled with one to three digits. -/
def SpellsHours (ds : List Char) (n : Nat) : Prop :=
  Decimal.Spells ds n ∧ 1 ≤ ds.length ∧ ds.length ≤ 3

/-- Minutes and seconds are spelled with two digits, up to 59. -/
def SpellsSixtieth (ds : List Char) (n : Nat) : Prop :=
  Decimal.Spells ds n ∧ ds.length = 2 ∧ n ≤ 59

/-- A clock text without a sign spells hours, minutes and seconds; seconds that are left out are zero. -/
inductive Spells : List Char → Nat → Nat → Nat → Prop
  | toMinutes {hs ms : List Char} {h m : Nat} (hhours : SpellsHours hs h) (hminutes : SpellsSixtieth ms m) :
      Spells (hs ++ ':' :: ms) h m 0
  | toSeconds {hs ms ss : List Char} {h m s : Nat} (hhours : SpellsHours hs h) (hminutes : SpellsSixtieth ms m)
      (hseconds : SpellsSixtieth ss s) : Spells (hs ++ ':' :: (ms ++ ':' :: ss)) h m s

/-- Hours are read exactly if they are spelled. -/
theorem hours_eq_ok_iff {ds : List Char} {n : Nat} : hours ds = .ok n ↔ SpellsHours ds n := by
  have hnil : ds = [] ↔ ds.length = 0 := List.length_eq_zero_iff.symm
  rw [SpellsHours, Decimal.spells_iff, hours]
  split
  · rename_i hfault
    simp only [reduceCtorEq, false_iff]
    rintro ⟨⟨hdigits, -⟩, hleast, hmost⟩
    rw [hnil, hdigits] at hfault
    simp only [Bool.true_eq_false, or_false] at hfault
    omega
  · rename_i hfaultless
    simp only [hnil, not_or, Bool.not_eq_false] at hfaultless
    obtain ⟨hleast, hmost, hdigits⟩ := hfaultless
    simp only [Except.ok.injEq, hdigits, true_and]
    constructor
    · intro hvalue
      exact ⟨hvalue, by omega, by omega⟩
    · exact fun h => h.1

/-- Minutes and seconds are read exactly if they are spelled. -/
theorem sixtieth_eq_ok_iff {f g : ClockFault} {ds : List Char} {n : Nat} :
    sixtieth f g ds = .ok n ↔ SpellsSixtieth ds n := by
  rw [SpellsSixtieth, Decimal.spells_iff, sixtieth]
  split
  · rename_i hfault
    simp only [reduceCtorEq, false_iff]
    rintro ⟨⟨hdigits, -⟩, hlen, -⟩
    rw [hdigits] at hfault
    simp only [Bool.true_eq_false, or_false] at hfault
    exact hfault hlen
  · rename_i hfaultless
    simp only [not_or, Bool.not_eq_false, ne_eq, Decidable.not_not] at hfaultless
    obtain ⟨hlen, hdigits⟩ := hfaultless
    split
    · rename_i hlarge
      simp only [reduceCtorEq, false_iff]
      rintro ⟨⟨-, rfl⟩, -, hle⟩
      omega
    · rename_i hsmall
      simp only [Except.ok.injEq, hdigits, hlen, true_and]
      constructor
      · rintro rfl
        exact ⟨rfl, by omega⟩
      · exact fun h => h.1

/-- The parts of a clock text are read from left to right, each into what it spells. -/
theorem seconds_eq_ok_iff {parts : List (List Char)} {n : Nat} :
    seconds parts = .ok n ↔
      ∃ hs ms h m, SpellsHours hs h ∧ SpellsSixtieth ms m ∧
        (parts = [hs, ms] ∧ n = 3600 * h + 60 * m ∨
          ∃ ss s, SpellsSixtieth ss s ∧ parts = [hs, ms, ss] ∧ n = 3600 * h + 60 * m + s) := by
  constructor
  · intro hread
    unfold seconds at hread
    split at hread
    · obtain ⟨h, hhours, hread⟩ := bind_eq_ok_iff.1 hread
      obtain ⟨m, hminutes, hread⟩ := bind_eq_ok_iff.1 hread
      cases hread
      exact ⟨_, _, h, m, hours_eq_ok_iff.1 hhours, sixtieth_eq_ok_iff.1 hminutes, .inl ⟨rfl, rfl⟩⟩
    · obtain ⟨h, hhours, hread⟩ := bind_eq_ok_iff.1 hread
      obtain ⟨m, hminutes, hread⟩ := bind_eq_ok_iff.1 hread
      obtain ⟨s, hseconds, hread⟩ := bind_eq_ok_iff.1 hread
      cases hread
      exact ⟨_, _, h, m, hours_eq_ok_iff.1 hhours, sixtieth_eq_ok_iff.1 hminutes,
        .inr ⟨_, s, sixtieth_eq_ok_iff.1 hseconds, rfl, rfl⟩⟩
    · cases hread
  · rintro ⟨hs, ms, h, m, hhours, hminutes, ⟨rfl, rfl⟩ | ⟨ss, s, hseconds, rfl, rfl⟩⟩
    · rw [seconds, hours_eq_ok_iff.2 hhours, sixtieth_eq_ok_iff.2 hminutes]
      rfl
    · rw [seconds, hours_eq_ok_iff.2 hhours, sixtieth_eq_ok_iff.2 hminutes, sixtieth_eq_ok_iff.2 hseconds]
      rfl

/-- **The pieces of a text are read** exactly if the text is a clock text without a sign. -/
theorem seconds_pieces_eq_ok_iff {cs : List Char} {n : Nat} :
    seconds (Split.pieces ':' cs) = .ok n ↔ ∃ h m s, Spells cs h m s ∧ n = 3600 * h + 60 * m + s := by
  have hcolon : Decimal.isDigit ':' = false := by decide
  rw [seconds_eq_ok_iff]
  constructor
  · rintro ⟨hs, ms, h, m, hhours, hminutes, ⟨hpieces, rfl⟩ | ⟨ss, s, hseconds, hpieces, rfl⟩⟩
    · obtain ⟨-, rest, rfl, hrest⟩ := Split.pieces_eq_cons_cons_iff.1 hpieces
      obtain ⟨-, rfl⟩ := Split.pieces_eq_singleton_iff.1 hrest
      exact ⟨h, m, 0, .toMinutes hhours hminutes, rfl⟩
    · obtain ⟨-, rest, rfl, hrest⟩ := Split.pieces_eq_cons_cons_iff.1 hpieces
      obtain ⟨-, tail, rfl, htail⟩ := Split.pieces_eq_cons_cons_iff.1 hrest
      obtain ⟨-, rfl⟩ := Split.pieces_eq_singleton_iff.1 htail
      exact ⟨h, m, s, .toSeconds hhours hminutes hseconds, rfl⟩
  · rintro ⟨_, _, _, htext, rfl⟩
    cases htext with
    | toMinutes hhours hminutes =>
      refine ⟨_, _, _, _, hhours, hminutes, .inl ⟨?_, rfl⟩⟩
      rw [Split.pieces_append_cons (hhours.1.not_mem hcolon), Split.pieces_of_not_mem (hminutes.1.not_mem hcolon)]
    | toSeconds hhours hminutes hseconds =>
      refine ⟨_, _, _, _, hhours, hminutes, .inr ⟨_, _, hseconds, ?_, rfl⟩⟩
      rw [Split.pieces_append_cons (hhours.1.not_mem hcolon), Split.pieces_append_cons (hminutes.1.not_mem hcolon),
        Split.pieces_of_not_mem (hseconds.1.not_mem hcolon)]

/-- Hours that are spelled are fewer than a thousand. -/
theorem SpellsHours.le {ds : List Char} {n : Nat} (h : SpellsHours ds n) : n ≤ 999 :=
  hours_le (hours_eq_ok_iff.2 h)

/-- The parts of a clock text are fewer than a thousand, sixty and sixty. -/
theorem Spells.bounds {cs : List Char} {h m s : Nat} (htext : Spells cs h m s) : h ≤ 999 ∧ m ≤ 59 ∧ s ≤ 59 := by
  cases htext with
  | toMinutes hhours hminutes => exact ⟨hhours.le, hminutes.2.2, by omega⟩
  | toSeconds hhours hminutes hseconds => exact ⟨hhours.le, hminutes.2.2, hseconds.2.2⟩

/-- A clock text without a sign does not start with one. -/
theorem SpellsHours.append_ne_minus {hs : List Char} {n : Nat} (h : SpellsHours hs n) (tail cs : List Char) :
    hs ++ tail ≠ '-' :: cs := by
  intro heq
  obtain ⟨c, ds, rfl⟩ := List.exists_cons_of_length_pos h.2.1
  obtain ⟨rfl, -⟩ := List.cons.inj heq
  exact h.1.not_mem (by decide) List.mem_cons_self

@[inherit_doc SpellsHours.append_ne_minus]
theorem Spells.ne_minus {text : List Char} {h m s : Nat} (htext : Spells text h m s) (cs : List Char) :
    text ≠ '-' :: cs := by
  cases htext with
  | toMinutes hhours _ => exact hhours.append_ne_minus _ cs
  | toSeconds hhours _ _ => exact hhours.append_ne_minus _ cs

end Clock

/-! ## What a clock text says -/

namespace Clock

/-- What a clock text says: how far a time is from the start of the service day, and on which side. -/
structure Reading where
  beforeStart : Bool
  hours : Nat
  minutes : Nat
  seconds : Nat

namespace Reading

variable {r : Reading}

/-- The seconds between a reading and the start of the service day. -/
def distance (r : Reading) : Int := 3600 * r.hours + 60 * r.minutes + r.seconds

/-- The seconds of a reading, with their sign. -/
def secs (r : Reading) : Int := if r.beforeStart then -r.distance else r.distance

/-- A reading of which each part is in its range. -/
structure InRange (r : Reading) : Prop where
  hours_le : r.hours ≤ 999
  minutes_le : r.minutes ≤ 59
  seconds_le : r.seconds ≤ 59

/-- A number that a word holds; none if it is beyond the bounds. -/
def word? (n : Int) : Option Int := if Time.least ≤ n ∧ n ≤ Time.greatest then some n else none

/-- A word holds the numbers between its bounds. -/
theorem word?_of_mem {n : Int} (h : -2147483648 ≤ n) (h' : n ≤ 2147483647) : word? n = some n :=
  if_pos ⟨h, h'⟩

/-- The seconds of a reading computed in words; none as soon as a product, a sum or the change of the sign
overflows. -/
def secs? (r : Reading) : Option Int := do
  let hours ← word? (r.hours * 3600)
  let minutes ← word? (r.minutes * 60)
  let toMinutes ← word? (hours + minutes)
  let distance ← word? (toMinutes + r.seconds)
  if r.beforeStart then word? (-distance) else some distance

/-- A reading in range is less than a thousand hours from the start of the service day. -/
theorem InRange.distance_mem (h : r.InRange) : 0 ≤ r.distance ∧ r.distance ≤ 3599999 := by
  obtain ⟨hhours, hminutes, hseconds⟩ := h
  rw [distance]
  omega

@[inherit_doc InRange.distance_mem]
theorem InRange.secs_mem (h : r.InRange) : -3599999 ≤ r.secs ∧ r.secs ≤ 3599999 := by
  have hdistance := h.distance_mem
  rw [secs]
  split <;> omega

/-- **Nothing overflows** on the way to the seconds of a reading in range. -/
theorem InRange.secs?_eq (h : r.InRange) : r.secs? = some r.secs := by
  have hdistance := h.distance_mem
  obtain ⟨hhours, hminutes, hseconds⟩ := h
  have hsum : (r.hours * 3600 + r.minutes * 60 + r.seconds : Int) = r.distance := by
    rw [distance]
    omega
  have hhoursWord : word? (r.hours * 3600) = some (r.hours * 3600 : Int) := word?_of_mem (by omega) (by omega)
  have hminutesWord : word? (r.minutes * 60) = some (r.minutes * 60 : Int) :=
    word?_of_mem (by omega) (by omega)
  have htoMinutes : word? (r.hours * 3600 + r.minutes * 60) = some (r.hours * 3600 + r.minutes * 60 : Int) :=
    word?_of_mem (by omega) (by omega)
  have hword : word? r.distance = some r.distance := word?_of_mem (by omega) (by omega)
  have hnegWord : word? (-r.distance) = some (-r.distance) := word?_of_mem (by omega) (by omega)
  simp only [secs?, secs, Option.bind_eq_bind, Option.bind_some, hhoursWord, hminutesWord, htoMinutes, hsum,
    hword, hnegWord]
  split <;> rfl

end Reading

end Clock

namespace Time

open Clock (Reading)

variable {cs : List Char} {r : Reading}

/-- A clock text spells a reading: with a minus sign in front it is before the start of the service day. -/
inductive Spells : List Char → Reading → Prop
  | unsigned {cs : List Char} {h m s : Nat} (htext : Clock.Spells cs h m s) : Spells cs ⟨false, h, m, s⟩
  | signed {cs : List Char} {h m s : Nat} (htext : Clock.Spells cs h m s) : Spells ('-' :: cs) ⟨true, h, m, s⟩

/-- What is spelled is in range. -/
theorem Spells.inRange (h : Spells cs r) : r.InRange := by
  cases h with
  | unsigned htext =>
    obtain ⟨hhours, hminutes, hseconds⟩ := htext.bounds
    exact ⟨hhours, hminutes, hseconds⟩
  | signed htext =>
    obtain ⟨hhours, hminutes, hseconds⟩ := htext.bounds
    exact ⟨hhours, hminutes, hseconds⟩

/-- The seconds of what is spelled are those of a time. -/
theorem Spells.secs_ofInt (h : Spells cs r) : (ofInt r.secs).secs = r.secs := by
  obtain ⟨hleast, hmost⟩ := h.inRange.secs_mem
  exact clamp_of_mem (by omega) (by omega)

/-- **The characters of a text are read** exactly if they spell a reading, into the time of its seconds. -/
theorem ofChars_eq_ok_iff {t : Time} : ofChars cs = .ok t ↔ ∃ r, Spells cs r ∧ ofInt r.secs = t := by
  constructor
  · intro h
    unfold ofChars at h
    split at h
    · obtain ⟨n, hn, h⟩ := bind_eq_ok_iff.1 h
      cases h
      obtain ⟨hours, minutes, seconds, htext, rfl⟩ := Clock.seconds_pieces_eq_ok_iff.1 hn
      refine ⟨_, .signed htext, ?_⟩
      simp [Reading.secs, Reading.distance]
    · obtain ⟨n, hn, h⟩ := bind_eq_ok_iff.1 h
      cases h
      obtain ⟨hours, minutes, seconds, htext, rfl⟩ := Clock.seconds_pieces_eq_ok_iff.1 hn
      refine ⟨_, .unsigned htext, ?_⟩
      simp [Reading.secs, Reading.distance]
  · rintro ⟨r, hspells, rfl⟩
    cases hspells with
    | unsigned htext =>
      have hread := Clock.seconds_pieces_eq_ok_iff.2 ⟨_, _, _, htext, rfl⟩
      unfold ofChars
      split
      · exact absurd rfl (htext.ne_minus _)
      · rw [hread]
        simp [Reading.secs, Reading.distance]
    | signed htext =>
      have hread := Clock.seconds_pieces_eq_ok_iff.2 ⟨_, _, _, htext, rfl⟩
      rw [ofChars, hread]
      simp [Reading.secs, Reading.distance]

/-- **Which texts are read.** A text is read exactly if it spells a reading, and then as the time with the
seconds of that reading, which are computed in words without overflow. Every other text is refused with a
fault. -/
theorem parse_eq_ok_iff_spells (s : String) :
    (∀ t, parse s = .ok t ↔ ∃ r, Spells s.toList r ∧ t.secs = r.secs) ∧
      (∀ r, Spells s.toList r → r.secs? = some r.secs ∧ ∃ t, parse s = .ok t ∧ t.secs = r.secs) ∧
      ((¬ ∃ r, Spells s.toList r) → ∃ fault, parse s = .error fault) := by
  have hiff : ∀ t, parse s = .ok t ↔ ∃ r, Spells s.toList r ∧ t.secs = r.secs := by
    intro t
    rw [parse, ofChars_eq_ok_iff]
    constructor
    · rintro ⟨r, hspells, rfl⟩
      exact ⟨r, hspells, hspells.secs_ofInt⟩
    · rintro ⟨r, hspells, hsecs⟩
      exact ⟨r, hspells, by rw [← hsecs, ofInt_secs]⟩
  refine ⟨hiff, ?_, ?_⟩
  · intro r hspells
    exact ⟨hspells.inRange.secs?_eq, ofInt r.secs, (hiff _).2 ⟨r, hspells, hspells.secs_ofInt⟩,
      hspells.secs_ofInt⟩
  · intro hnone
    cases hread : parse s with
    | error fault => exact ⟨fault, rfl⟩
    | ok t =>
      obtain ⟨r, hspells, -⟩ := (hiff t).1 hread
      exact absurd ⟨r, hspells⟩ hnone

end Time

end Interchange
