/-!
# Characters of a byte text

* `Utf8.decode` — the characters that a row of bytes encodes. Bytes that encode no character are
  kept as marks: each longest piece that could still have become a character, or else each single
  byte, is one `none`.
* `Utf8.text?` — the text of a row of bytes that encodes characters throughout.
* `Utf8.lossyText` — the text in which each mark is written as the replacement character.
-/

namespace Interchange

/-- A row of characters, with a mark for each piece of the bytes they were read from that encodes no
character. -/
abbrev Source := List (Option Char)

/-- The characters of a text, which has no marks. -/
def Source.ofString (s : String) : Source := s.toList.map some

namespace Utf8

/-- A character that is read halfway: the bits so far, how many bytes follow, and the bounds of the
next one. -/
structure Partway where
  bits : Nat
  missing : Nat
  low : Nat
  high : Nat

/-- What the first byte of a character of several bytes announces. The bounds of the second byte
leave out overlong forms, surrogates and what lies beyond the last character. -/
def lead? (b : Nat) : Option Partway :=
  if 0xC2 ≤ b ∧ b ≤ 0xDF then some ⟨b - 0xC0, 1, 0x80, 0xBF⟩
  else if b = 0xE0 then some ⟨0, 2, 0xA0, 0xBF⟩
  else if b = 0xED then some ⟨0xD, 2, 0x80, 0x9F⟩
  else if 0xE1 ≤ b ∧ b ≤ 0xEF then some ⟨b - 0xE0, 2, 0x80, 0xBF⟩
  else if b = 0xF0 then some ⟨0, 3, 0x90, 0xBF⟩
  else if 0xF1 ≤ b ∧ b ≤ 0xF3 then some ⟨b - 0xF0, 3, 0x80, 0xBF⟩
  else if b = 0xF4 then some ⟨4, 3, 0x80, 0x8F⟩
  else none

/-- What a byte at the start of a character gives: what is finished, and what is now halfway. -/
def start (b : Nat) : Source × Option Partway :=
  if b < 0x80 then ([some (Char.ofNat b)], none)
  else
    match lead? b with
    | some p => ([], some p)
    | none => ([none], none)

/-- What a byte gives while a character is halfway. A byte that does not continue the character
leaves a mark for it and starts anew. -/
def extend (p : Partway) (b : Nat) : Source × Option Partway :=
  if p.low ≤ b ∧ b ≤ p.high then
    let bits := 64 * p.bits + (b - 0x80)
    if p.missing ≤ 1 then ([some (Char.ofNat bits)], none)
    else ([], some ⟨bits, p.missing - 1, 0x80, 0xBF⟩)
  else
    let (done, next) := start b
    (none :: done, next)

/-- Decodes the remaining bytes, given what is halfway. -/
def scan : Option Partway → List UInt8 → Source
  | none, [] => []
  | some _, [] => [none]
  | none, b :: rest =>
    let (done, next) := start b.toNat
    done ++ scan next rest
  | some p, b :: rest =>
    let (done, next) := extend p b.toNat
    done ++ scan next rest

/-- The characters that a row of bytes encodes, with marks. -/
def decode (bytes : List UInt8) : Source := scan none bytes

/-- The bytes that encode a text. -/
def encode (s : String) : List UInt8 := s.toUTF8.toList

end Utf8

/-- The text of a row without marks. -/
def Source.text? (s : Source) : Option String := (s.mapM id).map String.ofList

/-- The text of a row, in which a mark is written as the replacement character. -/
def Source.lossyText (s : Source) : String :=
  String.ofList (s.map fun c => c.getD (Char.ofNat 0xFFFD))

end Interchange
