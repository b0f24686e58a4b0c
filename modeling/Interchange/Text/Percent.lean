import Interchange.Text.Hexadecimal
import Interchange.Text.Split
import Interchange.Text.Utf8

/-!
# Percent encoding

* `Percent.decode` — the bytes of an encoded text. A percent sign that is not followed by two
  hexadecimal digits stands for itself.
* `Percent.form` — the names and values of a form, such as the query of a request.
-/

namespace Interchange.Percent

/-- The value of a byte as a hexadecimal digit. -/
def hexByte? (b : UInt8) : Option Nat := Hexadecimal.digit? (Char.ofNat b.toNat)

/-- The bytes that a row of bytes with percent escapes stands for. -/
def decodeBytes : List UInt8 → List UInt8
  | [] => []
  | b :: rest =>
    if b = '%'.toUInt8 then
      match rest with
      | high :: low :: rest' =>
        match hexByte? high, hexByte? low with
        | some h, some l => UInt8.ofNat (16 * h + l) :: decodeBytes rest'
        | _, _ => b :: decodeBytes (high :: low :: rest')
      | short => b :: decodeBytes short
    else b :: decodeBytes rest
termination_by structural bytes => bytes

/-- The characters of an encoded text, with marks where its bytes encode none. -/
def decode (s : List Char) : Source :=
  Utf8.decode (decodeBytes (Utf8.encode (String.ofList s)))

/-- A name or value of a form: a plus sign stands for a space. -/
def formText (s : List Char) : String :=
  (decode (s.map fun c => if c = '+' then ' ' else c)).lossyText

/-- The names and values of a form, in order. A name without an equals sign has the empty value, and
empty pieces are passed over. -/
def form (s : List Char) : List (String × String) :=
  ((Split.pieces '&' s).filter fun piece => !piece.isEmpty).map fun piece =>
    let (name, value) := Split.cut '=' piece
    (formText name, formText (value.getD []))

end Interchange.Percent
