import Interchange.Json.Basic
import Interchange.Text.Decimal
import Interchange.Text.Hexadecimal
import Interchange.Text.Utf8

/-!
# Reading JSON

`Json.read` takes one value from the front of a text and gives back the rest. It never fails: where
the text stops being JSON it puts `Json.broken` and reads nothing more, so that whoever walks the
value from left to right meets the faults in text order.

A text literal is read in two steps: `pieces` takes the literal apart into characters and escaped
16-bit units, and `joinUnits` joins surrogate pairs. A unit without its partner, or a mark left by
bytes that encode no character, leaves the literal without content.
-/

namespace Interchange.Json

/-! ## Blanks -/

/-- The four characters that may stand between the parts of a JSON text. -/
def isBlank (c : Char) : Bool := c = ' ' || c = '\t' || c = '\n' || c = '\r'

/-- A text without its leading blanks. -/
def skipBlanks : Source → Source
  | some c :: rest => if isBlank c then skipBlanks rest else some c :: rest
  | s => s

/-! ## Text literals -/

/-- A part of a text literal. -/
inductive Piece
  | char (c : Char)
  | unit (value : Nat)
  | mark

/-- The unit that four hexadecimal digits stand for. -/
def hexUnit? (a b c d : Char) : Option Nat := do
  let a ← Hexadecimal.digit? a
  let b ← Hexadecimal.digit? b
  let c ← Hexadecimal.digit? c
  let d ← Hexadecimal.digit? d
  return ((a * 16 + b) * 16 + c) * 16 + d

/-- The character that a letter stands for behind a backslash. -/
def escaped? : Char → Option Char
  | '"' => some '"'
  | '\\' => some '\\'
  | '/' => some '/'
  | 'b' => some '\x08'
  | 'f' => some '\x0c'
  | 'n' => some '\n'
  | 'r' => some '\r'
  | 't' => some '\t'
  | _ => none

/-- The parts of a text literal behind its opening quote, and what follows its closing quote. There
are none when the literal is not closed, or holds a control character or an unknown escape. -/
def pieces : Source → Option (List Piece × Source)
  | [] => none
  | none :: rest => (pieces rest).map fun r => (.mark :: r.1, r.2)
  | some c :: rest =>
    if c = '"' then some ([], rest)
    else if c = '\\' then
      match rest with
      | some 'u' :: some h₁ :: some h₂ :: some h₃ :: some h₄ :: rest =>
        match hexUnit? h₁ h₂ h₃ h₄ with
        | some u => (pieces rest).map fun r => (.unit u :: r.1, r.2)
        | none => none
      | some e :: rest =>
        match escaped? e with
        | some x => (pieces rest).map fun r => (.char x :: r.1, r.2)
        | none => none
      | _ => none
    else if c.toNat < 0x20 then none
    else (pieces rest).map fun r => (.char c :: r.1, r.2)

/-- Whether a unit is the first half of a surrogate pair. -/
def isHigh (u : Nat) : Bool := 0xD800 ≤ u && u ≤ 0xDBFF

/-- Whether a unit is the second half of a surrogate pair. -/
def isLow (u : Nat) : Bool := 0xDC00 ≤ u && u ≤ 0xDFFF

/-- What a part gives where no pair is open: the characters that are finished, and the first half of
a pair that it opens. -/
def openPair : Piece → Source × Option Nat
  | .char c => ([some c], none)
  | .mark => ([none], none)
  | .unit u =>
    if isHigh u then ([], some u)
    else if isLow u then ([none], none)
    else ([some (Char.ofNat u)], none)

/-- What a part gives behind the first half of a pair. A part that is not the second half leaves the
first half as no character. -/
def closePair (high : Nat) (p : Piece) : Source × Option Nat :=
  match p with
  | .unit u =>
    if isLow u then
      ([some (Char.ofNat (0x10000 + (high - 0xD800) * 0x400 + (u - 0xDC00)))], none)
    else (none :: (openPair p).1, (openPair p).2)
  | _ => (none :: (openPair p).1, (openPair p).2)

/-- The characters of a text literal, given the first half of a pair that is open. -/
def joinUnits : Option Nat → List Piece → Source
  | none, [] => []
  | some _, [] => [none]
  | none, p :: rest => (openPair p).1 ++ joinUnits (openPair p).2 rest
  | some high, p :: rest => (closePair high p).1 ++ joinUnits (closePair high p).2 rest

/-- The content of a text literal behind its opening quote, if every part of it is a character, and
what follows its closing quote. -/
def literal (s : Source) : Option (Option String × Source) :=
  (pieces s).map fun r => ((joinUnits none r.1).text?, r.2)

/-! ## Numerals -/

/-- The digits at the front of a text, and the rest. -/
def spanDigits : Source → List Char × Source
  | some c :: rest =>
    if Decimal.isDigit c then
      let (ds, r) := spanDigits rest
      (c :: ds, r)
    else ([], some c :: rest)
  | s => ([], s)

/-- The digits behind a decimal point, none when there is no point. -/
def fraction (s : Source) : Option (List Char × Source) :=
  match s with
  | some '.' :: rest =>
    match spanDigits rest with
    | ([], _) => none
    | (ds, r) => some (ds, r)
  | _ => some ([], s)

/-- The exponent of a numeral, if it has one. -/
def exponent (s : Source) : Option (Option Int × Source) :=
  let unsigned (negative : Bool) (s : Source) : Option (Option Int × Source) :=
    match spanDigits s with
    | ([], _) => none
    | (ds, r) =>
      some (some (if negative then -(Decimal.value ds : Int) else Decimal.value ds), r)
  let signed (s : Source) : Option (Option Int × Source) :=
    match s with
    | some '-' :: rest => unsigned true rest
    | some '+' :: rest => unsigned false rest
    | _ => unsigned false s
  match s with
  | some 'e' :: rest => signed rest
  | some 'E' :: rest => signed rest
  | _ => some (none, s)

/-- The numeral at the front of a text behind its sign, and the rest. The whole part has a digit,
and more than one only when the first is not zero. -/
def numeral (negative : Bool) (s : Source) : Option (Numeral × Source) :=
  match spanDigits s with
  | ([], _) => none
  | ('0' :: _ :: _, _) => none
  | (whole, r) => do
    let (places, r) ← fraction r
    let (power, r) ← exponent r
    match places, power with
    | [], none => return (.integer negative (Decimal.value whole), r)
    | _, _ =>
      return (.decimal negative (Decimal.value (whole ++ places))
        (power.getD 0 - places.length), r)

/-! ## Values -/

/-- The rest of a text that starts with a given word. -/
def afterWord : List Char → Source → Option Source
  | [], s => some s
  | c :: word, some d :: rest => if c = d then afterWord word rest else none
  | _ :: _, _ => none

/-- A value that is a fixed word. -/
def word (letters : List Char) (v : Json) (s : Source) : Json × Source :=
  match afterWord letters s with
  | some rest => (v, rest)
  | none => (.broken, [])

/-- A value that is a numeral. -/
def numberValue (negative : Bool) (s : Source) : Json × Source :=
  match numeral negative s with
  | some (n, rest) => (.number n, rest)
  | none => (.broken, [])

mutual

/-- The value at the front of a text, and the rest. The first argument bounds the number of calls
that are nested; twice the length of the text is more than enough. -/
def value : Nat → Source → Json × Source
  | 0, _ => (.broken, [])
  | fuel + 1, s =>
    match skipBlanks s with
    | some 'n' :: rest => word ['u', 'l', 'l'] .null rest
    | some 't' :: rest => word ['r', 'u', 'e'] (.bool true) rest
    | some 'f' :: rest => word ['a', 'l', 's', 'e'] (.bool false) rest
    | some '"' :: rest =>
      match literal rest with
      | some (content, rest) => (.text content, rest)
      | none => (.broken, [])
    | some '[' :: rest =>
      match skipBlanks rest with
      | some ']' :: rest => (.array [], rest)
      | _ =>
        let (vs, rest) := items fuel rest
        (.array vs, rest)
    | some '{' :: rest =>
      match skipBlanks rest with
      | some '}' :: rest => (.object [], rest)
      | _ =>
        let (ms, rest) := members fuel rest
        (.object ms, rest)
    | some '-' :: rest => numberValue true rest
    | rest => numberValue false rest

/-- The items of an array up to its closing bracket, at least one, and the rest. -/
def items : Nat → Source → List Json × Source
  | 0, _ => ([.broken], [])
  | fuel + 1, s =>
    let (v, rest) := value fuel s
    match skipBlanks rest with
    | some ',' :: rest =>
      let (vs, rest) := items fuel rest
      (v :: vs, rest)
    | some ']' :: rest => ([v], rest)
    | _ => ([v, .broken], [])

/-- The members of an object up to its closing brace, at least one, and the rest. -/
def members : Nat → Source → List (Option String × Json) × Source
  | 0, _ => ([(none, .broken)], [])
  | fuel + 1, s =>
    match skipBlanks s with
    | some '"' :: rest =>
      match literal rest with
      | none => ([(none, .broken)], [])
      | some (name, rest) =>
        match skipBlanks rest with
        | some ':' :: rest =>
          let (v, rest) := value fuel rest
          match skipBlanks rest with
          | some ',' :: rest =>
            let (ms, rest) := members fuel rest
            ((name, v) :: ms, rest)
          | some '}' :: rest => ([(name, v)], rest)
          | _ => ([(name, v), (none, .broken)], [])
        | _ => ([(name, .broken)], [])
    | _ => ([(none, .broken)], [])

end

/-- The value at the front of a text, and the rest. -/
def read (s : Source) : Json × Source := value (2 * s.length + 1) s

end Interchange.Json
