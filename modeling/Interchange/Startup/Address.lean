import Interchange.Text.Decimal
import Interchange.Text.Hexadecimal

/-!
# Socket addresses

An address to listen on is written `a.b.c.d:n` or `[groups]:n`, where `n` is the port number. The
latter may have a scope number behind a percent sign.

* `SocketAddress.parse?` — reads an address that fills the whole text. Octets have no leading zeros;
  groups may be shortened by `::` once and may end in an octet form.
* `SocketAddress.text` — the canonical form: groups in lower case without leading zeros, and the
  first longest row of at least two zero groups shortened.
-/

namespace Interchange

/-- An address to listen on: four octets or eight groups of sixteen bits. -/
inductive SocketAddress
  | v4 (octets : List Nat) (portNumber : Nat)
  | v6 (groups : List Nat) (scope : Nat) (portNumber : Nat)
  deriving DecidableEq

namespace SocketAddress

/-! ## Reading -/

/-- The number at the front of a text and the rest: digits of a base, at most `most` of them if that
is given, with leading zeros only if `zeros` says so, and a value below `bound`. -/
def number (base : Nat) (most : Option Nat) (zeros : Bool) (bound : Nat) (s : List Char) :
    Option (Nat × List Char) :=
  let isDigit (c : Char) : Bool := (Hexadecimal.digit? c).any fun d => decide (d < base)
  let ds := s.takeWhile isDigit
  let n := ds.foldl (fun n c => base * n + (Hexadecimal.digit? c).getD 0) 0
  if ds = [] ∨ most.any (fun m => decide (m < ds.length)) = true then none
  else if !zeros && ds.head? == some '0' && decide (1 < ds.length) then none
  else if n < bound then some (n, s.dropWhile isDigit)
  else none

/-- The rest of a text behind a given character. -/
def after (c : Char) : List Char → Option (List Char)
  | d :: rest => if c = d then some rest else none
  | [] => none

/-- Four octets at the front of a text, and the rest. -/
def octets (s : List Char) : Option (List Nat × List Char) := do
  let octet := number 10 (some 3) false 256
  let (a, s) ← octet s
  let (b, s) ← octet (← after '.' s)
  let (c, s) ← octet (← after '.' s)
  let (d, s) ← octet (← after '.' s)
  return ([a, b, c, d], s)

/-- Up to `room` groups at the front of a text, whether they end in an octet form, and the rest. An
octet form takes the room of two groups. -/
def groups (first : Bool) : Nat → List Char → List Nat × Bool × List Char
  | 0, s => ([], false, s)
  | room + 1, s =>
    let start := if first then some s else after ':' s
    -- with room for one group only, four octets cannot stand here
    let octets? := if room = 0 then none else start.bind octets
    match octets? with
    | some ([a, b, c, d], rest) => ([256 * a + b, 256 * c + d], true, rest)
    | _ =>
      match start.bind (number 16 (some 4) true 65536) with
      | some (g, rest) =>
        let (gs, inOctets, rest) := groups false room rest
        (g :: gs, inOctets, rest)
      | none => ([], false, s)

/-- Eight groups at the front of a text, and the rest. A double colon stands for as many zero groups
as are missing, at least one; an octet form cannot stand in front of it. -/
def eightGroups (s : List Char) : Option (List Nat × List Char) :=
  let (front, inOctets, rest) := groups true 8 s
  if front.length = 8 then some (front, rest)
  else if inOctets then none
  else do
    let rest ← after ':' rest
    let rest ← after ':' rest
    let (back, _, rest) := groups true (7 - front.length) rest
    return (front ++ List.replicate (8 - front.length - back.length) 0 ++ back, rest)

/-- The port number behind a colon, at the end of a text. -/
def portNumber (s : List Char) : Option Nat := do
  match ← number 10 none true 65536 (← after ':' s) with
  | (n, []) => some n
  | _ => none

/-- The scope number behind a percent sign, zero when there is none, and the rest. -/
def scope (s : List Char) : Nat × List Char :=
  ((after '%' s).bind (number 10 none true 4294967296)).getD (0, s)

/-- Reads a whole text as an address. -/
def parse? (text : String) : Option SocketAddress :=
  let s := text.toList
  match octets s with
  | some (os, rest) => (portNumber rest).map fun p => .v4 os p
  | none => do
    let (gs, rest) ← eightGroups (← after '[' s)
    let (scope, rest) := scope rest
    let p ← portNumber (← after ']' rest)
    return .v6 gs scope p

/-! ## Writing -/

/-- The written form of four octets. -/
def octetText (os : List Nat) : String := ".".intercalate (os.map Decimal.text)

/-- Groups with colons between them. -/
def groupText (gs : List Nat) : String := ":".intercalate (gs.map Hexadecimal.text)

/-- The first longest row of zero groups: where it starts and how long it is. -/
def longestZeros (gs : List Nat) : Nat × Nat :=
  (List.range gs.length).foldl
    (fun best i =>
      let n := ((gs.drop i).takeWhile fun g => decide (g = 0)).length
      if best.2 < n then (i, n) else best)
    (0, 0)

/-- The written form of eight groups. Groups that stand for octets are written as such. -/
def eightGroupText (gs : List Nat) : String :=
  match gs with
  | [0, 0, 0, 0, 0, 0xFFFF, g, h] =>
    "::ffff:" ++ octetText [g / 256, g % 256, h / 256, h % 256]
  | _ =>
    let (start, n) := longestZeros gs
    if 1 < n then groupText (gs.take start) ++ "::" ++ groupText (gs.drop (start + n))
    else groupText gs

/-- The canonical form of an address. -/
def text : SocketAddress → String
  | .v4 os n => octetText os ++ ":" ++ Decimal.text n
  | .v6 gs scope n =>
    "[" ++ eightGroupText gs ++ (if scope = 0 then "" else "%" ++ Decimal.text scope) ++ "]:" ++
      Decimal.text n

/-- Port number 3000 of the machine itself. -/
def localhost : SocketAddress := .v4 [127, 0, 0, 1] 3000

end SocketAddress

end Interchange
