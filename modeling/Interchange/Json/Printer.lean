import Interchange.Json.Basic
import Interchange.Text.Decimal

/-!
# Writing JSON

`Json.render` writes a value without blanks. In a text only the quote, the backslash and the control
characters are escaped: by a letter where there is one, otherwise by four hexadecimal digits.
-/

namespace Interchange.Json

/-- The hexadecimal digit of a number below sixteen. -/
def hexChar (n : Nat) : Char := Nat.digitChar n

/-- The characters that stand for a character within a text literal. -/
def escape (c : Char) : List Char :=
  if c = '"' then ['\\', '"']
  else if c = '\\' then ['\\', '\\']
  else if c = '\x08' then ['\\', 'b']
  else if c = '\x0c' then ['\\', 'f']
  else if c = '\n' then ['\\', 'n']
  else if c = '\r' then ['\\', 'r']
  else if c = '\t' then ['\\', 't']
  else if c.toNat < 0x20 then
    ['\\', 'u', '0', '0', hexChar (c.toNat / 16), hexChar (c.toNat % 16)]
  else [c]

/-- A text literal. -/
def renderText (cs : List Char) : List Char := '"' :: cs.flatMap escape ++ ['"']

/-- The sign of a numeral. -/
def renderSign (negative : Bool) : List Char := if negative then ['-'] else []

/-- A numeral. -/
def renderNumeral : Numeral → List Char
  | .integer negative magnitude => renderSign negative ++ Decimal.digits magnitude
  | .decimal negative mantissa exponent =>
    renderSign negative ++ Decimal.digits mantissa ++ 'e' ::
      (renderSign (decide (exponent < 0)) ++ Decimal.digits exponent.natAbs)

mutual

/-- The characters of a value. A text without content is written empty and a break as nothing;
values that are made to be written hold neither. -/
def render : Json → List Char
  | .null => ['n', 'u', 'l', 'l']
  | .bool true => ['t', 'r', 'u', 'e']
  | .bool false => ['f', 'a', 'l', 's', 'e']
  | .number n => renderNumeral n
  | .text content => renderText (content.getD "").toList
  | .array [] => ['[', ']']
  | .array (v :: rest) => '[' :: render v ++ renderItems rest
  | .object [] => ['\x7b', '\x7d']
  | .object ((name, v) :: rest) =>
    '\x7b' :: renderText (name.getD "").toList ++ ':' :: render v ++ renderMembers rest
  | .broken => []

/-- The characters behind the first item of an array. -/
def renderItems : List Json → List Char
  | [] => [']']
  | v :: rest => ',' :: render v ++ renderItems rest

/-- The characters behind the first member of an object. -/
def renderMembers : List (Option String × Json) → List Char
  | [] => ['\x7d']
  | (name, v) :: rest =>
    ',' :: renderText (name.getD "").toList ++ ':' :: render v ++ renderMembers rest

end

/-- The text of a value. -/
def written (v : Json) : String := String.ofList v.render

end Interchange.Json
