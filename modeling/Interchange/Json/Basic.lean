import Interchange.Json.Double

/-!
# JSON values as they are read

A `Json` is what a reader makes of a text from left to right. It keeps the members of an object in
text order with their repetitions, because the first fault in text order is the one to report, and
it keeps the faults themselves in the places where they stand:

* `Json.broken` stands where the text stops being JSON; nothing is read after it;
* a text or member name without content (`none`) is a well-formed literal that stands for no text,
  such as a lone surrogate escape.

What is written never contains either.
-/

namespace Interchange

/-- A number as it is written. A numeral without a point or an exponent is an integer; any other is
`mantissa · 10 ^ exponent`. -/
inductive Numeral
  | integer (negative : Bool) (magnitude : Nat)
  | decimal (negative : Bool) (mantissa : Nat) (exponent : Int)
  deriving DecidableEq, Repr

/-- A JSON value as it is read. -/
inductive Json
  | null
  | bool (value : Bool)
  | number (value : Numeral)
  | text (content : Option String)
  | array (items : List Json)
  | object (members : List (Option String × Json))
  | broken
  deriving Inhabited

namespace Json

/-- A text. -/
def str (s : String) : Json := .text (some s)

/-- A natural number. -/
def nat (n : Nat) : Json := .number (.integer false n)

/-- An integer. -/
def int (n : Int) : Json := .number (.integer (decide (n < 0)) n.natAbs)

/-- An object with the given members. -/
def obj (members : List (String × Json)) : Json :=
  .object (members.map fun m => (some m.1, m.2))

/-- A value, or `null` where there is none. -/
def orNull {α : Type} (f : α → Json) : Option α → Json
  | none => .null
  | some a => f a

/-- The value of the first member with a name, if the value is an object that has one. -/
def member? (name : String) : Json → Option Json
  | .object members => (members.find? fun m => m.1 == some name).map (·.2)
  | _ => none

/-! ## Soundness of a value that is only passed over -/

mutual

/-- Whether the text of a value is JSON throughout. This is all that is asked of a value that is
passed over. -/
def isWhole : Json → Bool
  | .broken => false
  | .array items => itemsAreWhole items
  | .object members => membersAreWhole members
  | _ => true

/-- Whether the items of an array are JSON throughout. -/
def itemsAreWhole : List Json → Bool
  | [] => true
  | v :: rest => v.isWhole && itemsAreWhole rest

/-- Whether the members of an object are JSON throughout. -/
def membersAreWhole : List (Option String × Json) → Bool
  | [] => true
  | (_, v) :: rest => v.isWhole && membersAreWhole rest

end

/-! ## Soundness of a value that is kept for later -/

/-- Whether a number is finite in double precision. -/
def finiteNumeral : Numeral → Bool
  | .integer _ magnitude => Double.isFinite magnitude 0
  | .decimal _ mantissa exponent => Double.isFinite mantissa exponent

mutual

/-- Whether a value can be kept before its place in the data is known: it is JSON throughout, its
texts have content, its numbers are finite, and it nests at most `depth` containers. -/
def isPlain (depth : Nat) : Json → Bool
  | .broken => false
  | .text content => content.isSome
  | .number value => finiteNumeral value
  | .array items => match depth with
    | 0 => false
    | depth + 1 => itemsArePlain depth items
  | .object members => match depth with
    | 0 => false
    | depth + 1 => membersArePlain depth members
  | _ => true

/-- Whether the items of an array can be kept. -/
def itemsArePlain (depth : Nat) : List Json → Bool
  | [] => true
  | v :: rest => v.isPlain depth && itemsArePlain depth rest

/-- Whether the members of an object can be kept. -/
def membersArePlain (depth : Nat) : List (Option String × Json) → Bool
  | [] => true
  | (name, v) :: rest => name.isSome && v.isPlain depth && membersArePlain depth rest

end

end Json

end Interchange
