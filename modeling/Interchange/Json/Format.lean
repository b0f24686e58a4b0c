import Interchange.InvalidValue
import Interchange.Json.Printer
import Interchange.Json.Reader

/-!
# Formats

A `Format α` says how a value of type `α` is written as JSON and read back. A format is put together
from smaller ones, so that both directions always speak about the same members.

* `Members α` — how the members of an object are read. They are read one by one in text order, which
  is why what has been read so far is carried in `State`.
* `Record α` — members that can also be written. `Record.format` writes an object. It reads an
  object, where unknown members are passed over, or an array of the values in order, where values at
  the end may be left out once `required` of them are there.
* `Format.tagged` — one of several kinds of members, chosen by the member `type` or by the first
  item.
* `Format.ofSource` — reads a whole text; the first fault from the left is the one that is told.

The number that decoding takes is how many more containers may be entered.
-/

namespace Interchange

/-- Why a text does not hold the value that was asked for: it is malformed, or it is sound and a
text in it was rejected. -/
inductive DecodeFault
  | malformed
  | rejected (cause : InvalidValue)
  deriving DecidableEq

/-- The wording of a fault. -/
def DecodeFault.message : DecodeFault → String
  | .malformed => "malformed"
  | .rejected cause => cause.message

/-- How values of a type are written as JSON and read back. -/
structure Format (α : Type) where
  encode : α → Json
  decode : Nat → Json → Except DecodeFault α

namespace Format

/-! ## Plain values -/

/-- A text. -/
def text : Format String where
  encode := Json.str
  decode _
    | .text (some s) => .ok s
    | _ => .error .malformed

/-- A truth value. -/
def bool : Format Bool where
  encode := Json.bool
  decode _
    | .bool b => .ok b
    | _ => .error .malformed

/-- A natural number below a bound, written as an integer without a sign. -/
def natural (bound : Nat) : Format Nat where
  encode := Json.nat
  decode _
    | .number (.integer false n) => if n < bound then .ok n else .error .malformed
    | _ => .error .malformed

/-- An integer at least `-bound` and below `bound`; zero has no sign. -/
def integer (bound : Nat) : Format Int where
  encode := Json.int
  decode _
    | .number (.integer false n) => if n < bound then .ok n else .error .malformed
    | .number (.integer true n) =>
      if n ≠ 0 ∧ n ≤ bound then .ok (-n) else .error .malformed
    | _ => .error .malformed

/-- A format read through a check that may reject what was read. -/
def checked {α β : Type} (f : Format α) (make : α → Except InvalidValue β) (view : β → α) :
    Format β where
  encode b := f.encode (view b)
  decode depth v := do
    match make (← f.decode depth v) with
    | .ok b => return b
    | .error cause => throw (.rejected cause)

/-- A value of another type that carries the same information. -/
def map {α β : Type} (f : Format α) (make : α → β) (view : β → α) : Format β where
  encode b := f.encode (view b)
  decode depth v := return make (← f.decode depth v)

/-- A value, or `null` in its place. -/
def orNull {α : Type} (f : Format α) : Format (Option α) where
  encode := Json.orNull f.encode
  decode depth
    | .null => .ok none
    | v => return some (← f.decode depth v)

/-- Items in order. -/
def list {α : Type} (f : Format α) : Format (List α) where
  encode as := .array (as.map f.encode)
  decode
    | depth + 1, .array items => items.mapM (f.decode depth)
    | _, _ => .error .malformed

/-- The value that a table lists under a name. -/
def named {α : Type} (table : List (String × α)) (name : String) : Except DecodeFault α :=
  match table.lookup name with
  | some a => .ok a
  | none => .error .malformed

/-- One of several names. A name may also be the only member of an object, with the value `null`. -/
def oneOf {α : Type} (table : List (String × α)) (name : α → String) : Format α where
  encode a := Json.str (name a)
  decode
    | _, .text (some s) => named table s
    | _ + 1, .object [(some s, .null)] => named table s
    | _, _ => .error .malformed

end Format

/-! ## Reading the members of an object -/

/-- How the members of an object are read: their names in order, how many an array must hold at
least, how one is read onto what is read so far, and how the whole is made in the end. -/
structure Members (α : Type) where
  State : Type
  start : State
  names : List String
  required : Nat
  read : Nat → String → Json → State → Except DecodeFault State
  finish : State → Except DecodeFault α

namespace Members

variable {α β : Type}

/-- No members. -/
def nothing : Members Unit where
  State := Unit
  start := ()
  names := []
  required := 0
  read _ _ _ s := .ok s
  finish _ := .ok ()

/-- A value made from the one that the members stand for. -/
def map (m : Members α) (make : α → β) : Members β where
  State := m.State
  start := m.start
  names := m.names
  required := m.required
  read := m.read
  finish st := return make (← m.finish st)

/-- The members of one object and behind them those of another. -/
def and (m : Members α) (m' : Members β) : Members (α × β) where
  State := m.State × m'.State
  start := (m.start, m'.start)
  names := m.names ++ m'.names
  required := if m'.required = 0 then m.required else m.names.length + m'.required
  read depth name v st :=
    if name ∈ m.names then return (← m.read depth name v st.1, st.2)
    else return (st.1, ← m'.read depth name v st.2)
  finish st := return (← m.finish st.1, ← m'.finish st.2)

/-- Reads the members of an object in text order. An unknown member is passed over. -/
def readMembers (m : Members α) (depth : Nat) :
    List (Option String × Json) → m.State → Except DecodeFault m.State
  | [], st => .ok st
  | (none, _) :: _, _ => .error .malformed
  | (some name, v) :: rest, st => do
    if name ∈ m.names then readMembers m depth rest (← m.read depth name v st)
    else if v.isWhole then readMembers m depth rest st
    else .error .malformed

/-- Reads the items of an array as the members with the given names. -/
def readItems (m : Members α) (depth : Nat) :
    List String → List Json → m.State → Except DecodeFault m.State
  | _, [], st => .ok st
  | [], _ :: _, _ => .error .malformed
  | name :: names, v :: rest, st => do
    readItems m depth names rest (← m.read depth name v st)

/-- The value whose members an object holds. -/
def ofObject (m : Members α) (depth : Nat) (ms : List (Option String × Json)) :
    Except DecodeFault α := do
  m.finish (← m.readMembers depth ms m.start)

/-- The value whose members an array holds in order. -/
def ofArray (m : Members α) (depth : Nat) (items : List Json) : Except DecodeFault α := do
  let st ← m.readItems depth m.names items m.start
  if m.required ≤ items.length then m.finish st else .error .malformed

end Members

/-! ## Records -/

/-- The members of an object, as they are read and as they are written. -/
structure Record (α : Type) extends Members α where
  write : α → List (String × Json)

namespace Record

variable {α β : Type}

/-- Reads a member that may occur once. -/
def once (f : Format α) (depth : Nat) (v : Json) : Option α → Except DecodeFault (Option α)
  | some _ => .error .malformed
  | none => return some (← f.decode depth v)

/-- A member that must be there. -/
def field (name : String) (f : Format α) : Record α where
  State := Option α
  start := none
  names := [name]
  required := 1
  read depth _ := once f depth
  finish
    | some a => .ok a
    | none => .error .malformed
  write a := [(name, f.encode a)]

/-- A member that stands for a given value when it is left out. -/
def fieldOr (name : String) (f : Format α) (absent : α) : Record α where
  State := Option α
  start := none
  names := [name]
  required := 0
  read depth _ := once f depth
  finish s := .ok (s.getD absent)
  write a := [(name, f.encode a)]

/-- A member for an optional value: `null` means the same as leaving it out, and a missing value is
written by leaving it out. In an array it can be left out at the end if `omissible` says so. -/
def fieldOpt (name : String) (f : Format α) (omissible : Bool) : Record (Option α) where
  State := Option (Option α)
  start := none
  names := [name]
  required := if omissible then 0 else 1
  read depth _ := once f.orNull depth
  finish s := .ok (s.getD none)
  write
    | some a => [(name, f.encode a)]
    | none => []

/-- The members of one record and behind them those of another. -/
def and (r : Record α) (r' : Record β) : Record (α × β) where
  toMembers := r.toMembers.and r'.toMembers
  write p := r.write p.1 ++ r'.write p.2

/-- A record of another type that carries the same information. -/
def map (r : Record α) (make : α → β) (view : β → α) : Record β where
  toMembers := r.toMembers.map make
  write b := r.write (view b)

/-- A record written as an object, and read from an object or an array. -/
def format (r : Record α) : Format α where
  encode a := Json.obj (r.write a)
  decode
    | depth + 1, .object ms => r.ofObject depth ms
    | depth + 1, .array items => r.ofArray depth items
    | _, _ => .error .malformed

end Record

namespace Format

/-! ## Tagged objects -/

/-- The name of the member that tells which members an object holds. -/
def tag : String := "type"

/-- One of several kinds of members. It is written as an object whose first member is the tag. The tag
may stand anywhere in an object that is read, so the whole object is kept until the tag is known; in
an array it comes first. -/
def tagged {α : Type} (variants : List (String × Members α))
    (view : α → String × List (String × Json)) : Format α where
  encode a := Json.obj ((tag, Json.str (view a).1) :: (view a).2)
  decode depth v :=
    -- the tag may come last, so the whole value has to be sound before any member is read
    if v.isPlain depth then
      match v with
      | .object ms =>
        match ms.filter fun e => e.1 == some tag with
        | [(_, .text (some name))] =>
          match variants.lookup name with
          | some m => m.ofObject depth (ms.filter fun e => !(e.1 == some tag))
          | none => .error .malformed
        | _ => .error .malformed
      | .array (.text (some name) :: items) =>
        match variants.lookup name with
        | some m => m.ofArray depth items
        | none => .error .malformed
      | _ => .error .malformed
    else .error .malformed

/-! ## Whole texts -/

/-- How many containers may be nested in a text. -/
def nestingLimit : Nat := 127

/-- Reads a whole text; only blanks may stand around the value. -/
def ofSource {α : Type} (f : Format α) (s : Source) : Except DecodeFault α := do
  let (v, rest) := Json.read s
  let a ← f.decode nestingLimit v
  if (Json.skipBlanks rest).isEmpty then return a else throw .malformed

/-- Reads a whole text. -/
def ofString {α : Type} (f : Format α) (s : String) : Except DecodeFault α :=
  f.ofSource (Source.ofString s)

/-- The text of a value. -/
def toString {α : Type} (f : Format α) (a : α) : String := (f.encode a).written

end Format

end Interchange
