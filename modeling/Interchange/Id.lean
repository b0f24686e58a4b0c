/-!
# Identifiers

Everything in a timetable is known by an opaque, non-empty text. An identifier carries the kind of
thing it names in its type, so a stop can never be asked for where a trip is meant.

* `Id kind` — an identifier of the given kind.
* `Id.ofString?` — refuses exactly the empty text.
* Identifiers are ordered by their text, character by character in code-point order, which is also
  the order of their UTF-8 bytes.
-/

namespace Interchange

/-- The kinds of things that have an identifier. -/
inductive IdKind
  | stop
  | station
  | route
  | trip
  | pattern
  | transfer
  deriving DecidableEq, Repr

/-- The word for a kind in messages. -/
def IdKind.word : IdKind → String
  | .stop => "stop"
  | .station => "station"
  | .route => "route"
  | .trip => "trip"
  | .pattern => "pattern"
  | .transfer => "transfer"

/-- The label that marks an identifier of a kind where values are shown with their type. -/
def IdKind.label : IdKind → String
  | .stop => "StopId"
  | .station => "StationId"
  | .route => "RouteId"
  | .trip => "TripId"
  | .pattern => "PatternId"
  | .transfer => "TransferId"

/-- An identifier: a text that is not empty. -/
structure Id (kind : IdKind) where
  text : String
  text_ne_empty : text ≠ ""
  deriving DecidableEq

abbrev StopId := Id .stop
abbrev StationId := Id .station
abbrev RouteId := Id .route
abbrev TripId := Id .trip
abbrev PatternId := Id .pattern
abbrev TransferId := Id .transfer

namespace Id

variable {kind : IdKind}

/-- The identifier with a given text, if the text is not empty. -/
def ofString? (s : String) : Option (Id kind) :=
  if h : s = "" then none else some ⟨s, h⟩

/-- Two identifiers of a kind with the same text are the same. -/
theorem ext_text {a b : Id kind} (h : a.text = b.text) : a = b := by
  cases a; cases b; simp_all

/-- An identifier is found again from its own text. -/
@[simp] theorem ofString?_text (a : Id kind) : ofString? a.text = some a := by
  simp [ofString?, a.text_ne_empty]

instance : LE (Id kind) := ⟨fun a b => a.text ≤ b.text⟩

instance : LT (Id kind) := ⟨fun a b => a.text < b.text⟩

instance (a b : Id kind) : Decidable (a ≤ b) := inferInstanceAs (Decidable (a.text ≤ b.text))

instance (a b : Id kind) : Decidable (a < b) := inferInstanceAs (Decidable (a.text < b.text))

/-- The order of identifiers, as one of three outcomes. -/
instance : Ord (Id kind) := ⟨fun a b => compareOfLessAndEq a.text b.text⟩

instance : ToString (Id kind) := ⟨Id.text⟩

/-- The identifier shown with its type. -/
def labelled (a : Id kind) : String := kind.label ++ "(" ++ a.text ++ ")"

end Id

end Interchange
