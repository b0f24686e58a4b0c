import Interchange.Direction
import Interchange.Order
import Interchange.Rule.Basic

/-!
# The rules at a stop position

For the search, rules are kept with the stop positions they may apply to.

* `Matcher` — which trips a point speaks about, once its place has become a stop.
* `Entry` — a rule at one stop position of one pattern. Its `Key` says whom it applies to: the stop
  and the trips on the side that the rider comes from, and the trips on the side that is searched.
* `Slot` — the entries at one position, narrowest first. The entry that registered a key first keeps
  it, and among entries of equal weight the earlier one stands in front.
* `RuleIndex` — one slot for every stop position of a pattern, in one direction.
-/

namespace Interchange

/-! ## Matchers -/

/-- Which trips a point speaks about. -/
inductive Matcher
  | any
  | route (id : RouteId)
  | trip (id : TripId)
  deriving DecidableEq

/-- The trips that a point speaks about. -/
def Point.matcher : Point → Matcher
  | .anywhere _ => .any
  | .route id _ => .route id
  | .trip id _ => .trip id

namespace Matcher

/-- How narrow a matcher is. -/
def specificity : Matcher → Specificity
  | .any => .location
  | .route _ => .route
  | .trip _ => .trip

/-- Whether a matcher speaks about a trip. -/
def accepts (m : Matcher) (t : Trip) : Bool :=
  match m with
  | .any => true
  | .route id => decide (t.route = id)
  | .trip id => decide (t.id = id)

end Matcher

/-- A point is as narrow as the trips it speaks about. -/
@[simp] theorem Point.specificity_matcher (p : Point) : p.matcher.specificity = p.specificity := by
  cases p <;> rfl

/-! ## Entries -/

/-- Whom an entry applies to: riders who come from a trip that `source` accepts at the stop
`stop`, and trips that `target` accepts. -/
@[ext]
structure Key where
  stop : StopOrdinal
  source : Matcher
  target : Matcher
  deriving DecidableEq

namespace Key

/-- The weight of a key: the source side counts first and the target side decides between equals. A
target side weighs less than four. -/
def weight (k : Key) : Nat := 4 * k.source.specificity.rank + k.target.specificity.rank

end Key

/-- A rule at one stop position of one pattern. -/
structure Entry where
  key : Key
  constraint : Constraint
  transfer : TransferId
  deriving DecidableEq

namespace Entry

/-- The weight of an entry is that of its key. -/
def weight (e : Entry) : Nat := e.key.weight

/-- Whether an entry applies to a rider who comes from a trip at a stop. -/
def acceptsSource (e : Entry) (stop : StopOrdinal) (t : Trip) : Bool :=
  decide (e.key.stop = stop) && e.key.source.accepts t

/-- Whether an entry applies to a trip on the searched side. -/
def acceptsTarget (e : Entry) (t : Trip) : Bool := e.key.target.accepts t

end Entry

/-! ## Slots -/

/-- What came of registering an entry. -/
inductive Registration
  | added
  | duplicate
  | conflict (kept : TransferId)
  | outOfRange
  deriving DecidableEq

/-- The entries at one stop position. -/
abbrev Slot := List Entry

namespace Slot

/-- Puts an entry behind those of its own weight and in front of the lighter ones. -/
def insert (s : Slot) (e : Entry) : Slot := insertBefore (fun x => decide (x.weight < e.weight)) e s

/-- Registers an entry, unless its key is taken. -/
def register (s : Slot) (e : Entry) : Slot × Registration :=
  match s.find? fun x => x.key = e.key with
  | none => (s.insert e, .added)
  | some kept =>
    (s, if kept.transfer = e.transfer then .duplicate else .conflict kept.transfer)

end Slot

/-! ## Indexes -/

/-- The rules of one pattern in one direction, slot by slot. -/
structure RuleIndex where
  slots : List Slot
  deriving DecidableEq

namespace RuleIndex

/-- The index of a pattern with a number of stops, before any rule is registered. -/
def empty (stopCount : Nat) : RuleIndex := ⟨List.replicate stopCount []⟩

/-- The entries at a position; there are none outside the pattern. -/
def slot (i : RuleIndex) (p : Position) : Slot := i.slots[p]?.getD []

/-- Whether any rule may apply at a position. -/
def hasRules (i : RuleIndex) (p : Position) : Bool := !(i.slot p).isEmpty

/-- A rule may apply at a position when an entry stands there. -/
theorem hasRules_iff {i : RuleIndex} {p : Position} : i.hasRules p = true ↔ ∃ e, e ∈ i.slot p := by
  unfold hasRules
  rw [Bool.not_eq_true', List.isEmpty_eq_false_iff_exists_mem]

/-- The number of stop positions. -/
def stopCount (i : RuleIndex) : Nat := i.slots.length

/-- The number of entries at all positions together. -/
def size (i : RuleIndex) : Nat := i.slots.flatten.length

/-- Whether no rule is registered at all. -/
def isEmpty (i : RuleIndex) : Bool := i.slots.all List.isEmpty

/-- Registers an entry at a position. -/
def add (i : RuleIndex) (p : Position) (e : Entry) : RuleIndex × Registration :=
  match i.slots[p]? with
  | none => (i, .outOfRange)
  | some s =>
    let (s', outcome) := Slot.register s e
    (⟨i.slots.set p s'⟩, outcome)

/-- Outside the pattern there are no entries. -/
theorem slot_of_le {i : RuleIndex} {p : Position} (h : i.stopCount ≤ p) : i.slot p = [] := by
  unfold stopCount at h
  rw [slot, List.getElem?_eq_none h, Option.getD_none]

/-- Where an index has a position, registering there is registering in its slot. -/
theorem add_of_lt {i : RuleIndex} {p : Position} (h : p < i.stopCount) (e : Entry) :
    i.add p e =
      (⟨i.slots.set p ((i.slot p).register e).1⟩, ((i.slot p).register e).2) := by
  unfold stopCount at h
  unfold add slot
  rw [List.getElem?_eq_getElem h]
  rfl

/-- Registering an entry does not change how many positions there are. -/
@[simp] theorem stopCount_add (i : RuleIndex) (p : Position) (e : Entry) :
    (i.add p e).1.stopCount = i.stopCount := by
  unfold stopCount add
  split <;> simp

/-- Registering an entry leaves the slots of all other positions as they are. -/
theorem slot_add_of_ne (i : RuleIndex) {p q : Position} (h : p ≠ q) (e : Entry) :
    (i.add p e).1.slot q = i.slot q := by
  unfold slot add
  split
  · rfl
  · simp [List.getElem?_set_ne h]

/-- Registering an entry at a position registers it in the slot there. -/
theorem slot_add_self {i : RuleIndex} {p : Position} (h : p < i.stopCount) (e : Entry) :
    (i.add p e).1.slot p = ((i.slot p).register e).1 := by
  rw [add_of_lt h]
  unfold stopCount at h
  simp [slot, List.getElem?_set_self h]

/-- A fresh index has nothing at any position. -/
@[simp] theorem slot_empty (n : Nat) (p : Position) : (empty n).slot p = [] := by
  unfold slot empty
  rw [List.getElem?_replicate]
  split <;> rfl

/-- A fresh index has the number of positions asked for. -/
@[simp] theorem stopCount_empty (n : Nat) : (empty n).stopCount = n := List.length_replicate

end RuleIndex

/-- The rules of one pattern for both directions: those for boarding it, and those for leaving it. -/
structure PatternRules where
  forward : RuleIndex
  reverse : RuleIndex
  deriving DecidableEq

namespace PatternRules

/-- The rules of a pattern with a number of stops, before any rule is registered. -/
def empty (stopCount : Nat) : PatternRules := ⟨.empty stopCount, .empty stopCount⟩

/-- The rules for one direction. -/
def index (r : PatternRules) : Direction → RuleIndex
  | .forward => r.forward
  | .reverse => r.reverse

/-- Registers an entry at a position for one direction. -/
def add (r : PatternRules) (d : Direction) (p : Position) (e : Entry) :
    PatternRules × Registration :=
  match d with
  | .forward =>
    let (i, outcome) := r.forward.add p e
    ({ r with forward := i }, outcome)
  | .reverse =>
    let (i, outcome) := r.reverse.add p e
    ({ r with reverse := i }, outcome)

/-- Registering an entry for a direction registers it in the index of that direction, and leaves the
other as it is. -/
theorem index_add (r : PatternRules) (d d' : Direction) (p : Position) (e : Entry) :
    (r.add d p e).1.index d' = if d = d' then ((r.index d').add p e).1 else r.index d' := by
  cases d <;> cases d' <;> rfl

/-- What comes of registering an entry for a direction is what comes of it in that index. -/
theorem outcome_add (r : PatternRules) (d : Direction) (p : Position) (e : Entry) :
    (r.add d p e).2 = ((r.index d).add p e).2 := by
  cases d <;> rfl

/-- Fresh rules are fresh in both directions. -/
@[simp] theorem index_empty (n : Nat) (d : Direction) : (empty n).index d = .empty n := by
  cases d <;> rfl

end PatternRules

end Interchange
