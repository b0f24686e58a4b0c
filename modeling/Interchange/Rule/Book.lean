import Interchange.Log
import Interchange.Rule.Issue
import Interchange.Rule.Location

/-!
# The rule book of a timetable

`Timetable.ruleBook` applies the recorded rules to a timetable. A record stands for one `Placement`
pair per pair of locations of its two points: in the forward index of the destination's pattern,
with the origin as source, and in the reverse index of the origin's pattern, with the destination as
source. The placements are registered in record order, so the first record that claims a key keeps
it; what is left out is reported once.
-/

namespace Interchange

/-- An entry, with the pattern, position and direction it is meant for. -/
structure Placement where
  direction : Direction
  pattern : Nat
  position : Position
  entry : Entry
  deriving DecidableEq

/-- The placement of a record in one direction: with the location that is searched, for riders who
come from the other one. -/
def Transfer.placement (t : Transfer) (d : Direction) (source target : Location) : Placement where
  direction := d
  pattern := target.pattern
  position := target.position
  entry :=
    { key := ⟨source.stop, source.matcher, target.matcher⟩
      constraint := t.constraint
      transfer := t.id }

/-- The two placements of a record for a location of its origin and one of its destination. -/
def Transfer.placementsAt (t : Transfer) (origin destination : Location) : List Placement :=
  [t.placement .forward origin destination, t.placement .reverse destination origin]

/-- All placements of a record, or the issue that it has none. The origin is looked at first. -/
def Timetable.placements (tt : Timetable) (t : Transfer) : Except Issue (List Placement) :=
  match tt.locations t.origin, tt.locations t.destination with
  | [], _ => .error (.unresolvable t.id .origin t.origin)
  | _, [] => .error (.unresolvable t.id .destination t.destination)
  | origins, destinations =>
    .ok (origins.flatMap fun o => destinations.flatMap fun d => t.placementsAt o d)

/-- The rules as they are kept for the search, pattern by pattern, with the issues in the order they
were found. `records` counts the records, `indexed` those that cover a location on both sides, and
`entries` the entries that were added. -/
structure RuleBook where
  rules : List PatternRules
  issues : List Issue
  records : Nat
  indexed : Nat
  entries : Nat

namespace RuleBook

/-- The rule book of a timetable before any record. -/
def empty (tt : Timetable) : RuleBook where
  rules := tt.patterns.map fun p => .empty p.stops.length
  issues := []
  records := 0
  indexed := 0
  entries := 0

/-- Reports an issue, unless it is reported already. -/
def report (b : RuleBook) (issue : Issue) : RuleBook :=
  if issue ∈ b.issues then b else { b with issues := b.issues ++ [issue] }

/-- Registers one placement. -/
def place (tt : Timetable) (b : RuleBook) (p : Placement) : RuleBook :=
  match tt.patterns[p.pattern]?, b.rules[p.pattern]? with
  | some pattern, some rules =>
    -- only the slot that is addressed can change
    let (rules', outcome) := rules.add p.direction p.position p.entry
    let b' := { b with rules := b.rules.set p.pattern rules' }
    match outcome with
    | .added => { b' with entries := b.entries + 1 }
    | .conflict kept =>
      b'.report (.conflict p.entry.transfer kept pattern.id p.position p.direction)
    | .duplicate => b'
    | .outOfRange => b'
  | _, _ => b

/-- Adds one record. -/
def record (tt : Timetable) (b : RuleBook) (t : Transfer) : RuleBook :=
  let b := { b with records := b.records + 1 }
  match tt.placements t with
  | .error issue => b.report issue
  | .ok placements => placements.foldl (place tt) { b with indexed := b.indexed + 1 }

/-- The rules of the pattern at a place in the timetable, in one direction. -/
def index (b : RuleBook) (pattern : Nat) (d : Direction) : RuleIndex :=
  match b.rules[pattern]? with
  | some rules => rules.index d
  | none => .empty 0

/-- The entries at a position of the pattern at a place in the timetable, in one direction. -/
def slot (b : RuleBook) (pattern : Nat) (d : Direction) (p : Position) : Slot :=
  (b.index pattern d).slot p

/-- What is logged while a rule book is made: the issues, and at the end the counts. -/
def events (b : RuleBook) : List Event :=
  b.issues.map (fun issue =>
    { level := .warn, source := .rules, message := issue.text
      fields := [("transfer", issue.transfer.text)] }) ++
  [{ level := .info, source := .rules, message := "Indexed constrained transfers"
     fields :=
       [("transfers", Decimal.text b.records), ("indexed", Decimal.text b.indexed),
        ("entries", Decimal.text b.entries), ("issues", Decimal.text b.issues.length)] }]

end RuleBook

/-- Applies recorded rules to a timetable. -/
def Timetable.ruleBook (tt : Timetable) (transfers : List Transfer) : RuleBook :=
  transfers.foldl (RuleBook.record tt) (RuleBook.empty tt)

end Interchange
