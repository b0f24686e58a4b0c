import Interchange.Timetable.Trip

/-!
# Search directions

A forward search looks for a trip to board after arriving, a reverse search for a trip to have left
before departing. They run opposite ways, and all that differs between them is here: which event of
a call counts, which of two times comes first, where a number of seconds leads to, and in which
order trips are looked at.
-/

namespace Interchange

/-- The direction of a search. -/
inductive Direction
  | forward
  | reverse
  deriving DecidableEq, Repr

namespace Direction

/-- The name of a direction. -/
def text : Direction → String
  | .forward => "forward"
  | .reverse => "reverse"

/-- The event of a trip at a position: its departure when it is boarded, its arrival when it is
left. -/
def eventTime? (d : Direction) (t : Trip) (p : Position) : Option Time :=
  match d with
  | .forward => t.departure? p
  | .reverse => t.arrival? p

/-- Whether a time comes before another in search order. -/
def isBefore (d : Direction) (a b : Time) : Bool :=
  match d with
  | .forward => decide (a < b)
  | .reverse => decide (b < a)

/-- The time that lies a number of seconds further in search order. -/
def ahead (d : Direction) (t : Time) (n : Int) : Time :=
  match d with
  | .forward => t.later n
  | .reverse => t.earlier n

/-- The time that lies a slack further in search order. -/
def aheadBy (d : Direction) (t : Time) (slack : Slack) : Time :=
  match d with
  | .forward => t.after slack
  | .reverse => t.before slack

/-- The later of two times in search order. -/
def laterOf (d : Direction) (a b : Time) : Time :=
  match d with
  | .forward => max a b
  | .reverse => min a b

/-- A time comes before the later of two times when it comes before one of them. -/
theorem isBefore_laterOf (d : Direction) (x a b : Time) :
    d.isBefore x (d.laterOf a b) = (d.isBefore x a || d.isBefore x b) := by
  cases d <;> simp only [isBefore, laterOf, max, min, Time.lt_def, Time.le_def]
  · split <;> grind
  · split <;> grind

/-- A list of trips, or of anything that belongs to them, in search order. -/
def order {α : Type} (d : Direction) (l : List α) : List α :=
  match d with
  | .forward => l
  | .reverse => l.reverse

/-- A list in search order has the same elements. -/
theorem mem_order_iff {α : Type} {d : Direction} {l : List α} {x : α} : x ∈ d.order l ↔ x ∈ l := by
  cases d
  · exact Iff.rfl
  · exact List.mem_reverse

end Direction

end Interchange
