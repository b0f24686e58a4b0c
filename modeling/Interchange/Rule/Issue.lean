import Interchange.Direction
import Interchange.Rule.Basic

/-!
# Issues

A rule that cannot be used, wholly or in part, is left out and reported as an `Issue`; it never
keeps the other rules from being used.
-/

namespace Interchange

/-- One of the two points of a rule. -/
inductive Side
  | origin
  | destination
  deriving DecidableEq, Repr

/-- The name of a side. -/
def Side.text : Side → String
  | .origin => "from"
  | .destination => "to"

/-- Why a rule is not used: one of its points covers no location, or another rule already has its
key at a position. -/
inductive Issue
  | unresolvable (transfer : TransferId) (side : Side) (point : Point)
  | conflict (transfer kept : TransferId) (pattern : PatternId) (position : Position)
      (direction : Direction)
  deriving DecidableEq

namespace Issue

/-- The rule that an issue is about. -/
def transfer : Issue → TransferId
  | .unresolvable t _ _ => t
  | .conflict t _ _ _ _ => t

/-- The wording of an issue. -/
def text : Issue → String
  | .unresolvable t side point =>
    "transfer " ++ t.text ++ " dropped: " ++ side.text ++ " point " ++ point.text ++
      " matches no pattern location"
  | .conflict t kept pattern position direction =>
    "transfer " ++ t.text ++ " conflicts with " ++ kept.text ++ " at " ++ pattern.text ++
      " position " ++ position.text ++ " (" ++ direction.text ++ "); keeping " ++ kept.text

end Issue

end Interchange
