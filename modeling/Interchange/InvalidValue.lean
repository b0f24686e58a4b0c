import Interchange.Id
import Interchange.Time.Clock

/-!
# Rejected values

The texts that come from outside are turned into identifiers and times before anything else is done
with them. What can be wrong with one such text is an `InvalidValue`.
-/

namespace Interchange

/-- Why a text was rejected. -/
inductive InvalidValue
  | emptyId (kind : IdKind)
  | time (fault : ClockFault)
  deriving DecidableEq

/-- The wording of a rejection. -/
def InvalidValue.message : InvalidValue → String
  | .emptyId kind => "invalid " ++ kind.word ++ " id: cannot be empty"
  | .time fault => "invalid time: " ++ fault.reason

/-- The identifier with a given text, or the reason why there is none. -/
def Id.parse {kind : IdKind} (s : String) : Except InvalidValue (Id kind) :=
  match Id.ofString? s with
  | some a => .ok a
  | none => .error (.emptyId kind)

/-- The time with a given clock text, or the reason why there is none. -/
def Time.read (s : String) : Except InvalidValue Time :=
  match Time.parse s with
  | .ok t => .ok t
  | .error fault => .error (.time fault)

end Interchange
