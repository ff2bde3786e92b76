import QuorumKeeper.Text.Quoted

/-!
# Log events

What an operation reports about its progress. An event has a level, the part of the program it comes
from, a message and further named fields.
-/

set_option autoImplicit false

namespace QuorumKeeper

/-- How important an event is. -/
inductive Level where
  | debug
  | info
  | warn
  deriving DecidableEq, Repr

/-- The value of a field of an event. -/
inductive FieldValue where
  | text (s : String)
  | number (n : Nat)
  deriving DecidableEq, Repr

/-- Something worth reporting. -/
structure Event where
  level : Level
  target : String
  message : String
  fields : List (String × FieldValue) := []
  deriving DecidableEq, Repr

namespace Level

/-- The name of the level in a log line. -/
def name : Level → String
  | debug => "DEBUG"
  | info => "INFO"
  | warn => "WARN"

end Level

end QuorumKeeper
