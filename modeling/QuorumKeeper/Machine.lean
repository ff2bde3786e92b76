/-!
# Machines

A machine of the orchestrator and, once it is provisioned, the node it became.
-/

set_option autoImplicit false

namespace QuorumKeeper

/-- A machine, with the name of its node if it has one. -/
structure Machine where
  name : String
  node : Option String := none
  deriving DecidableEq, Repr

/-- The node behind an optional machine. -/
def nodeOf (machine : Option Machine) : Option String :=
  machine.bind Machine.node

end QuorumKeeper
