import QuorumKeeper.Proofs.Runs
import QuorumKeeper.Workload

/-!
# Sequences of operations

An `Operation` is one of the five membership operations with its arguments. `Workload.perform`
carries it out and throws its answer away; `Workload.performAll` carries out a list of them, each
one whatever became of those before it.
-/

set_option autoImplicit false

namespace QuorumKeeper

/-- A membership operation with its arguments. -/
inductive Operation where
  | reconcile (nodes : List String)
  | remove (name : String)
  | removeForMachine (machine : Option Machine)
  | forward (machine candidate : Option Machine)
  | memberNames
  deriving DecidableEq, Repr

namespace Workload

/-- Carries out one operation. -/
def perform (w : Workload) : Operation → Program Unit
  | .reconcile nodes => do let _ ← w.reconcile nodes
  | .remove name => do let _ ← w.removeMember name
  | .removeForMachine machine => do let _ ← w.removeForMachine machine
  | .forward machine candidate => do let _ ← w.forwardLeadership machine candidate
  | .memberNames => do let _ ← w.memberNames

/-- Carries out operations one after the other. -/
def performAll (w : Workload) : List Operation → Program Unit
  | [] => return ()
  | op :: rest => do
    w.perform op
    w.performAll rest

end Workload

end QuorumKeeper
