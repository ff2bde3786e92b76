import QuorumKeeper.Error.Client

/-!
# Errors of membership operations

An operation on a cluster's membership can be refused before etcd is touched, can fail on the list
of nodes, or can fail on a call to etcd; reconciliation collects several such errors.
-/

set_option autoImplicit false

namespace QuorumKeeper

/-- Why the list of nodes could not be read: the outermost message and the causes below it. -/
structure InventoryFailure where
  message : String
  causes : List String := []
  deriving DecidableEq, Repr, Inhabited

namespace InventoryFailure

/-- All messages, outermost first. -/
def chain (f : InventoryFailure) : List String :=
  f.message :: f.causes

/-- The failure with the given messages, outermost first. -/
def ofChain : List String → InventoryFailure
  | [] => ⟨"", []⟩
  | m :: rest => ⟨m, rest⟩

end InventoryFailure

/-- What can go wrong with a membership operation: too few control plane nodes would remain, or they
cannot be read; a call to etcd failed, in the context of an action; there is nobody to hand
leadership to, that machine has no node, or no member is hosted on the node; or several of these. -/
inductive OperationError where
  | belowMinimum (minimum remaining : Nat)
  | inventory (failure : InventoryFailure)
  | client (context : String) (source : ClientError)
  | missingCandidate
  | candidateWithoutNode (machine : String)
  | memberNotFound (node : String)
  | several (errors : List OperationError)
  deriving Inhabited

namespace OperationError

/-- The guard refused a removal. -/
def isBelowMinimum : OperationError → Bool
  | belowMinimum .. => true
  | _ => false

/-- The error of the call to etcd, if this wraps one. -/
def clientError? : OperationError → Option ClientError
  | client _ source => some source
  | _ => none

mutual

/-- A cancellation stands somewhere in the tree of errors. -/
def isCancelled : OperationError → Bool
  | client _ source => source.isCancelled
  | several errors => anyCancelled errors
  | _ => false

/-- Some error of the list is or holds a cancellation. -/
def anyCancelled : List OperationError → Bool
  | [] => false
  | e :: rest => e.isCancelled || anyCancelled rest

end

theorem anyCancelled_eq_any (errors : List OperationError) :
    anyCancelled errors = errors.any isCancelled := by
  induction errors with
  | nil => rfl
  | cons e rest ih => simp [anyCancelled, ih]

mutual

/-- The text shown to an operator. -/
def message : OperationError → String
  | belowMinimum minimum remaining =>
    "cluster would have " ++ Text.decimal remaining ++
      " control plane nodes left, fewer than the minimum of " ++ Text.decimal minimum ++
      "; removing an etcd member is not supported"
  | inventory failure => "failed to list control plane nodes: " ++ failure.message
  | client context source => context ++ ": " ++ source.message
  | missingCandidate => "leader candidate cannot be nil"
  | candidateWithoutNode machine => "leader candidate " ++ machine ++ " has no node reference"
  | memberNotFound node => "failed to get etcd member from node " ++ Text.quoted node
  | several errors => aggregateText (messages errors)

/-- The texts of a list of errors. -/
def messages : List OperationError → List String
  | [] => []
  | e :: rest => e.message :: messages rest

end

/-- The texts of the causes below the error, nearest first. -/
def causes : OperationError → List String
  | inventory failure => failure.chain
  | client _ source => [source.message]
  | _ => []

end OperationError

end QuorumKeeper
