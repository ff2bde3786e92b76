import QuorumKeeper.Duration
import QuorumKeeper.Error.Aggregate
import QuorumKeeper.Text.Quoted

/-!
# Errors of dialing and talking to etcd

`ClientError` is a tree: a search over several candidates collects what went wrong with each of
them. `ClientError.isCancelled` looks for a cancellation anywhere in the tree; the other predicates
look at the root only. `ClientError.message` is the text shown to an operator.
-/

set_option autoImplicit false

namespace QuorumKeeper

/-- What can go wrong while dialing etcd or calling it. `invalidArgument` is a mistake of the
caller, such as an empty list of candidates; `refused` is a call that reached the server;
`unreachable` says that no candidate could be used, and `inconsistent` that they ran out and one of
them reported a leader that is not a member, which `leaderNotMember` says of one list.
`leaderWithoutNode` is for a leader whose name fits none of the known nodes, and `tls` and
`credentials` for material that cannot be used, read, made or stored. -/
inductive ClientError where
  | invalidArgument (detail : String)
  | connect (endpoint detail : String)
  | refused (endpoint action detail : String)
  | timedOut (endpoint action : String) (after : Duration)
  | cancelled
  | unreachable (context : String) (errors : List ClientError)
  | leaderNotMember (leader : UInt64)
  | inconsistent (errors : List ClientError)
  | leaderWithoutNode (leader : UInt64) (name : String)
  | tls (detail : String)
  | credentials (detail : String)
  deriving Inhabited

namespace ClientError

mutual

/-- A cancellation is the error itself or stands somewhere below it. -/
def isCancelled : ClientError → Bool
  | cancelled => true
  | unreachable _ errors => anyCancelled errors
  | inconsistent errors => anyCancelled errors
  | _ => false

/-- Some error of the list is or holds a cancellation. -/
def anyCancelled : List ClientError → Bool
  | [] => false
  | e :: rest => e.isCancelled || anyCancelled rest

end

theorem anyCancelled_eq_any (errors : List ClientError) :
    anyCancelled errors = errors.any isCancelled := by
  induction errors with
  | nil => rfl
  | cons e rest ih => simp [anyCancelled, ih]

theorem anyCancelled_eq_false_iff {errors : List ClientError} :
    anyCancelled errors = false ↔ ∀ e ∈ errors, e.isCancelled = false := by
  simp only [anyCancelled_eq_any, List.any_eq_false, Bool.not_eq_true]

/-- The failure is about reaching a node and not about its answer. -/
def isConnectivity : ClientError → Bool
  | connect .. => true
  | timedOut .. => true
  | unreachable .. => true
  | _ => false

/-- Etcd and the known nodes disagree in a way that trying again cannot mend. -/
def isInconsistency : ClientError → Bool
  | leaderNotMember .. => true
  | inconsistent .. => true
  | leaderWithoutNode .. => true
  | _ => false

/-- The caller made a mistake. -/
def isInvalidArgument : ClientError → Bool
  | invalidArgument .. => true
  | _ => false

mutual

/-- The text shown to an operator. -/
def message : ClientError → String
  | invalidArgument detail => "invalid argument: " ++ detail
  | connect endpoint detail =>
    "failed to connect to etcd node " ++ endpoint ++ ": " ++ detail
  | refused endpoint action detail => action ++ " on " ++ endpoint ++ " failed: " ++ detail
  | timedOut endpoint action after =>
    action ++ " on " ++ endpoint ++ " timed out after " ++ after.text
  | cancelled => "operation cancelled"
  | unreachable context errors => context ++ ": " ++ aggregateText (messages errors)
  | leaderNotMember leader =>
    "etcd leader is reported as " ++ Text.hex leader.toNat ++
      ", but we couldn't find any matching member"
  | inconsistent errors =>
    "could not resolve the etcd leader to a member: " ++ aggregateText (messages errors)
  | leaderWithoutNode leader name =>
    "etcd leader is reported as " ++ Text.hex leader.toNat ++ " with name " ++ Text.quoted name ++
      ", but we couldn't find a corresponding node in the cluster"
  | tls detail => "tls error: " ++ detail
  | credentials detail => "credentials error: " ++ detail

/-- The texts of a list of errors. -/
def messages : List ClientError → List String
  | [] => []
  | e :: rest => e.message :: messages rest

end

/-- The error with the errors it collects directly below it. -/
def children : ClientError → List ClientError
  | unreachable _ errors => errors
  | inconsistent errors => errors
  | _ => []

end ClientError

end QuorumKeeper
