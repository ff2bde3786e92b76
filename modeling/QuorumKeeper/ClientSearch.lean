import QuorumKeeper.Program

/-!
# Finding a member to talk to

The nodes are known by name only. `firstAvailable` connects to the first node that answers, and
`leaderClient` to the node that hosts the raft leader, which it learns by asking the nodes in turn.
Candidates are tried one at a time in the order given, and a cancelled call ends the search.
-/

set_option autoImplicit false

namespace QuorumKeeper.ClientSearch

open Program

/-- The part of the program that reports the events of a search. -/
def target : String := "warden_etcd::generator"

/-- Context of the error when no candidate answers. -/
def noNodeReachable : String := "could not establish a connection to any etcd node"

/-- Context of the error when no candidate leads to the leader. -/
def leaderUnreachable : String := "could not establish a connection to the etcd leader"

/-- The error of a search without candidates. -/
def noCandidates (search : String) : ClientError :=
  .invalidArgument (search ++ " can't be called with an empty list of nodes")

/-- Event: a candidate could not be dialed. -/
def unavailable (node : String) (e : ClientError) : Event where
  level := .debug
  target
  message := "etcd node unavailable"
  fields := [("node", .text node), ("endpoint", .text (etcdEndpoint node)),
    ("error", .text e.message)]

/-- Tries the nodes in order, after the given failures. -/
def tryEach : (nodes : List String) → (failures : List ClientError) →
    Program (Except ClientError Client)
  | [], failures => return .error (.unreachable noNodeReachable failures)
  | node :: rest, failures => do
    match ← create (etcdEndpoint node) with
    | .ok client => return .ok client
    | .error e =>
      if e.isCancelled then
        return .error e
      report (unavailable node e)
      tryEach rest (failures ++ [e])

/-- Connects to the first node that answers. -/
def firstAvailable (nodes : List String) : Program (Except ClientError Client) :=
  if nodes.isEmpty then return .error (noCandidates "for_first_available_node")
  else tryEach nodes []

/-- What asking one node for the leader led to: a connection to the node that hosts the leader; an
error after which the next node may be of use; or one that asking other nodes cannot help. -/
inductive Probe where
  | found (client : Client)
  | skip (e : ClientError)
  | fatal (e : ClientError)

namespace Probe

/-- A failure to ask the node: a cancellation ends the search and anything else is skipped. -/
def ofFailure (e : ClientError) : Probe :=
  if e.isCancelled then fatal e else skip e

end Probe

/-- Event: a node reports a leader that its member list lacks. -/
def leaderMissing (node : String) (leader : UInt64) : Event where
  level := .warn
  target
  message := "etcd leader is not in the member list"
  fields := [("node", .text node), ("leader_id", .number leader.toNat)]

/-- Event: the leader's node is known. -/
def leaderResolved (via : String) (leader : Member) (node : String) : Event where
  level := .debug
  target
  message := "resolved etcd leader"
  fields := [("via", .text via), ("leader", .text leader.name), ("node", .text node)]

/-- Connects to the node that hosts the leader, given the members that `via` listed and the leader
it reported. -/
def followLeader (via : String) (nodes : List String) (members : List Member) (leaderId : UInt64) :
    Program Probe := do
  match Member.withId? members leaderId with
  | none =>
    report (leaderMissing via leaderId)
    return .skip (.leaderNotMember leaderId)
  | some leader =>
    match leader.nodeAmong nodes with
    | none => return .fatal (.leaderWithoutNode leader.id leader.name)
    | some node =>
      report (leaderResolved via leader node)
      match ← firstAvailable [node] with
      | .ok client => return .found client
      | .error e => return .fatal e

/-- Asks one node who the leader is and connects to the node that hosts it. The connection used for
asking is closed before the next one is opened. -/
def probe (via : String) (nodes : List String) : Program Probe := do
  match ← firstAvailable [via] with
  | .error e => return .ofFailure e
  | .ok client =>
    let listed ← list client
    drop client
    match listed with
    | .error e => return .ofFailure e
    | .ok members => followLeader via nodes members client.leader

/-- The error of a search that ran out of candidates. -/
def exhausted (failures : List ClientError) : ClientError :=
  if failures.any ClientError.isInconsistency then .inconsistent failures
  else .unreachable leaderUnreachable failures

/-- Probes the candidates in order, after the given failures. -/
def probeEach (nodes : List String) : (candidates : List String) → (failures : List ClientError) →
    Program (Except ClientError Client)
  | [], failures => return .error (exhausted failures)
  | via :: rest, failures => do
    match ← probe via nodes with
    | .found client => return .ok client
    | .skip e => probeEach nodes rest (failures ++ [e])
    | .fatal e => return .error e

/-- Connects to the node that hosts the leader. -/
def leaderClient (nodes : List String) : Program (Except ClientError Client) :=
  if nodes.isEmpty then return .error (noCandidates "for_leader")
  else probeEach nodes nodes []

end QuorumKeeper.ClientSearch
