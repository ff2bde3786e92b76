import QuorumKeeper.ClientSearch
import QuorumKeeper.Machine
import QuorumKeeper.Quorum

/-!
# Membership operations

A workload cluster may or may not have access to its etcd; without access every operation that needs
it succeeds and does nothing. Each operation lists the members afresh over the connection it acts
on, closes that connection before it ends, and keeps nothing between calls.

* `reconcile` takes out members that belong to no known node,
* `removeMember` and `removeForMachine` take out the member of one node,
* `forwardLeadership` hands leadership from one node to another,
* `memberNames` lists the members as etcd reports them.
-/

set_option autoImplicit false

namespace QuorumKeeper

open Program

/-- What a cluster's operations need to know: whether etcd can be reached, and how many nodes must
remain after a removal. -/
structure Workload where
  hasAccess : Bool
  guard : QuorumGuard := {}
  deriving DecidableEq, Repr

/-- The outcome of a reconciliation: the names of the members whose removal was attempted, without
repetition, and the errors on the way. -/
structure Report where
  removed : List String := []
  errors : List OperationError := []
  deriving Inhabited

namespace Report

/-- Nothing went wrong. -/
def isClean (r : Report) : Bool :=
  r.errors.isEmpty

/-- The errors as one error, if there are any. -/
def error? (r : Report) : Option OperationError :=
  if r.errors.isEmpty then none else some (.several r.errors)

/-- Notes an attempt to remove a member, once for every name. -/
def attempt (r : Report) (name : String) : Report :=
  if r.removed.contains name then r else { r with removed := r.removed ++ [name] }

theorem attempt_errors (r : Report) (name : String) : (r.attempt name).errors = r.errors := by
  unfold attempt
  split
  · rfl
  · rfl

/-- Adds an error at the end. -/
def fail (r : Report) (e : OperationError) : Report :=
  { r with errors := r.errors ++ [e] }

end Report

namespace Workload

/-- The part of the program that reports the events of an operation. -/
def target : String := "warden_workload::workload"

/-- Reads the node inventory. -/
def controlPlaneNodes : Program (Except OperationError (List String)) := do
  match ← nodes with
  | .ok names => return .ok names
  | .error failure => return .error (.inventory failure)

/-- Lists the members over a connection. -/
def listMembers (client : Client) : Program (Except OperationError (List Member)) := do
  match ← list client with
  | .ok members => return .ok members
  | .error e => return .error (.client "failed to list etcd members using etcd client" e)

/-- Uses a connection, if there is one, and closes it. -/
def withClient {α : Type} (connect : Program (Except ClientError Client))
    (use : Client → Program (Except OperationError α)) : Program (Except OperationError α) := do
  match ← connect with
  | .error e => return .error (.client "failed to create etcd client" e)
  | .ok client =>
    let result ← use client
    drop client
    return result

/-- Event: there is no member to take out. -/
def alreadyRemoved (name : String) : Event where
  level := .debug
  target
  message := "etcd member already removed"
  fields := [("name", .text name)]

/-- Event: a member was taken out. -/
def removedMember (m : Member) : Event where
  level := .info
  target
  message := "removed etcd member"
  fields := [("member", .text m.name), ("id", .text (Text.hex m.id.toNat))]

/-- Takes out the first member whose name contains the given name, if there is one. -/
def removeNamed (name : String) (client : Client) : Program (Except OperationError Unit) := do
  match ← listMembers client with
  | .error e => return .error e
  | .ok members =>
    match Member.named? members name with
    | none =>
      report (alreadyRemoved name)
      return .ok ()
    | some m =>
      match ← remove client m.id with
      | .error e =>
        return .error (.client ("failed to remove member " ++ m.name ++ " from etcd") e)
      | .ok _ =>
        report (removedMember m)
        return .ok ()

/-- Takes out the member hosted on a node. The guard decides before etcd is touched, and the
connection goes to one of the nodes that remain. -/
def removeMember (w : Workload) (name : String) : Program (Except OperationError Unit) := do
  match ← controlPlaneNodes with
  | .error e => return .error e
  | .ok known =>
    match w.guard.remaining known name with
    | .error e => return .error e
    | .ok left =>
      if w.hasAccess then withClient (ClientSearch.firstAvailable left) (removeNamed name)
      else return .ok ()

/-- Takes out the member of a machine's node; without a node there is nothing to do. -/
def removeForMachine (w : Workload) (machine : Option Machine) :
    Program (Except OperationError Unit) :=
  match nodeOf machine with
  | none => return .ok ()
  | some node => w.removeMember node

/-- The member has joined and belongs to none of the nodes. -/
def isStale (nodes : List String) (m : Member) : Bool :=
  m.isStarted && !nodes.any m.isOn

/-- Context of an error that ends a reconciliation. -/
def reconcileContext : String := "reconcile etcd members"

/-- Event: the removal of a stale member failed. -/
def removalFailed (m : Member) (e : OperationError) : Event where
  level := .warn
  target
  message := "failed to remove stale etcd member"
  fields := [("member", .text m.name), ("error", .text e.message)]

/-- Event: a node cannot be used for reconciliation. -/
def skipped (message node : String) (e : ClientError) : Event where
  level := .debug
  target
  message
  fields := [("node", .text node), ("error", .text e.message)]

/-- Event: a reconciliation has tried to take out members. -/
def reconciled (r : Report) : Event where
  level := .info
  target
  message := "reconciled etcd members"
  fields := [("removed", .text (Text.quotedList r.removed)), ("errors", .number r.errors.length)]

/-- Whether reconciliation goes on with the next entry or stops. -/
inductive Progress where
  | goOn (r : Report)
  | stop (r : Report)

/-- Takes out the stale members among those listed, one at a time. A cancelled removal stops it. -/
def pruneListed (w : Workload) (nodes : List String) : List Member → Report → Program Progress
  | [], r => return .goOn r
  | m :: rest, r => do
    if isStale nodes m then
      let r := r.attempt m.name
      match ← w.removeMember m.name with
      | .ok _ => pruneListed w nodes rest r
      | .error e =>
        report (removalFailed m e)
        if e.isCancelled then return .stop (r.fail e)
        pruneListed w nodes rest (r.fail e)
    else pruneListed w nodes rest r

/-- Takes out the stale members as one node lists them. A node that cannot be dialed or cannot list
the members is skipped. The connection is closed before the first removal. -/
def pruneVia (w : Workload) (nodes : List String) (via : String) (r : Report) :
    Program Progress := do
  match ← ClientSearch.firstAvailable [via] with
  | .error e =>
    if e.isCancelled then return .stop (r.fail (.client reconcileContext e))
    report (skipped "skipping unreachable etcd node" via e)
    return .goOn r
  | .ok client =>
    let listed ← list client
    match listed with
    | .error e =>
      if e.isCancelled then
        drop client
        return .stop (r.fail (.client reconcileContext e))
      report (skipped "skipping etcd node that cannot list members" via e)
      drop client
      return .goOn r
    | .ok members =>
      drop client
      pruneListed w nodes members r

/-- Goes through the nodes in order. -/
def pruneEach (w : Workload) (nodes : List String) : List String → Report → Program Report
  | [], r => return r
  | via :: rest, r => do
    match ← pruneVia w nodes via r with
    | .stop r => return r
    | .goOn r => pruneEach w nodes rest r

/-- Takes out the members that belong to none of the given nodes. -/
def reconcile (w : Workload) (nodes : List String) : Program Report := do
  if w.hasAccess then
    let r ← pruneEach w nodes nodes {}
    if !r.removed.isEmpty then report (reconciled r)
    return r
  else return {}

/-- Event: leadership is elsewhere. -/
def notLeader (node : String) : Event where
  level := .debug
  target
  message := "not the etcd leader, nothing to forward"
  fields := [("node", .text node)]

/-- Event: leadership was handed over. -/
def movedLeadership (current next : Member) : Event where
  level := .info
  target
  message := "moved etcd leadership"
  fields := [("from", .text current.name), ("to", .text next.name)]

/-- Hands leadership to the member on `incoming` if the member on `outgoing` holds it. -/
def moveLeader (outgoing incoming : String) (client : Client) :
    Program (Except OperationError Unit) := do
  match ← listMembers client with
  | .error e => return .error e
  | .ok members =>
    match (Member.named? members outgoing).filter (·.id == client.leader) with
    | none =>
      report (notLeader outgoing)
      return .ok ()
    | some current =>
      match Member.named? members incoming with
      | none => return .error (.memberNotFound incoming)
      | some next =>
        match ← move client next.id with
        | .error e => return .error (.client "failed to move leader" e)
        | .ok _ =>
          report (movedLeadership current next)
          return .ok ()

/-- Uses a connection to the leader, found over the nodes of the inventory. -/
def withLeader {α : Type} (use : Client → Program (Except OperationError α)) :
    Program (Except OperationError α) := do
  match ← controlPlaneNodes with
  | .error e => return .error e
  | .ok known => withClient (ClientSearch.leaderClient known) use

/-- Hands leadership off a machine's node to the candidate's node, if that machine's node holds
it. -/
def forwardLeadership (w : Workload) (machine candidate : Option Machine) :
    Program (Except OperationError Unit) :=
  match nodeOf machine with
  | none => return .ok ()
  | some outgoing =>
    match candidate with
    | none => return .error .missingCandidate
    | some c =>
      match c.node with
      | none => return .error (.candidateWithoutNode c.name)
      | some incoming =>
        if w.hasAccess then withLeader (moveLeader outgoing incoming)
        else return .ok ()

/-- The names of the members over a connection. -/
def listNames (client : Client) : Program (Except OperationError (List String)) := do
  match ← listMembers client with
  | .error e => return .error e
  | .ok members => return .ok (members.map Member.name)

/-- The names of the members as etcd reports them, whatever the inventory says. -/
def memberNames (w : Workload) : Program (Except OperationError (List String)) :=
  if w.hasAccess then withLeader listNames
  else return .ok []

end Workload

end QuorumKeeper
