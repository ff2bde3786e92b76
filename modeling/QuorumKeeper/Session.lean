import QuorumKeeper.Store.Basic
import QuorumKeeper.Workload

/-!
# Sessions

A session is a sequence of steps on one cluster: operations of its workload, searches for a
connection that is then kept under a handle, calls over kept connections, and changes made to the
inventory or the store from outside. A connection found for a handle replaces an earlier one, which
is closed only after the new one is open.
-/

set_option autoImplicit false

namespace QuorumKeeper

/-- How a step looks for a connection. -/
inductive SearchMode where
  | first
  | leader
  deriving DecidableEq, Repr

/-- One step of a session over a store with states `σ`. -/
inductive SessionStep (σ : Type) where
  | hasAccess
  | members
  | reconcile (nodes : List String)
  | remove (name : String)
  | removeMachine (machine : Option Machine)
  | forward (machine candidate : Option Machine)
  | setNodes (nodes : List String)
  | dropNode (name : String)
  | failInventory (failure : Option InventoryFailure)
  | openClient (handle : String) (mode : SearchMode) (nodes : List String)
  | clientMembers (handle : String)
  | clientRemove (handle : String) (id : UInt64)
  | clientMove (handle : String) (id : UInt64)
  | close (handle : String)
  | alter (change : σ → σ)

/-- What a step answers. -/
inductive SessionAnswer where
  | unit
  | flag (b : Bool)
  | names (ns : List String)
  | members (ms : List Member)
  | report (r : Report)
  | opened (client : Client)
  | operationError (e : OperationError)
  | clientError (e : ClientError)
  | noSuchClient

namespace SessionAnswer

/-- The answer of an operation. -/
def ofOperation {α : Type} (ok : α → SessionAnswer) : Except OperationError α → SessionAnswer
  | .ok a => ok a
  | .error e => operationError e

/-- The answer of a call over a connection. -/
def ofCall {α : Type} (ok : α → SessionAnswer) : Except ClientError α → SessionAnswer
  | .ok a => ok a
  | .error e => clientError e

end SessionAnswer

/-- Where a session stands: the inventory, the store and the kept connections. -/
structure Session (σ : Type) where
  workload : Workload
  situation : Situation (Inventory × σ)
  handles : List (String × Client) := []

namespace Session

variable {σ : Type}

/-- The inventory. -/
def inventory (s : Session σ) : Inventory :=
  s.situation.state.1

/-- The store's state. -/
def stored (s : Session σ) : σ :=
  s.situation.state.2

/-- Replaces the inventory. -/
def withInventory (s : Session σ) (inv : Inventory) : Session σ :=
  { s with situation := { s.situation with state := (inv, s.stored) } }

/-- The connection kept under a handle. -/
def client? (s : Session σ) (handle : String) : Option Client :=
  s.handles.lookup handle

/-- The session without a handle. -/
def forget (s : Session σ) (handle : String) : Session σ :=
  { s with handles := s.handles.filter (·.1 != handle) }

/-- The session with a connection under a handle. -/
def keep (s : Session σ) (handle : String) (client : Client) : Session σ :=
  let s := s.forget handle
  { s with handles := (handle, client) :: s.handles }

/-- Looks for a connection. -/
def search : SearchMode → List String → Program (Except ClientError Client)
  | .first, nodes => ClientSearch.firstAvailable nodes
  | .leader, nodes => ClientSearch.leaderClient nodes

/-- Looks for a connection that takes the place of another one, which is closed on success. -/
def replace (old : Option Client) (mode : SearchMode) (nodes : List String) :
    Program (Except ClientError Client) := do
  match ← search mode nodes with
  | .error e => return .error e
  | .ok client =>
    match old with
    | some c =>
      Program.drop c
      return .ok client
    | none => return .ok client

/-- Runs a program and turns its value into an answer. -/
def perform {α : Type} (store : Store σ) (s : Session σ) (p : Program α) :
    Outcome (Inventory × σ) α × Session σ :=
  let r := p.run store.world s.situation
  (r, { s with situation := r.after })

/-- A call over a kept connection. -/
def callOver {α : Type} (store : Store σ) (s : Session σ) (handle : String)
    (p : Client → Program α) (ok : α → SessionAnswer) :
    SessionAnswer × Session σ × List Exchange :=
  match s.client? handle with
  | none => (.noSuchClient, s, [])
  | some client =>
    let (r, s) := s.perform store (p client)
    (ok r.value, s, r.trace)

/-- Runs a program as one step. -/
def operate {α : Type} (store : Store σ) (s : Session σ) (p : Program α)
    (answer : α → SessionAnswer) : SessionAnswer × Session σ × List Exchange :=
  let (r, s) := s.perform store p
  (answer r.value, s, r.trace)

/-- One step: its answer, the session after it, and the requests it made. -/
def step (store : Store σ) (s : Session σ) :
    SessionStep σ → SessionAnswer × Session σ × List Exchange
  | .hasAccess => (.flag s.workload.hasAccess, s, [])
  | .members => s.operate store s.workload.memberNames (.ofOperation .names)
  | .reconcile nodes => s.operate store (s.workload.reconcile nodes) .report
  | .remove name =>
    s.operate store (s.workload.removeMember name) (.ofOperation fun _ => .unit)
  | .removeMachine machine =>
    s.operate store (s.workload.removeForMachine machine) (.ofOperation fun _ => .unit)
  | .forward machine candidate =>
    s.operate store (s.workload.forwardLeadership machine candidate)
      (.ofOperation fun _ => .unit)
  | .setNodes nodes =>
    let inv := s.inventory.set nodes
    (.names inv.nodes, s.withInventory inv, [])
  | .dropNode name =>
    let inv := s.inventory.remove name
    (.names inv.nodes, s.withInventory inv, [])
  | .failInventory failure => (.unit, s.withInventory (s.inventory.setFailure failure), [])
  | .openClient handle mode nodes =>
    let (r, s) := s.perform store (replace (s.client? handle) mode nodes)
    match r.value with
    | .ok client => (.opened client, s.keep handle client, r.trace)
    | .error e => (.clientError e, s, r.trace)
  | .clientMembers handle => s.callOver store handle Program.list (.ofCall .members)
  | .clientRemove handle id =>
    s.callOver store handle (Program.remove · id) (.ofCall fun _ => .unit)
  | .clientMove handle id =>
    s.callOver store handle (Program.move · id) (.ofCall fun _ => .unit)
  | .close handle =>
    let (a, s, trace) := s.callOver store handle Program.drop fun _ => .unit
    (a, s.forget handle, trace)
  | .alter change =>
    (.unit,
      { s with situation := { s.situation with state := (s.inventory, change s.stored) } }, [])

end Session

end QuorumKeeper
