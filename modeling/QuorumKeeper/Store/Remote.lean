import QuorumKeeper.Net.Dialer
import QuorumKeeper.Net.Uri
import QuorumKeeper.Store.Basic

/-!
# Remote members

A store whose connections lead over a network to one serving process on each member. All processes
share one member table. A cancellation is looked for before every dial and before every call, so
that after it nothing is dialed and no server is called any more.
-/

set_option autoImplicit false

namespace QuorumKeeper

open Net

/-- A connection, shown for diagnosis. -/
def Client.describe (c : Client) : String :=
  "EtcdClient \x7b endpoint: " ++ Text.quoted c.endpoint ++ ", leader_id: " ++
    Text.decimal c.leader.toNat ++ ", .. \x7d"

/-- The calls a server answers. -/
inductive ServerCall where
  | status
  | list
  | remove (id : UInt64)
  | move (id : UInt64)
  deriving DecidableEq, Repr

namespace ServerCall

/-- The action as it is named in errors. -/
def action : ServerCall → String
  | status => "status"
  | list => "member list"
  | remove _ => "member remove"
  | move _ => "move leader"

/-- The kind of a call, without what it is about. -/
inductive Kind where
  | status
  | list
  | remove
  | move
  deriving DecidableEq, Repr

/-- The kind of a call. -/
def kind : ServerCall → Kind
  | status => .status
  | list => .list
  | remove _ => .remove
  | move _ => .move

end ServerCall

/-- The serving process of one member. One call of a kind can cancel the client's work instead of
being answered, and others can fail, with the message they fail with. -/
structure MemberServer where
  node : String
  cancelOn : Option ServerCall.Kind := none
  faults : List (ServerCall.Kind × String) := []

/-- The processes, the table they share, and whether the client's work is cancelled. The calls that
reached a server are recorded with its node, and so are the endpoints dialed. -/
structure Fleet where
  servers : List MemberServer := []
  members : List Member := []
  leader : UInt64 := 0
  removed : List UInt64 := []
  moved : List UInt64 := []
  calls : List (String × ServerCall) := []
  dials : List String := []
  cancelled : Bool := false

/-- How the client reaches endpoints. -/
structure Route where
  dialer : Dialer
  network : Network
  port : UInt16 := etcdPort

namespace Fleet

/-- The process that serves an endpoint. -/
def serverAt (f : Fleet) (endpoint : String) : Option MemberServer :=
  f.servers.find? (etcdEndpoint ·.node == endpoint)

/-- What a server does for a call that is neither cancelled nor made to fail. -/
def act (f : Fleet) : ServerCall → Except String Unit × Fleet
  | .status => (.ok (), f)
  | .list => (.ok (), f)
  | .remove id =>
    if f.members.any (·.id == id) then
      (.ok (), { f with members := f.members.filter (·.id != id), removed := f.removed ++ [id] })
    else (.error "etcdserver: member not found", f)
  | .move id =>
    if f.members.any (·.id == id) then
      (.ok (), { f with leader := id, moved := f.moved ++ [id] })
    else (.error "etcdserver: bad leader transferee", f)

/-- A call that reached a server. -/
def serve (server : MemberServer) (endpoint : String) (c : ServerCall) (f : Fleet) :
    Except ClientError Unit × Fleet :=
  let f := { f with calls := f.calls ++ [(server.node, c)] }
  if server.cancelOn = some c.kind then (.error .cancelled, { f with cancelled := true })
  else
    match server.faults.lookup c.kind with
    | some message => (.error (.refused endpoint c.action message), f)
    | none =>
      match f.act c with
      | (.ok (), f) => (.ok (), f)
      | (.error message, f) => (.error (.refused endpoint c.action message), f)

/-- A call over a connection to an endpoint. -/
def call (endpoint : String) (c : ServerCall) (f : Fleet) : Except ClientError Unit × Fleet :=
  if f.cancelled then (.error .cancelled, f)
  else
    match f.serverAt endpoint with
    | some server => serve server endpoint c f
    | none => (.error (.refused endpoint c.action "transport error"), f)

/-- The error of an endpoint that could not be dialed. -/
def dialError (endpoint : String) (fault : DialFault) : ClientError :=
  .connect endpoint ("transport error: " ++ fault.message ++ ": " ++ fault.message)

/-- Dials an endpoint and asks it for the leader. -/
def create (route : Route) (endpoint : String) (f : Fleet) : Except ClientError UInt64 × Fleet :=
  if f.cancelled then (.error .cancelled, f)
  else if !isUriTail (endpoint ++ ":" ++ Text.decimal route.port.toNat) then
    (.error (.connect endpoint "invalid endpoint: invalid URI"), f)
  else
    let f := { f with dials := f.dials ++ [endpoint] }
    match route.dialer.dial route.network endpoint route.port with
    | .error fault => (.error (dialError endpoint fault), f)
    | .ok () =>
      let leader := f.leader
      match call endpoint .status f with
      | (.error e, f) => (.error e, f)
      | (.ok (), f) => (.ok leader, f)

/-- The remote members as a store. -/
def store (route : Route) : Store Fleet where
  create := create route
  list client f :=
    match call client.endpoint .list f with
    | (.error e, f) => (.error e, f)
    | (.ok (), f) => (.ok f.members, f)
  remove client id := call client.endpoint (.remove id)
  move client id := call client.endpoint (.move id)
  drop _ f := f

/-- Cancels the client's work. -/
def cancel (f : Fleet) : Fleet :=
  { f with cancelled := true }

end Fleet

end QuorumKeeper
