import QuorumKeeper.Store.Basic

/-!
# A cluster held in memory

One member list and one leader, seen through every connection. Endpoints can be made unreachable and
single calls made to fail. Dials, removals and moves are recorded, and open connections are
counted.
-/

set_option autoImplicit false

namespace QuorumKeeper

/-- A cluster in memory. It has endpoints that refuse connections (`unreachable`) or cannot list
members, and members that cannot be removed or made leader. It records the endpoints dialed, the ids
of the members removed and of those that leadership was moved to, and counts the connections created
and not yet closed. -/
structure Cluster where
  members : List Member := []
  leader : UInt64 := 0
  unreachable : List String := []
  failingList : List String := []
  failingRemove : List UInt64 := []
  failingMove : List UInt64 := []
  dials : List String := []
  removed : List UInt64 := []
  moved : List UInt64 := []
  openCount : Nat := 0
  deriving DecidableEq, Repr, Inhabited

namespace Cluster

/-- Opens a connection, which sees the leader of this moment. -/
def create (endpoint : String) (c : Cluster) : Except ClientError UInt64 × Cluster :=
  let c := { c with dials := c.dials ++ [endpoint] }
  if c.unreachable.contains endpoint then (.error (.connect endpoint "connection refused"), c)
  else (.ok c.leader, { c with openCount := c.openCount + 1 })

/-- Lists the members. -/
def list (client : Client) (c : Cluster) : Except ClientError (List Member) × Cluster :=
  if c.failingList.contains client.endpoint then
    (.error (.refused client.endpoint "member list" "etcdserver: request timed out"), c)
  else (.ok c.members, c)

/-- Takes out every member with the given id; there must be one. -/
def remove (client : Client) (id : UInt64) (c : Cluster) : Except ClientError Unit × Cluster :=
  if c.failingRemove.contains id then
    (.error (.refused client.endpoint "member remove" "etcdserver: unhealthy cluster"), c)
  else if c.members.any (·.id == id) then
    (.ok (), { c with
      members := c.members.filter (·.id != id)
      removed := c.removed ++ [id] })
  else (.error (.refused client.endpoint "member remove" "etcdserver: member not found"), c)

/-- Makes the given id the leader. -/
def move (client : Client) (id : UInt64) (c : Cluster) : Except ClientError Unit × Cluster :=
  if c.failingMove.contains id then
    (.error (.refused client.endpoint "move leader" "etcdserver: leadership transfer timed out"), c)
  else (.ok (), { c with leader := id, moved := c.moved ++ [id] })

/-- Closes a connection. -/
def drop (_client : Client) (c : Cluster) : Cluster :=
  { c with openCount := c.openCount - 1 }

/-- The cluster as a store. -/
def store : Store Cluster where
  create
  list
  remove
  move
  drop

/-- Makes an endpoint refuse connections. -/
def setUnreachable (endpoint : String) (c : Cluster) : Cluster :=
  { c with unreachable := endpoint :: c.unreachable }

/-- Makes an endpoint accept connections again. -/
def setReachable (endpoint : String) (c : Cluster) : Cluster :=
  { c with unreachable := c.unreachable.filter (· != endpoint) }

/-- Makes listing members over an endpoint fail. -/
def failList (endpoint : String) (c : Cluster) : Cluster :=
  { c with failingList := endpoint :: c.failingList }

/-- Makes removing a member fail. -/
def failRemove (id : UInt64) (c : Cluster) : Cluster :=
  { c with failingRemove := id :: c.failingRemove }

/-- Makes moving leadership to an id fail. -/
def failMove (id : UInt64) (c : Cluster) : Cluster :=
  { c with failingMove := id :: c.failingMove }

/-- Sets the leader. -/
def setLeader (id : UInt64) (c : Cluster) : Cluster :=
  { c with leader := id }

/-- Adds a member at the end. -/
def addMember (m : Member) (c : Cluster) : Cluster :=
  { c with members := c.members ++ [m] }

end Cluster

end QuorumKeeper
