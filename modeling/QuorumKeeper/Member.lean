import QuorumKeeper.Text.Substring

/-!
# Members and the nodes that host them

A member of the etcd raft group has a numeric id and, once its process has joined, a name that
embeds the name of the node hosting it (`etcd-<node>`). Correspondence is therefore substring
containment, and where several entries match the first one in list order is taken.
-/

set_option autoImplicit false

namespace QuorumKeeper

/-- Component tag of the etcd pods, the first part of every endpoint. -/
def etcdComponent : String := "etcd"

/-- The port etcd serves its clients on unless told otherwise. -/
def etcdPort : UInt16 := 2379

/-- The endpoint of a component's pod on a node. -/
def podName (component node : String) : String :=
  component ++ "-" ++ node

/-- The etcd endpoint of a node. -/
def etcdEndpoint (node : String) : String :=
  podName etcdComponent node

theorem etcdEndpoint_eq (node : String) : etcdEndpoint node = "etcd-" ++ node := by
  rw [etcdEndpoint, podName, etcdComponent]
  rfl

/-- A member of the raft group. The name is empty until the member's process has joined. -/
structure Member where
  id : UInt64
  name : String
  peerUrls : List String := []
  clientUrls : List String := []
  isLearner : Bool := false
  deriving DecidableEq, Repr, Inhabited

namespace Member

/-- The member has joined under a name. -/
def isStarted (m : Member) : Bool :=
  m.name != ""

/-- The member is hosted on the node. -/
def isOn (m : Member) (node : String) : Bool :=
  Text.occurs node m.name

/-- The first of the given nodes that hosts the member. -/
def nodeAmong (m : Member) (nodes : List String) : Option String :=
  nodes.find? m.isOn

/-- The first member whose name contains the given name. -/
def named? (members : List Member) (name : String) : Option Member :=
  members.find? (·.isOn name)

/-- The first member with the given id. -/
def withId? (members : List Member) (id : UInt64) : Option Member :=
  members.find? (·.id == id)

theorem isOn_iff (m : Member) (node : String) :
    m.isOn node = true ↔ node.toList <:+: m.name.toList :=
  Text.occurs_iff node m.name

end Member

end QuorumKeeper
