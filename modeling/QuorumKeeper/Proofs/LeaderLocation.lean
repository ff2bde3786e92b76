import QuorumKeeper.Proofs.LeaderSearch
import QuorumKeeper.Proofs.MemberLists
import QuorumKeeper.Proofs.Removals
import Mathlib.Data.List.Infix

/-!
# Where the search for the leader ends

Against a cluster in memory the search for the leader follows the `leaderRoute` of the core, as the
search for the first available node follows its `route` (`leaves_leaderClient`). A candidate that is
down or cannot list is passed over, and every other one is told the same leader by the same member
list. So if the name of the leader contains one of the candidates only, the search ends at that
node, however the candidates are ordered and whichever followers are out of order.
-/

set_option autoImplicit false

namespace QuorumKeeper

open Program

namespace Cluster

/-- What asking one node for the leader comes to: the endpoint of the node that hosts the leader, or
an error, which is recorded or ends the search. -/
inductive Lead where
  | found (endpoint : String)
  | skip (e : ClientError)
  | fatal (e : ClientError)

/-- What a node with the given members says about the leader. -/
def leadAmong (c : Cluster) (nodes : List String) (members : List Member) : Lead :=
  match Member.withId? members c.leader with
  | none => .skip (.leaderNotMember c.leader)
  | some leader =>
    match leader.nodeAmong nodes with
    | none => .fatal (.leaderWithoutNode leader.id leader.name)
    | some node =>
      match c.route [node] with
      | .ok endpoint => .found endpoint
      | .error e => .fatal e

/-- What asking one node for the leader comes to. -/
def lead (c : Cluster) (nodes : List String) (via : String) : Lead :=
  match c.route [via] with
  | .error e => .skip e
  | .ok endpoint =>
    match c.listedAt endpoint with
    | .error e => .skip e
    | .ok members => c.leadAmong nodes members

/-- The endpoint at which a search for the leader ends that asks the candidates in order, after the
given failures. -/
def leaderRouteVia (c : Cluster) (nodes : List String) :
    (candidates : List String) → (failures : List ClientError) → Except ClientError String
  | [], failures => .error (ClientSearch.exhausted failures)
  | via :: rest, failures =>
    match c.lead nodes via with
    | .found endpoint => .ok endpoint
    | .skip e => leaderRouteVia c nodes rest (failures ++ [e])
    | .fatal e => .error e

/-- The endpoint at which a search for the leader ends. -/
def leaderRoute (c : Cluster) (nodes : List String) : Except ClientError String :=
  if nodes.isEmpty then .error (ClientSearch.noCandidates "for_leader")
  else c.leaderRouteVia nodes nodes []

/-- The probe with a connection of the given serial number. -/
def Lead.probe (serial : Nat) (leader : UInt64) : Lead → ClientSearch.Probe
  | found endpoint => .found ⟨serial, endpoint, leader⟩
  | skip e => .skip e
  | fatal e => .fatal e

end Cluster

/-! ## Runs of the search -/

namespace ClientSearch

/-- Following a listing to the leader connects at most once more. -/
theorem leaves_followLeader (via : String) (nodes : List String) (members : List Member)
    (s : Situation (Inventory × Cluster)) :
    ∃ n, (followLeader via nodes members s.state.2.core.leader).Leaves s
      ((s.state.2.core.leadAmong nodes members).probe n s.state.2.core.leader) s.state.2.core := by
  unfold followLeader Cluster.leadAmong
  cases Member.withId? members s.state.2.core.leader with
  | none =>
    exact ⟨0, (leaves_report _).bind fun s' _ hcore => leaves_pure hcore _⟩
  | some leader =>
    cases hnode : leader.nodeAmong nodes with
    | none =>
      simp only [hnode]
      exact ⟨0, leaves_pure rfl _⟩
    | some node =>
      simp only [hnode]
      refine (leaves_report _).bind_serial fun s' _ hcore' => ?_
      obtain ⟨n, hsearch⟩ := leaves_firstAvailable [node] s'
      rw [hcore'] at hsearch
      refine ⟨n, hsearch.bind fun s₂ _ hcore₂ => ?_⟩
      cases s.state.2.core.route [node] with
      | ok endpoint => exact leaves_pure hcore₂ _
      | error e => exact leaves_pure hcore₂ _

/-- Probing a node connects to it and follows its listing. -/
theorem leaves_probe (via : String) (nodes : List String) (s : Situation (Inventory × Cluster)) :
    ∃ n, (probe via nodes).Leaves s
      ((s.state.2.core.lead nodes via).probe n s.state.2.core.leader) s.state.2.core := by
  obtain ⟨k, hdial⟩ := leaves_firstAvailable [via] s
  unfold probe Cluster.lead
  refine hdial.bind_serial fun s₁ _ hcore₁ => ?_
  cases hroute : s.state.2.core.route [via] with
  | error e =>
    show ∃ n, (pure (Probe.ofFailure e) : Program Probe).Leaves s₁ _ _
    rw [Probe.ofFailure_skip (Cluster.route_not_cancelled hroute)]
    exact ⟨0, leaves_pure hcore₁ _⟩
  | ok endpoint =>
    refine (leaves_list _).bind_serial fun s₂ _ hcore₂ => ?_
    refine (leaves_drop _).bind_serial fun s₃ _ hcore₃ => ?_
    rw [hcore₂, hcore₁] at hcore₃
    rw [hcore₁]
    rcases Cluster.listedAt_cases s.state.2.core endpoint with hlist | ⟨e, hlist, he⟩
    · simp only [hlist]
      rw [← hcore₃]
      exact leaves_followLeader via nodes _ s₃
    · simp only [hlist, Probe.ofFailure_skip he]
      exact ⟨0, leaves_pure hcore₃ _⟩

/-- Probing the nodes in turn takes the way the cluster's state gives. -/
theorem leaves_probeEach (nodes candidates : List String) (failures : List ClientError)
    (s : Situation (Inventory × Cluster)) :
    ∃ n, (probeEach nodes candidates failures).Leaves s
      ((s.state.2.core.leaderRouteVia nodes candidates failures).map
        fun endpoint => ⟨n, endpoint, s.state.2.core.leader⟩)
      s.state.2.core := by
  induction candidates generalizing failures s with
  | nil => exact ⟨0, leaves_pure rfl _⟩
  | cons via rest ih =>
    obtain ⟨k, hprobe⟩ := leaves_probe via nodes s
    unfold probeEach Cluster.leaderRouteVia
    refine hprobe.bind_serial fun s' _ hcore => ?_
    cases s.state.2.core.lead nodes via with
    | found endpoint => exact ⟨k, leaves_pure hcore _⟩
    | skip e =>
      rw [← hcore]
      exact ih (failures ++ [e]) s'
    | fatal e => exact ⟨0, leaves_pure hcore _⟩

/-- A search for the leader takes the leader's route of the core. -/
theorem leaves_leaderClient (nodes : List String) (s : Situation (Inventory × Cluster)) :
    ∃ n, (leaderClient nodes).Leaves s
      ((s.state.2.core.leaderRoute nodes).map fun endpoint => ⟨n, endpoint, s.state.2.core.leader⟩)
      s.state.2.core := by
  unfold leaderClient Cluster.leaderRoute
  split
  · exact ⟨0, leaves_pure rfl _⟩
  · exact leaves_probeEach nodes nodes [] s

end ClientSearch

/-! ## A leader on one node -/

namespace Cluster

/-- The cluster with further endpoints that cannot be dialed, and further ones that cannot list. -/
def impaired (c : Cluster) (down mute : List String) : Cluster :=
  { c with unreachable := down ++ c.unreachable, failingList := mute ++ c.failingList }

/-- The node can be dialed and can list the members. -/
def Answers (c : Cluster) (via : String) : Prop :=
  etcdEndpoint via ∉ c.unreachable ∧ etcdEndpoint via ∉ c.failingList

/-- The member leads the cluster, and the node is the one candidate in its name. The node can be
dialed, and some candidate answers. -/
structure LedFrom (c : Cluster) (nodes : List String) (leader : Member) (node : String) : Prop where
  listed : leader ∈ c.members
  leads : c.leader = leader.id
  hosted : node ∈ nodes ∧ node.toList <:+: leader.name.toList
  only : ∀ n ∈ nodes, n.toList <:+: leader.name.toList → n = node
  reachable : etcdEndpoint node ∉ c.unreachable
  asked : ∃ via ∈ nodes, c.Answers via

theorem route_single {c : Cluster} {node : String} (h : etcdEndpoint node ∉ c.unreachable) :
    c.route [node] = .ok (etcdEndpoint node) := by
  simp [route, accepts, h]

/-- A node that does not answer is passed over. -/
theorem lead_of_not_answers (c : Cluster) (nodes : List String) {via : String}
    (h : ¬ c.Answers via) : ∃ e, c.lead nodes via = .skip e := by
  rw [lead]
  cases hroute : c.route [via] with
  | error e => exact ⟨e, rfl⟩
  | ok endpoint =>
    have hup : etcdEndpoint via ∉ c.unreachable := by
      intro hdown
      simp [route, accepts, hdown] at hroute
    rw [route_single hup] at hroute
    cases hroute
    have hmute : etcdEndpoint via ∈ c.failingList := by
      by_contra hlists
      exact h ⟨hup, hlists⟩
    simp [listedAt, Cluster.list, hmute]

namespace LedFrom

variable {c : Cluster} {nodes : List String} {leader : Member} {node : String}

/-- The leader is found among the members by its id. -/
theorem withId? (h : c.LedFrom nodes leader node) (hids : DistinctIds c.members) :
    Member.withId? c.members c.leader = some leader := by
  apply Member.withId?_eq_some_iff.2
  apply isFirst_of_unique h.listed h.leads.symm
  intro m hm hid
  exact hids.eq_of_id hm h.listed (hid.trans h.leads)

/-- The leader's node is found among the nodes by its name. -/
theorem nodeAmong (h : c.LedFrom nodes leader node) : leader.nodeAmong nodes = some node :=
  Member.nodeAmong_eq_some_iff.2 (isFirst_of_unique h.hosted.1 h.hosted.2 h.only)

/-- A node that answers leads to the node of the leader. -/
theorem lead_of_answers (h : c.LedFrom nodes leader node) (hids : DistinctIds c.members)
    {via : String} (hvia : c.Answers via) : c.lead nodes via = .found (etcdEndpoint node) := by
  have hlist : c.listedAt (etcdEndpoint via) = .ok c.members := by
    simp [listedAt, Cluster.list, hvia.2]
  rw [lead, route_single hvia.1]
  simp only [hlist, leadAmong, h.withId? hids, h.nodeAmong, route_single h.reachable]

/-- Candidates are passed over until one answers. -/
theorem leaderRouteVia (h : c.LedFrom nodes leader node) (hids : DistinctIds c.members)
    {candidates : List String} (hasked : ∃ via ∈ candidates, c.Answers via)
    (failures : List ClientError) :
    c.leaderRouteVia nodes candidates failures = .ok (etcdEndpoint node) := by
  induction candidates generalizing failures with
  | nil => simp at hasked
  | cons via rest ih =>
    rw [Cluster.leaderRouteVia]
    by_cases hvia : c.Answers via
    · rw [h.lead_of_answers hids hvia]
    · obtain ⟨e, hskip⟩ := lead_of_not_answers c nodes hvia
      obtain ⟨other, hother, hanswers⟩ := hasked
      rw [hskip]
      rcases List.mem_cons.1 hother with rfl | hrest
      · exact absurd hanswers hvia
      · exact ih ⟨other, hrest, hanswers⟩ _

/-- The way to the leader ends at its node. -/
theorem leaderRoute (h : c.LedFrom nodes leader node) (hids : DistinctIds c.members) :
    c.leaderRoute nodes = .ok (etcdEndpoint node) := by
  have hsome : nodes.isEmpty = false := by simpa using List.ne_nil_of_mem h.hosted.1
  rw [Cluster.leaderRoute, hsome, if_neg Bool.false_ne_true]
  exact h.leaderRouteVia hids h.asked []

/-- The candidates may stand in any order, among others that are not in the name of the leader, and
further nodes may be down or unable to list, as long as the node of the leader can be dialed and
some candidate answers. -/
theorem vary (h : c.LedFrom nodes leader node) {nodes' others down mute : List String}
    (hperm : nodes'.Perm (nodes ++ others))
    (hothers : ∀ n ∈ others, ¬ n.toList <:+: leader.name.toList)
    (hup : etcdEndpoint node ∉ down) (hasked : ∃ via ∈ nodes', (c.impaired down mute).Answers via) :
    (c.impaired down mute).LedFrom nodes' leader node where
  listed := h.listed
  leads := h.leads
  hosted := ⟨hperm.mem_iff.2 (List.mem_append_left _ h.hosted.1), h.hosted.2⟩
  only := by
    intro n hn hinfix
    rcases List.mem_append.1 (hperm.mem_iff.1 hn) with hn | hn
    · exact h.only n hn hinfix
    · exact absurd hinfix (hothers n hn)
  reachable := by
    rw [impaired, List.mem_append, not_or]
    exact ⟨hup, h.reachable⟩
  asked := hasked

end LedFrom

end Cluster

/-- The search for the leader among the nodes finds a connection to the node, opened while the
member leads, and changes nothing else about the cluster. -/
structure FindsLeader (nodes : List String) (leader : Member) (node : String)
    (s : Situation (Inventory × Cluster)) : Prop where
  found : ∃ client, ((ClientSearch.leaderClient nodes).run Cluster.world s).value = .ok client ∧
    client.endpoint = etcdEndpoint node ∧ client.leader = leader.id
  members : ((ClientSearch.leaderClient nodes).run Cluster.world s).after.state.2.members =
    s.state.2.members
  same_leader : ((ClientSearch.leaderClient nodes).run Cluster.world s).after.state.2.leader =
    s.state.2.leader
  removed : ((ClientSearch.leaderClient nodes).run Cluster.world s).after.state.2.removed =
    s.state.2.removed
  moved : ((ClientSearch.leaderClient nodes).run Cluster.world s).after.state.2.moved =
    s.state.2.moved

/-- A cluster led from one of the nodes is led to. -/
theorem Cluster.LedFrom.findsLeader {s : Situation (Inventory × Cluster)} {nodes : List String}
    {leader : Member} {node : String} (h : s.state.2.core.LedFrom nodes leader node)
    (hids : DistinctIds s.state.2.members) : FindsLeader nodes leader node s := by
  obtain ⟨n, hleaves⟩ := ClientSearch.leaves_leaderClient nodes s
  rw [h.leaderRoute hids] at hleaves
  have hcore := hleaves.core
  exact
    { found := ⟨_, hleaves.value, rfl, h.leads⟩
      members := (congrArg Cluster.members hcore :)
      same_leader := (congrArg Cluster.leader hcore :)
      removed := (congrArg Cluster.removed hcore :)
      moved := (congrArg Cluster.moved hcore :) }

/-- If the name of the leader contains one candidate only, the search for the leader ends at that
node for every order of the candidates, whichever others are among them or out of order. -/
theorem leader_found_in_any_order (c : Cluster) (inv : Inventory) (serial : Nat)
    (nodes nodes' others down mute : List String) (leader : Member) (node : String)
    (hids : DistinctIds c.members) (h : c.LedFrom nodes leader node)
    (hperm : nodes'.Perm (nodes ++ others))
    (hothers : ∀ n ∈ others, ¬ n.toList <:+: leader.name.toList)
    (hup : etcdEndpoint node ∉ down) (hasked : ∃ via ∈ nodes', (c.impaired down mute).Answers via) :
    FindsLeader nodes' leader node ⟨serial, (inv, c.impaired down mute)⟩ := by
  obtain ⟨listed, leads, hosted, only, reachable, asked⟩ := h.vary hperm hothers hup hasked
  exact Cluster.LedFrom.findsLeader ⟨listed, leads, hosted, only, reachable, asked⟩ hids

/-- The leader is on `cp-2`, and `cp-1` is down. -/
def ledFromSecond : Cluster where
  members := [
    { id := 1, name := "etcd-cp-1" },
    { id := 2, name := "etcd-cp-2" },
    { id := 3, name := "etcd-cp-3" }]
  leader := 2
  unreachable := ["etcd-cp-1"]

/-- Only the last candidate, a follower, can be dialed and list the members. -/
theorem leader_found_through_last_follower :
    FindsLeader ["cp-4", "cp-2", "cp-1", "cp-3"] { id := 2, name := "etcd-cp-2" } "cp-2"
      ⟨0, (⟨[], none⟩, ledFromSecond.impaired ["etcd-cp-4"] ["etcd-cp-2"])⟩ :=
  leader_found_in_any_order ledFromSecond ⟨[], none⟩ 0 ["cp-1", "cp-2", "cp-3"]
    ["cp-4", "cp-2", "cp-1", "cp-3"] ["cp-4"] ["etcd-cp-4"] ["etcd-cp-2"]
    { id := 2, name := "etcd-cp-2" } "cp-2" (by decide)
    ⟨by decide, rfl, by decide, by decide, by decide, "cp-3", by decide, by decide, by decide⟩
    (by decide) (by decide) (by decide) ⟨"cp-3", by decide, by decide, by decide⟩

end QuorumKeeper
