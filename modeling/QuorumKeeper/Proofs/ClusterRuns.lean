import QuorumKeeper.Proofs.Runs
import QuorumKeeper.Store.InMemory
import QuorumKeeper.Workload

/-!
# Runs against a cluster in memory

What an operation does to a cluster in memory depends on the cluster without its record of
connections, its `core`. `Program.Leaves` says what value a run gives and which core it leaves, and
the lemmas `leaves_*` say it for the single requests and for the search for a first available node,
which takes the `route` of the core. None of these statements mentions a serial number.

No run adds members, and none changes the inventory or the faults (`Cluster.Narrows`).
-/

set_option autoImplicit false

namespace QuorumKeeper

variable {α β : Type}

namespace Cluster

/-- The world of a cluster in memory and an inventory. -/
abbrev world : World (Inventory × Cluster) :=
  Cluster.store.world

/-- The cluster without its record of connections. -/
def core (c : Cluster) : Cluster :=
  { c with dials := [], openCount := 0 }

@[simp] theorem core_members (c : Cluster) : c.core.members = c.members := rfl

@[simp] theorem core_removed (c : Cluster) : c.core.removed = c.removed := rfl

@[simp] theorem core_unreachable (c : Cluster) : c.core.unreachable = c.unreachable := rfl

@[simp] theorem core_failingList (c : Cluster) : c.core.failingList = c.failingList := rfl

@[simp] theorem core_failingRemove (c : Cluster) : c.core.failingRemove = c.failingRemove := rfl

/-- The members that an endpoint lists. -/
def listedAt (c : Cluster) (endpoint : String) : Except ClientError (List Member) :=
  (c.list ⟨0, endpoint, 0⟩).1

/-- A listing depends on the endpoint alone and changes nothing. -/
theorem list_eq (c : Cluster) (client : Client) :
    c.list client = (c.core.listedAt client.endpoint, c) := by
  by_cases h : c.failingList.contains client.endpoint = true
  · simp only [listedAt, list, core_failingList, h, if_true]
  · simp only [listedAt, list, core_failingList, core_members, h, Bool.false_eq_true, if_false]

/-- A removal depends on the endpoint alone. -/
theorem remove_core (c : Cluster) (client : Client) (id : UInt64) :
    (c.remove client id).1 = (c.core.remove ⟨0, client.endpoint, 0⟩ id).1 ∧
      (c.remove client id).2.core = (c.core.remove ⟨0, client.endpoint, 0⟩ id).2 := by
  by_cases hfail : c.failingRemove.contains id = true
  · simp only [remove, core_failingRemove, hfail, if_true, and_self]
  · by_cases hany : c.members.any (·.id == id) = true
    · simp only [remove, core_failingRemove, core_members, hfail, hany, Bool.false_eq_true,
        if_false, if_true, true_and]
      rfl
    · simp only [remove, core_failingRemove, core_members, hfail, hany, Bool.false_eq_true,
        if_false, and_self]

/-- The node's endpoint accepts connections. -/
def accepts (c : Cluster) (node : String) : Bool :=
  !c.unreachable.contains (etcdEndpoint node)

/-- The failure to dial a node that does not accept connections. -/
def refusal (node : String) : ClientError :=
  .connect (etcdEndpoint node) "connection refused"

/-- The endpoint at which a search for the first available of the nodes ends. -/
def route (c : Cluster) (nodes : List String) : Except ClientError String :=
  if nodes.isEmpty then .error (ClientSearch.noCandidates "for_first_available_node")
  else match nodes.find? c.accepts with
    | some node => .ok (etcdEndpoint node)
    | none => .error (.unreachable ClientSearch.noNodeReachable (nodes.map refusal))

end Cluster

/-! ## What no run changes -/

namespace Cluster

/-- Between the two situations members may have been taken out. The inventory and the faults are
as they were. -/
structure Narrows (s s' : Situation (Inventory × Cluster)) : Prop where
  inventory : s'.state.1 = s.state.1
  members : s'.state.2.members.Sublist s.state.2.members
  unreachable : s'.state.2.unreachable = s.state.2.unreachable
  failingList : s'.state.2.failingList = s.state.2.failingList
  failingRemove : s'.state.2.failingRemove = s.state.2.failingRemove

instance : Std.Refl Narrows where
  refl _ := ⟨rfl, List.Sublist.refl _, rfl, rfl, rfl⟩

instance : IsTrans (Situation (Inventory × Cluster)) Narrows where
  trans _ _ _ h h' := ⟨h'.inventory.trans h.inventory, h'.members.trans h.members,
    h'.unreachable.trans h.unreachable, h'.failingList.trans h.failingList,
    h'.failingRemove.trans h.failingRemove⟩

theorem narrows_answer (s : Situation (Inventory × Cluster)) (q : Request) :
    Narrows s (world.answer s q).2 := by
  cases q with
  | nodes => exact refl_of Narrows s
  | create endpoint =>
    cases hdown : s.state.2.unreachable.contains endpoint <;>
      simp only [World.answer, Store.world, Store.worldWith, store, create, hdown, if_true,
        Bool.false_eq_true, if_false] <;>
      exact ⟨rfl, List.Sublist.refl _, rfl, rfl, rfl⟩
  | list client =>
    simp only [World.answer, Store.world, Store.worldWith, store, list_eq]
    exact refl_of Narrows s
  | remove client id =>
    simp only [World.answer, Store.world, Store.worldWith, store, remove]
    split
    · exact refl_of Narrows s
    · split
      · exact ⟨rfl, List.filter_sublist, rfl, rfl, rfl⟩
      · exact refl_of Narrows s
  | move client id =>
    simp only [World.answer, Store.world, Store.worldWith, store, move]
    split
    · exact refl_of Narrows s
    · exact ⟨rfl, List.Sublist.refl _, rfl, rfl, rfl⟩
  | drop client => exact ⟨rfl, List.Sublist.refl _, rfl, rfl, rfl⟩

/-- Members only ever leave a cluster. -/
theorem world_narrows : world.Respects Narrows :=
  narrows_answer

end Cluster

/-! ## What a run leaves -/

/-- Run from `s`, the program gives `v`, does not touch the inventory, and leaves a cluster with
the core `c`. -/
structure Program.Leaves (p : Program α) (s : Situation (Inventory × Cluster)) (v : α)
    (c : Cluster) : Prop where
  value : (p.run Cluster.world s).value = v
  inventory : (p.run Cluster.world s).after.state.1 = s.state.1
  core : (p.run Cluster.world s).after.state.2.core = c

namespace Program

variable {s : Situation (Inventory × Cluster)}

theorem leaves_pure {c : Cluster} (h : s.state.2.core = c) (a : α) :
    (pure a : Program α).Leaves s a c :=
  ⟨rfl, rfl, h⟩

theorem leaves_report (e : Event) : (report e).Leaves s () s.state.2.core :=
  ⟨rfl, rfl, rfl⟩

theorem leaves_nodes : nodes.Leaves s s.state.1.read s.state.2.core :=
  ⟨rfl, rfl, rfl⟩

theorem leaves_drop (client : Client) : (drop client).Leaves s () s.state.2.core :=
  ⟨rfl, rfl, rfl⟩

/-- A sequence leaves what its second part leaves, run from where the first part ends. -/
theorem Leaves.andThen {p : Program α} {f : α → Program β} {v : α} {c : Cluster} {v' : β}
    {c' : Cluster} (hp : p.Leaves s v c) (hf : (f v).Leaves (p.run Cluster.world s).after v' c') :
    (p >>= f).Leaves s v' c' := by
  obtain ⟨rfl, hinv, -⟩ := hp
  constructor
  · rw [run_bind]
    exact hf.value
  · rw [run_bind]
    exact hf.inventory.trans hinv
  · rw [run_bind]
    exact hf.core

/-- The second part of a sequence may be run from anywhere with the right inventory and core. -/
theorem Leaves.bind {p : Program α} {f : α → Program β} {v : α} {c : Cluster} {v' : β}
    {c' : Cluster} (hp : p.Leaves s v c)
    (hf : ∀ s' : Situation (Inventory × Cluster), s'.state.1 = s.state.1 → s'.state.2.core = c →
      (f v).Leaves s' v' c') :
    (p >>= f).Leaves s v' c' :=
  hp.andThen (hf _ hp.inventory hp.core)

/-- The same where the second part gives its value up to a serial number. -/
theorem Leaves.bind_serial {p : Program α} {f : α → Program β} {v : α} {c : Cluster}
    {v' : Nat → β} {c' : Cluster} (hp : p.Leaves s v c)
    (hf : ∀ s' : Situation (Inventory × Cluster), s'.state.1 = s.state.1 → s'.state.2.core = c →
      ∃ n, (f v).Leaves s' (v' n) c') :
    ∃ n, (p >>= f).Leaves s (v' n) c' := by
  obtain ⟨n, hn⟩ := hf _ hp.inventory hp.core
  exact ⟨n, hp.andThen hn⟩

/-- An endpoint that refuses connections is not connected to. -/
theorem leaves_create_error {endpoint : String}
    (h : s.state.2.core.unreachable.contains endpoint = true) :
    (create endpoint).Leaves s (.error (.connect endpoint "connection refused"))
      s.state.2.core := by
  have hanswer : Cluster.world.answer s (.create endpoint) =
      (.error (.connect endpoint "connection refused"),
        { s with state :=
          (s.state.1, { s.state.2 with dials := s.state.2.dials ++ [endpoint] }) }) := by
    rw [Cluster.core_unreachable] at h
    simp only [World.answer, Cluster.world, Store.world, Store.worldWith, Cluster.store,
      Cluster.create, h, if_true]
  rw [create]
  constructor <;> rw [run_request, hanswer]
  rfl

/-- An endpoint that accepts connections is connected to, and leaves the members alone. -/
theorem leaves_create_ok {endpoint : String}
    (h : s.state.2.core.unreachable.contains endpoint = false) :
    (create endpoint).Leaves s (.ok ⟨s.serial, endpoint, s.state.2.core.leader⟩)
      s.state.2.core := by
  have hanswer : Cluster.world.answer s (.create endpoint) =
      (.ok ⟨s.serial, endpoint, s.state.2.leader⟩,
        ⟨s.serial + 1, (s.state.1, { s.state.2 with
          dials := s.state.2.dials ++ [endpoint], openCount := s.state.2.openCount + 1 })⟩) := by
    rw [Cluster.core_unreachable] at h
    simp only [World.answer, Cluster.world, Store.world, Store.worldWith, Cluster.store,
      Cluster.create, h, Bool.false_eq_true, if_false]
  rw [create]
  constructor <;> rw [run_request, hanswer]
  · rfl
  · rfl

/-- A listing shows the members or fails, and leaves the cluster alone. -/
theorem leaves_list (client : Client) :
    (list client).Leaves s (s.state.2.core.listedAt client.endpoint) s.state.2.core := by
  have hanswer : Cluster.world.answer s (.list client) =
      (s.state.2.core.listedAt client.endpoint, s) := by
    simp only [World.answer, Cluster.world, Store.world, Store.worldWith, Cluster.store,
      Cluster.list_eq]
  rw [list]
  constructor <;> rw [run_request, hanswer]

/-- A removal goes on at the endpoint of its connection. -/
theorem leaves_remove (client : Client) (id : UInt64) :
    (remove client id).Leaves s (s.state.2.core.remove ⟨0, client.endpoint, 0⟩ id).1
      (s.state.2.core.remove ⟨0, client.endpoint, 0⟩ id).2 := by
  obtain ⟨hvalue, hcore⟩ := Cluster.remove_core s.state.2 client id
  exact ⟨hvalue, rfl, hcore⟩

end Program

open Program

/-! ## Searches -/

namespace ClientSearch

variable {s : Situation (Inventory × Cluster)}

theorem refusal_not_cancelled (node : String) : (Cluster.refusal node).isCancelled = false := rfl

/-- Trying the nodes in turn ends at the first that accepts connections. -/
theorem leaves_tryEach (nodes : List String) (failures : List ClientError)
    (s : Situation (Inventory × Cluster)) :
    ∃ n, (tryEach nodes failures).Leaves s
      (match nodes.find? s.state.2.core.accepts with
        | some node => .ok ⟨n, etcdEndpoint node, s.state.2.core.leader⟩
        | none => .error (.unreachable noNodeReachable (failures ++ nodes.map Cluster.refusal)))
      s.state.2.core := by
  induction nodes generalizing failures s with
  | nil =>
    rw [List.map_nil, List.append_nil]
    exact ⟨0, leaves_pure rfl _⟩
  | cons node rest ih =>
    cases hc : s.state.2.core.unreachable.contains (etcdEndpoint node) with
    | false =>
      have haccepts : s.state.2.core.accepts node = true := by
        rw [Cluster.accepts, hc]
        rfl
      refine ⟨s.serial, (leaves_create_ok hc).bind fun s' _ hcore => ?_⟩
      rw [List.find?_cons_of_pos haccepts]
      exact leaves_pure hcore _
    | true =>
      have haccepts : ¬ s.state.2.core.accepts node = true := by
        rw [Cluster.accepts, hc]
        exact Bool.false_ne_true
      have hdial := leaves_create_error hc
      obtain ⟨n, hn⟩ := ih (failures ++ [Cluster.refusal node])
        ((create (etcdEndpoint node)).run Cluster.world s).after
      rw [hdial.core] at hn
      refine ⟨n, hdial.andThen ?_⟩
      rw [List.find?_cons_of_neg haccepts, List.map_cons, List.append_cons]
      -- the refusal is no cancellation, so the search reports it and goes on
      show (if (Cluster.refusal node).isCancelled = true then _ else _ :
        Program (Except ClientError Client)).Leaves _ _ _
      rw [if_neg (by simp [refusal_not_cancelled])]
      exact (leaves_report _).andThen hn

/-- A search for the first available node takes the route of the core. -/
theorem leaves_firstAvailable (nodes : List String) (s : Situation (Inventory × Cluster)) :
    ∃ n, (firstAvailable nodes).Leaves s
      ((s.state.2.core.route nodes).map fun endpoint => ⟨n, endpoint, s.state.2.core.leader⟩)
      s.state.2.core := by
  unfold firstAvailable Cluster.route
  split
  · exact ⟨0, leaves_pure rfl _⟩
  · obtain ⟨n, hn⟩ := leaves_tryEach nodes [] s
    refine ⟨n, ?_⟩
    cases hfind : nodes.find? s.state.2.core.accepts with
    | some node =>
      rw [hfind] at hn
      exact hn
    | none =>
      rw [hfind] at hn
      exact hn

end ClientSearch

/-! ## Reading the inventory and the member list -/

namespace Workload

variable {s : Situation (Inventory × Cluster)}

/-- Reading the inventory leaves the cluster alone. -/
theorem leaves_controlPlaneNodes :
    controlPlaneNodes.Leaves s
      (match s.state.1.read with
        | .ok names => .ok names
        | .error failure => .error (.inventory failure))
      s.state.2.core := by
  refine leaves_nodes.bind fun s' _ hcore => ?_
  cases s.state.1.read with
  | ok names => exact leaves_pure hcore _
  | error failure => exact leaves_pure hcore _

/-- A connection found by a search is used where the core's route ends, and closed. -/
theorem leaves_withClient (nodes : List String)
    {use : Client → Program (Except OperationError α)}
    (out : String → Except OperationError α × Cluster)
    (huse : ∀ client s', s'.state.2.core = s.state.2.core →
      (use client).Leaves s' (out client.endpoint).1 (out client.endpoint).2) :
    (withClient (ClientSearch.firstAvailable nodes) use).Leaves s
      (match s.state.2.core.route nodes with
        | .error e => .error (.client "failed to create etcd client" e)
        | .ok endpoint => (out endpoint).1)
      (match s.state.2.core.route nodes with
        | .error _ => s.state.2.core
        | .ok endpoint => (out endpoint).2) := by
  obtain ⟨n, hsearch⟩ := ClientSearch.leaves_firstAvailable nodes s
  refine hsearch.bind fun s' _ hcore => ?_
  cases hroute : s.state.2.core.route nodes with
  | error e => exact leaves_pure hcore _
  | ok endpoint =>
    refine (huse ⟨n, endpoint, s.state.2.core.leader⟩ s' hcore).bind fun s₂ _ hcore₂ => ?_
    exact (leaves_drop _).bind fun s₃ _ hcore₃ => leaves_pure (hcore₃.trans hcore₂) _

theorem leaves_listMembers (client : Client) :
    (listMembers client).Leaves s
      (match s.state.2.core.listedAt client.endpoint with
        | .ok members => .ok members
        | .error e => .error (.client "failed to list etcd members using etcd client" e))
      s.state.2.core := by
  refine (leaves_list client).bind fun s' _ hcore => ?_
  cases s.state.2.core.listedAt client.endpoint with
  | ok members => exact leaves_pure hcore _
  | error e => exact leaves_pure hcore _

end Workload

end QuorumKeeper
