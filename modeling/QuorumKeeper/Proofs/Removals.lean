import QuorumKeeper.Proofs.ClusterRuns

/-!
# What a guarded removal does

`Cluster.removal` computes the answer of a removal and the core that it leaves, and
`leaves_removeMember` ties it to the operation. A removal is refused, finds nothing to do, or takes
out the first member under the given name (`Cluster.Removal`, `Cluster.removal_spec`). A cluster
without faults refuses nothing that the guard permits (`Unhindered.removal`).
-/

set_option autoImplicit false

namespace QuorumKeeper

open Program

/-- The nodes that the guard leaves for a removal, if the inventory can be read and the guard
allows it. -/
def QuorumGuard.permit (guard : QuorumGuard) (inv : Inventory) (name : String) :
    Except OperationError (List String) :=
  match inv.read with
  | .error failure => .error (.inventory failure)
  | .ok known => guard.remaining known name

/-- A guard with a minimum leaves some node for the connection. -/
theorem QuorumGuard.permit_nonempty {guard : QuorumGuard} {inv : Inventory} {name : String}
    {left : List String} (hmin : 1 ≤ guard.minimum) (hleft : guard.permit inv name = .ok left) :
    ∃ node rest, left = node :: rest := by
  cases left with
  | cons node rest => exact ⟨node, rest, rfl⟩
  | nil =>
    unfold permit at hleft
    cases hread : inv.read with
    | error failure =>
      simp only [hread] at hleft
      cases hleft
    | ok known =>
      simp only [hread] at hleft
      obtain ⟨henough, hnil⟩ := remaining_eq_ok_iff.1 hleft
      rw [← hnil, List.length_nil] at henough
      omega

namespace Cluster

/-- The cluster after a member was taken out. -/
def without (c : Cluster) (id : UInt64) : Cluster :=
  { c with members := c.members.filter (·.id != id), removed := c.removed ++ [id] }

/-- What taking out the first member under a name does, over a connection to an endpoint. -/
def removalAt (name endpoint : String) (c : Cluster) : Except OperationError Unit × Cluster :=
  match c.listedAt endpoint with
  | .error e => (.error (.client "failed to list etcd members using etcd client" e), c)
  | .ok members =>
    match Member.named? members name with
    | none => (.ok (), c)
    | some m =>
      match c.remove ⟨0, endpoint, 0⟩ m.id with
      | (.error e, c) =>
        (.error (.client ("failed to remove member " ++ m.name ++ " from etcd") e), c)
      | (.ok _, c) => (.ok (), c)

/-- What the guarded removal of a member does. -/
def removal (w : Workload) (inv : Inventory) (name : String) (c : Cluster) :
    Except OperationError Unit × Cluster :=
  match w.guard.permit inv name with
  | .error e => (.error e, c)
  | .ok left =>
    if w.hasAccess then
      match c.route left with
      | .error e => (.error (.client "failed to create etcd client" e), c)
      | .ok endpoint => removalAt name endpoint c
    else (.ok (), c)

end Cluster

namespace Workload

variable {s : Situation (Inventory × Cluster)}

theorem leaves_removeNamed (name : String) (client : Client) :
    (removeNamed name client).Leaves s (Cluster.removalAt name client.endpoint s.state.2.core).1
      (Cluster.removalAt name client.endpoint s.state.2.core).2 := by
  refine (leaves_listMembers client).bind fun s₁ _ hcore₁ => ?_
  unfold Cluster.removalAt
  cases s.state.2.core.listedAt client.endpoint with
  | error e => exact leaves_pure hcore₁ _
  | ok members =>
    cases hm : Member.named? members name with
    | none =>
      simp only [hm]
      exact (leaves_report _).bind fun s₂ _ hcore₂ => leaves_pure (hcore₂.trans hcore₁) _
    | some m =>
      simp only [hm]
      refine (leaves_remove client m.id).bind fun s₂ _ hcore₂ => ?_
      rw [hcore₁] at hcore₂ ⊢
      cases hr : s.state.2.core.remove ⟨0, client.endpoint, 0⟩ m.id with
      | mk result c =>
        rw [hr] at hcore₂
        cases result with
        | error e => exact leaves_pure hcore₂ _
        | ok u =>
          refine (leaves_report _).bind fun s₃ _ hcore₃ => ?_
          exact leaves_pure (hcore₃.trans hcore₂) _

/-- A guarded removal does what `Cluster.removal` computes. -/
theorem leaves_removeMember (w : Workload) (name : String) :
    (w.removeMember name).Leaves s (Cluster.removal w s.state.1 name s.state.2.core).1
      (Cluster.removal w s.state.1 name s.state.2.core).2 := by
  refine leaves_controlPlaneNodes.bind fun s₁ hinv₁ hcore₁ => ?_
  unfold Cluster.removal QuorumGuard.permit
  cases s.state.1.read with
  | error failure => exact leaves_pure hcore₁ _
  | ok known =>
    cases hleft : w.guard.remaining known name with
    | error e =>
      simp only [hleft]
      exact leaves_pure hcore₁ _
    | ok left =>
      simp only [hleft]
      split
      · have huse (client : Client) (s' : Situation (Inventory × Cluster))
            (hcore' : s'.state.2.core = s₁.state.2.core) :
            (removeNamed name client).Leaves s'
              (Cluster.removalAt name client.endpoint s.state.2.core).1
              (Cluster.removalAt name client.endpoint s.state.2.core).2 := by
          rw [← hcore₁, ← hcore']
          exact leaves_removeNamed name client
        have hsearch := leaves_withClient left
          (fun endpoint => Cluster.removalAt name endpoint s.state.2.core) huse
        rw [hcore₁] at hsearch
        cases hroute : s.state.2.core.route left with
        | error e =>
          rw [hroute] at hsearch
          exact hsearch
        | ok endpoint =>
          rw [hroute] at hsearch
          exact hsearch
      · exact leaves_pure hcore₁ _

end Workload

/-! ## The ways a removal can go -/

namespace Cluster

/-- How a guarded removal of the member under a name goes: it is refused and changes nothing, it
finds nothing to do, or it takes out the first member whose name contains the given one. -/
inductive Removal (w : Workload) (inv : Inventory) (name : String) (c : Cluster) :
    Except OperationError Unit → Cluster → Prop
  | refused {e : OperationError} (h : e.isCancelled = false) : Removal w inv name c (.error e) c
  | idle (h : w.hasAccess = true → Member.named? c.members name = none) :
      Removal w inv name c (.ok ()) c
  | taken {left : List String} {m : Member} (hw : w.hasAccess = true)
      (hleft : w.guard.permit inv name = .ok left)
      (hm : Member.named? c.members name = some m) :
      Removal w inv name c (.ok ()) (c.without m.id)

theorem Removal.of_error {w : Workload} {inv : Inventory} {name : String} {c c' : Cluster}
    {e : OperationError} (h : Removal w inv name c (.error e) c') :
    c' = c ∧ e.isCancelled = false := by
  cases h with
  | refused he => exact ⟨rfl, he⟩

/-- A removal that succeeds found nobody, or took out the first match. -/
theorem Removal.of_ok {w : Workload} {inv : Inventory} {name : String} {c c' : Cluster}
    (h : Removal w inv name c (.ok ()) c') :
    (c' = c ∧ (w.hasAccess = true → Member.named? c.members name = none)) ∨
      ∃ left m, w.hasAccess = true ∧ w.guard.permit inv name = .ok left ∧
        Member.named? c.members name = some m ∧ c' = c.without m.id := by
  cases h with
  | idle hnone => exact Or.inl ⟨rfl, hnone⟩
  | taken hw hleft hm => exact Or.inr ⟨_, _, hw, hleft, hm, rfl⟩

/-- A listing shows all members, or fails for a reason other than cancellation. -/
theorem listedAt_cases (c : Cluster) (endpoint : String) :
    c.listedAt endpoint = .ok c.members ∨
      ∃ e, c.listedAt endpoint = .error e ∧ e.isCancelled = false := by
  unfold listedAt list
  split
  · exact Or.inr ⟨_, rfl, rfl⟩
  · exact Or.inl rfl

/-- A removal takes the member out, or fails and leaves it. -/
theorem remove_cases (c : Cluster) (client : Client) {m : Member} (hm : m ∈ c.members) :
    c.remove client m.id = (.ok (), c.without m.id) ∨
      ∃ e, c.remove client m.id = (.error e, c) ∧ e.isCancelled = false := by
  have hany : c.members.any (·.id == m.id) = true :=
    List.any_eq_true.2 ⟨m, hm, beq_self_eq_true m.id⟩
  unfold remove
  rw [if_pos hany]
  split
  · exact Or.inr ⟨_, rfl, rfl⟩
  · exact Or.inl rfl

theorem anyCancelled_refusals (nodes : List String) :
    ClientError.anyCancelled (nodes.map refusal) = false := by
  apply ClientError.anyCancelled_eq_false_iff.2
  intro e he
  obtain ⟨node, -, rfl⟩ := List.mem_map.1 he
  exact ClientSearch.refusal_not_cancelled node

theorem route_not_cancelled {c : Cluster} {nodes : List String} {e : ClientError}
    (h : c.route nodes = .error e) : e.isCancelled = false := by
  unfold route at h
  split at h
  · cases h
    rfl
  · split at h
    · cases h
    · cases h
      exact anyCancelled_refusals nodes

theorem client_not_cancelled {context : String} {e : ClientError} (h : e.isCancelled = false) :
    (OperationError.client context e).isCancelled = false := by
  rw [OperationError.isCancelled]
  exact h

theorem permit_not_cancelled {guard : QuorumGuard} {inv : Inventory} {name : String}
    {e : OperationError} (h : guard.permit inv name = .error e) : e.isCancelled = false := by
  unfold QuorumGuard.permit at h
  split at h
  · cases h
    rfl
  · exact QuorumGuard.remaining_not_cancelled h

/-- A removal at an endpoint the guard let it reach. -/
theorem removalAt_spec {w : Workload} {inv : Inventory} {name : String} {left : List String}
    (hw : w.hasAccess = true) (hleft : w.guard.permit inv name = .ok left) (endpoint : String)
    (c : Cluster) :
    Removal w inv name c (removalAt name endpoint c).1 (removalAt name endpoint c).2 := by
  unfold removalAt
  rcases listedAt_cases c endpoint with hlist | ⟨e, hlist, he⟩
  · cases hm : Member.named? c.members name with
    | none =>
      simp only [hlist, hm]
      exact .idle fun _ => hm
    | some m =>
      simp only [hlist, hm]
      have hmem : m ∈ c.members := List.mem_of_find?_eq_some hm
      rcases remove_cases c ⟨0, endpoint, 0⟩ hmem with hr | ⟨e, hr, he⟩
      · rw [hr]
        exact .taken hw hleft hm
      · rw [hr]
        exact .refused (client_not_cancelled he)
  · rw [hlist]
    exact .refused (client_not_cancelled he)

/-- Every removal comes out in one of these ways. -/
theorem removal_spec (w : Workload) (inv : Inventory) (name : String) (c : Cluster) :
    Removal w inv name c (removal w inv name c).1 (removal w inv name c).2 := by
  unfold removal
  cases hleft : w.guard.permit inv name with
  | error e => exact .refused (permit_not_cancelled hleft)
  | ok left =>
    cases hw : w.hasAccess with
    | false => exact .idle (by simp [hw])
    | true =>
      simp only [if_true]
      cases hroute : c.route left with
      | error e => exact .refused (client_not_cancelled (route_not_cancelled hroute))
      | ok endpoint => exact removalAt_spec hw hleft endpoint c

/-- A removal leaves the cluster as it is or takes out the first member under the name. -/
theorem removal_state (w : Workload) (inv : Inventory) (name : String) (c : Cluster) :
    (removal w inv name c).2 = c ∨
      ∃ left m, w.hasAccess = true ∧ w.guard.permit inv name = .ok left ∧
        Member.named? c.members name = some m ∧ (removal w inv name c).2 = c.without m.id := by
  have hspec := removal_spec w inv name c
  cases hr : (removal w inv name c).1 with
  | error e =>
    rw [hr] at hspec
    exact Or.inl hspec.of_error.1
  | ok u =>
    rw [hr] at hspec
    rcases hspec.of_ok with ⟨hsame, -⟩ | htaken
    · exact Or.inl hsame
    · exact Or.inr htaken

/-! ## Clusters without faults -/

/-- Every endpoint that can be dialed lists the members, and every member can be removed. -/
structure Responsive (c : Cluster) : Prop where
  lists : c.failingList = []
  removes : c.failingRemove = []

namespace Responsive

variable {c : Cluster}

theorem without (h : c.Responsive) (id : UInt64) : (c.without id).Responsive :=
  ⟨h.lists, h.removes⟩

theorem listedAt (h : c.Responsive) (endpoint : String) :
    c.listedAt endpoint = .ok c.members := by
  simp [Cluster.listedAt, Cluster.list, h.lists]

theorem remove (h : c.Responsive) (client : Client) {m : Member} (hm : m ∈ c.members) :
    c.remove client m.id = (.ok (), c.without m.id) := by
  have hany : c.members.any (·.id == m.id) = true :=
    List.any_eq_true.2 ⟨m, hm, beq_self_eq_true m.id⟩
  have hfail : ¬ c.failingRemove.contains m.id = true := by simp [h.removes]
  rw [Cluster.remove, if_neg hfail, if_pos hany]
  rfl

/-- A removal that the guard permits and that finds a connection takes out the first member under
the name. -/
theorem removal (h : c.Responsive) {w : Workload} {inv : Inventory} {name endpoint : String}
    {left : List String} (hw : w.hasAccess = true) (hleft : w.guard.permit inv name = .ok left)
    (hroute : c.route left = .ok endpoint) :
    Cluster.removal w inv name c = (.ok (), match Member.named? c.members name with
      | none => c
      | some m => c.without m.id) := by
  simp only [Cluster.removal, hleft, hw, if_true, hroute, removalAt, h.listedAt]
  cases hm : Member.named? c.members name with
  | none => rfl
  | some m =>
    simp only [h.remove _ (List.mem_of_find?_eq_some hm)]

end Responsive

/-- Every endpoint accepts connections and lists members, and every member can be removed. -/
structure Unhindered (c : Cluster) : Prop where
  reachable : c.unreachable = []
  lists : c.failingList = []
  removes : c.failingRemove = []

namespace Unhindered

variable {c : Cluster}

theorem core (h : c.Unhindered) : c.core.Unhindered :=
  ⟨h.reachable, h.lists, h.removes⟩

theorem responsive (h : c.Unhindered) : c.Responsive :=
  ⟨h.lists, h.removes⟩

theorem of_narrows {s s' : Situation (Inventory × Cluster)} (hc : s.state.2.Unhindered)
    (h : Narrows s s') : s'.state.2.Unhindered :=
  ⟨h.unreachable.trans hc.reachable, h.failingList.trans hc.lists,
    h.failingRemove.trans hc.removes⟩

theorem without (h : c.Unhindered) (id : UInt64) : (c.without id).Unhindered :=
  ⟨h.reachable, h.lists, h.removes⟩

/-- A search leads to its first candidate. -/
theorem route (h : c.Unhindered) {node : String} {nodes : List String} :
    c.route (node :: nodes) = .ok (etcdEndpoint node) := by
  have haccepts : c.accepts node = true := by simp [Cluster.accepts, h.reachable]
  rw [Cluster.route, List.find?_cons_of_pos haccepts]
  rfl

/-- Without faults, a removal that the guard permits takes out the first member under the name. -/
theorem removal (h : c.Unhindered) {w : Workload} {inv : Inventory} {name node : String}
    {left : List String} (hw : w.hasAccess = true)
    (hleft : w.guard.permit inv name = .ok (node :: left)) :
    Cluster.removal w inv name c = (.ok (), match Member.named? c.members name with
      | none => c
      | some m => c.without m.id) :=
  h.responsive.removal hw hleft h.route

end Unhindered

end Cluster

end QuorumKeeper
