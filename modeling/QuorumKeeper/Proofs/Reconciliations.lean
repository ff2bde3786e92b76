import QuorumKeeper.Proofs.Removals

/-!
# What a reconciliation does

`Cluster.reconciled` computes the report of a reconciliation and the core that it leaves:
`Cluster.pruned` goes through the members as one node lists them, and `Cluster.prunedEach` through
the nodes. `leaves_reconcile` ties it to the operation.
-/

set_option autoImplicit false

namespace QuorumKeeper

open Program

namespace Report

/-- The report once a removal has given its answer. -/
def answered (r : Report) : Except OperationError Unit → Report
  | .ok _ => r
  | .error e => r.fail e

@[simp] theorem answered_removed (r : Report) (answer : Except OperationError Unit) :
    (r.answered answer).removed = r.removed := by
  cases answer with
  | ok u => rfl
  | error e => rfl

theorem mem_attempt (r : Report) (name : String) : name ∈ (r.attempt name).removed := by
  unfold attempt
  split
  · rename_i h
    exact List.contains_iff_mem.1 h
  · simp

theorem subset_attempt (r : Report) (name : String) : r.removed ⊆ (r.attempt name).removed := by
  unfold attempt
  split
  · exact List.Subset.refl _
  · exact List.subset_append_left _ _

end Report

namespace Cluster

/-- The report and the cluster after the stale members among those listed were attempted. -/
def pruned (w : Workload) (inv : Inventory) (nodes : List String) :
    List Member → Report → Cluster → Report × Cluster
  | [], r, c => (r, c)
  | m :: rest, r, c =>
    if Workload.isStale nodes m then
      pruned w inv nodes rest ((r.attempt m.name).answered (removal w inv m.name c).1)
        (removal w inv m.name c).2
    else pruned w inv nodes rest r c

/-- The report and the cluster after the stale members were attempted as one node lists them. -/
def prunedVia (w : Workload) (inv : Inventory) (nodes : List String) (via : String) (r : Report)
    (c : Cluster) : Report × Cluster :=
  match c.route [via] with
  | .error _ => (r, c)
  | .ok endpoint =>
    match c.listedAt endpoint with
    | .error _ => (r, c)
    | .ok members => pruned w inv nodes members r c

/-- The report and the cluster after going through some of the nodes. -/
def prunedEach (w : Workload) (inv : Inventory) (nodes : List String) :
    List String → Report → Cluster → Report × Cluster
  | [], r, c => (r, c)
  | via :: rest, r, c =>
    prunedEach w inv nodes rest (prunedVia w inv nodes via r c).1 (prunedVia w inv nodes via r c).2

/-- The report and the cluster after a reconciliation. -/
def reconciled (w : Workload) (inv : Inventory) (nodes : List String) (c : Cluster) :
    Report × Cluster :=
  if w.hasAccess then prunedEach w inv nodes nodes {} c else ({}, c)

/-- One node's turn changes nothing, or it is a pass over the members of the cluster. -/
theorem prunedVia_cases (w : Workload) (inv : Inventory) (nodes : List String) (via : String)
    (r : Report) (c : Cluster) :
    prunedVia w inv nodes via r c = (r, c) ∨
      prunedVia w inv nodes via r c = pruned w inv nodes c.members r c := by
  unfold prunedVia
  cases c.route [via] with
  | error e => exact Or.inl rfl
  | ok endpoint =>
    rcases listedAt_cases c endpoint with hlist | ⟨e, hlist, -⟩
    · right
      simp only [hlist]
    · left
      simp only [hlist]

/-- Without faults, a reconciliation starts with a pass over all members. -/
theorem Unhindered.reconciled {c : Cluster} (hc : c.Unhindered) {w : Workload} {inv : Inventory}
    {via : String} {vias : List String} (hw : w.hasAccess = true) :
    Cluster.reconciled w inv (via :: vias) c =
      prunedEach w inv (via :: vias) vias (pruned w inv (via :: vias) c.members {} c).1
        (pruned w inv (via :: vias) c.members {} c).2 := by
  simp only [Cluster.reconciled, hw, if_true, prunedEach, prunedVia, hc.route,
    hc.responsive.listedAt]

end Cluster

namespace Workload

variable {s : Situation (Inventory × Cluster)}

/-- A cluster in memory never cancels, so the attempts go through the whole list. -/
theorem leaves_pruneListed (w : Workload) (nodes : List String) (members : List Member)
    (r : Report) (s : Situation (Inventory × Cluster)) :
    (pruneListed w nodes members r).Leaves s
      (.goOn (Cluster.pruned w s.state.1 nodes members r s.state.2.core).1)
      (Cluster.pruned w s.state.1 nodes members r s.state.2.core).2 := by
  induction members generalizing r s with
  | nil => exact leaves_pure rfl _
  | cons m rest ih =>
    unfold pruneListed Cluster.pruned
    split
    · have hspec := Cluster.removal_spec w s.state.1 m.name s.state.2.core
      have hremove := leaves_removeMember (s := s) w m.name
      generalize Cluster.removal w s.state.1 m.name s.state.2.core = outcome at hspec hremove ⊢
      obtain ⟨answer, c⟩ := outcome
      refine hremove.bind fun s' hinv hcore => ?_
      subst hcore
      rw [← hinv]
      cases answer with
      | ok u => exact ih _ s'
      | error e =>
        have he : e.isCancelled = false := hspec.of_error.2
        refine (leaves_report _).andThen ?_
        simp only [he]
        exact ih _ s'
    · exact ih r s

/-- A pass through one node does what the cluster's state says. -/
theorem leaves_pruneVia (w : Workload) (nodes : List String) (via : String) (r : Report)
    (s : Situation (Inventory × Cluster)) :
    (pruneVia w nodes via r).Leaves s
      (.goOn (Cluster.prunedVia w s.state.1 nodes via r s.state.2.core).1)
      (Cluster.prunedVia w s.state.1 nodes via r s.state.2.core).2 := by
  obtain ⟨n, hsearch⟩ := ClientSearch.leaves_firstAvailable [via] s
  refine hsearch.bind fun s₁ hinv₁ hcore₁ => ?_
  unfold Cluster.prunedVia
  cases hroute : s.state.2.core.route [via] with
  | error e =>
    have he : e.isCancelled = false := Cluster.route_not_cancelled hroute
    show (if e.isCancelled = true then _ else _ : Program Progress).Leaves s₁ _ _
    rw [if_neg (by simp [he])]
    exact (leaves_report _).bind fun s₂ _ hcore₂ => leaves_pure (hcore₂.trans hcore₁) _
  | ok endpoint =>
    refine (leaves_list _).bind fun s₂ hinv₂ hcore₂ => ?_
    rw [hcore₁] at hcore₂ ⊢
    rcases Cluster.listedAt_cases s.state.2.core endpoint with hlist | ⟨e, hlist, he⟩
    · simp only [hlist]
      refine (leaves_drop _).bind fun s₃ hinv₃ hcore₃ => ?_
      rw [← hcore₂, ← hcore₃, ← hinv₁, ← hinv₂, ← hinv₃]
      exact leaves_pruneListed w nodes _ r s₃
    · simp only [hlist, he]
      refine (leaves_report _).bind fun s₃ _ hcore₃ => ?_
      refine (leaves_drop _).bind fun s₄ _ hcore₄ => ?_
      exact leaves_pure (hcore₄.trans (hcore₃.trans hcore₂)) _

/-- The passes through all nodes do what the cluster's state says. -/
theorem leaves_pruneEach (w : Workload) (nodes vias : List String) (r : Report)
    (s : Situation (Inventory × Cluster)) :
    (pruneEach w nodes vias r).Leaves s
      (Cluster.prunedEach w s.state.1 nodes vias r s.state.2.core).1
      (Cluster.prunedEach w s.state.1 nodes vias r s.state.2.core).2 := by
  induction vias generalizing r s with
  | nil => exact leaves_pure rfl _
  | cons via rest ih =>
    refine (leaves_pruneVia w nodes via r s).bind fun s' hinv hcore => ?_
    rw [Cluster.prunedEach, ← hcore, ← hinv]
    exact ih _ s'

/-- A reconciliation does what `Cluster.reconciled` computes. -/
theorem leaves_reconcile (w : Workload) (nodes : List String)
    (s : Situation (Inventory × Cluster)) :
    (w.reconcile nodes).Leaves s (Cluster.reconciled w s.state.1 nodes s.state.2.core).1
      (Cluster.reconciled w s.state.1 nodes s.state.2.core).2 := by
  unfold reconcile Cluster.reconciled
  split
  · refine (leaves_pruneEach w nodes nodes {} s).bind fun s₁ _ hcore₁ => ?_
    show (if _ then _ else _ : Program Report).Leaves s₁ _ _
    split
    · exact (leaves_report _).bind fun s₂ _ hcore₂ => leaves_pure (hcore₂.trans hcore₁) _
    · exact leaves_pure hcore₁ _
  · exact leaves_pure rfl _

end Workload

end QuorumKeeper
