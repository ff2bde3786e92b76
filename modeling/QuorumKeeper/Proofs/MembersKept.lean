import QuorumKeeper.Proofs.ClusterTraces
import QuorumKeeper.Proofs.MemberLists
import QuorumKeeper.Proofs.Reconciliations
import Mathlib.Data.List.Perm.Subperm

/-!
# Which members a cluster keeps

The guard counts the nodes of the inventory, not the members, and it looks at one removal at a
time. It therefore bounds no run as a whole: a member is `exposed` as soon as the guard lets a
removal under some name in its own name go ahead, and a sequence of removals can take out every
exposed member (`sweep_clears`). The others are kept at every point of every run
(`unexposed_length_le`). So the runs with given targets never go below a number of members exactly
if that many of them are not exposed to the targets.
-/

set_option autoImplicit false

namespace QuorumKeeper

open Workload Program

/-- The names under which an operation may ask for a removal in a cluster with these members, or
with some of them. -/
def Operation.targets (members : List Member) : Operation → List String
  | .reconcile nodes => (members.filter (isStale nodes)).map Member.name
  | .remove name => [name]
  | .removeForMachine machine => (nodeOf machine).toList
  | .forward _ _ => []
  | .memberNames => []

/-- The guard lets a removal under one of the names go ahead, and the member stands under it. -/
def exposed (w : Workload) (inv : Inventory) (targets : List String) (m : Member) : Bool :=
  w.hasAccess && targets.any fun t => m.isOn t && (w.guard.permit inv t).isOk

variable {w : Workload} {inv : Inventory}

/-- A member is exposed to a target in its name that the guard permits. -/
theorem exposed_iff {targets : List String} {m : Member} :
    exposed w inv targets m = true ↔ w.hasAccess = true ∧
      ∃ t ∈ targets, m.isOn t = true ∧ ∃ left, w.guard.permit inv t = .ok left := by
  have hok (result : Except OperationError (List String)) :
      result.isOk = true ↔ ∃ left, result = .ok left := by
    cases result with
    | error e => simp [Except.isOk, Except.toBool]
    | ok left => simp [Except.isOk, Except.toBool]
  simp only [exposed, Bool.and_eq_true, List.any_eq_true, hok]

/-- More targets expose no fewer members. -/
theorem exposed_mono {targets targets' : List String} (h : targets ⊆ targets') {m : Member}
    (hm : exposed w inv targets m = true) : exposed w inv targets' m = true := by
  rw [exposed_iff] at hm ⊢
  obtain ⟨hw, t, ht, hon, hleft⟩ := hm
  exact ⟨hw, t, h ht, hon, hleft⟩

/-- More members give an operation no fewer targets. -/
theorem Operation.targets_mono {part members : List Member} (h : part ⊆ members) (op : Operation) :
    op.targets part ⊆ op.targets members := by
  cases op with
  | reconcile nodes =>
    intro name hname
    obtain ⟨m, hm, rfl⟩ := List.mem_map.1 hname
    obtain ⟨hmem, hstale⟩ := List.mem_filter.1 hm
    exact List.mem_map_of_mem (List.mem_filter.2 ⟨h hmem, hstale⟩)
  | remove name => exact List.Subset.refl _
  | removeForMachine machine => exact List.Subset.refl _
  | forward machine candidate => exact List.Subset.refl _
  | memberNames => exact List.Subset.refl _

/-! ## Runs without removals -/

namespace Cluster

/-- Without a removal all members stay. -/
theorem members_of_no_removals {α : Type} (p : Program α) (s : Situation (Inventory × Cluster))
    (h : Trace.removals (p.run world s).trace = 0) :
    (p.run world s).after.state.2.members = s.state.2.members := by
  have hreplay := replays_run (fun inv : Inventory => (inv.read, inv)) p s
  exact hreplay.members_eq h

/-! ## What removals and reconciliations keep -/

/-- Between the two clusters members may have been taken out, but only exposed ones. -/
structure Keeps (w : Workload) (inv : Inventory) (targets : List String) (c c' : Cluster) :
    Prop where
  members : c'.members.Sublist c.members
  kept : ∀ m ∈ c.members, exposed w inv targets m = false → m ∈ c'.members

namespace Keeps

variable {targets : List String} {c c' c'' : Cluster}

theorem refl (c : Cluster) : Keeps w inv targets c c :=
  ⟨List.Sublist.refl _, fun _ hm _ => hm⟩

/-- Nothing is lost where the members stay. -/
theorem of_members_eq (h : c'.members = c.members) : Keeps w inv targets c c' := by
  refine ⟨?_, fun m hm _ => ?_⟩
  · rw [h]
  · rw [h]
    exact hm

/-- What two steps keep, both together keep. -/
theorem trans (h : Keeps w inv targets c c') (h' : Keeps w inv targets c' c'') :
    Keeps w inv targets c c'' :=
  ⟨h'.members.trans h.members, fun m hm hsafe => h'.kept m (h.kept m hm hsafe) hsafe⟩

/-- What is kept under some targets is kept under more. -/
theorem mono {part : List String} (h : Keeps w inv part c c') (hpart : part ⊆ targets) :
    Keeps w inv targets c c' := by
  refine ⟨h.members, fun m hm hsafe => h.kept m hm ?_⟩
  rw [Bool.eq_false_iff] at hsafe ⊢
  exact fun hm' => hsafe (exposed_mono hpart hm')

end Keeps

/-- A removal keeps whoever is not exposed to its name. -/
theorem removal_keeps (w : Workload) (inv : Inventory) (name : String) {c : Cluster}
    (hids : DistinctIds c.members) : Keeps w inv [name] c (removal w inv name c).2 := by
  rcases removal_state w inv name c with hsame | ⟨left, x, hw, hleft, hx, htaken⟩
  · rw [hsame]
    exact .refl c
  · rw [htaken]
    refine ⟨List.filter_sublist, fun m hm hsafe => List.mem_filter.2 ⟨hm, ?_⟩⟩
    rw [bne_iff_ne]
    intro hid
    -- the member that is gone is the one that was found, and the guard had permitted it
    obtain rfl : m = x := hids.eq_of_id hm (List.mem_of_find?_eq_some hx) hid
    have hon : m.isOn name = true := (Member.named?_eq_some_iff.1 hx).1
    rw [exposed_iff.2 ⟨hw, name, List.mem_singleton_self name, hon, left, hleft⟩] at hsafe
    cases hsafe

/-- A pass keeps whoever is not exposed to the stale names. -/
theorem pruned_keeps (w : Workload) (inv : Inventory) {nodes targets : List String}
    {listed : List Member} (r : Report) {c : Cluster} (hids : DistinctIds c.members)
    (hlisted : ∀ m ∈ listed, isStale nodes m = true → m.name ∈ targets) :
    Keeps w inv targets c (pruned w inv nodes listed r c).2 := by
  induction listed generalizing r c with
  | nil => exact .refl c
  | cons m rest ih =>
    have hrest : ∀ a ∈ rest, isStale nodes a = true → a.name ∈ targets :=
      fun a ha => hlisted a (List.mem_cons_of_mem m ha)
    unfold pruned
    by_cases hstale : isStale nodes m = true
    · rw [if_pos hstale]
      have hname : [m.name] ⊆ targets :=
        List.cons_subset.2 ⟨hlisted m List.mem_cons_self hstale, List.nil_subset targets⟩
      have hfirst := (removal_keeps w inv m.name hids).mono hname
      exact hfirst.trans (ih _ (hids.sublist hfirst.members) hrest)
    · rw [if_neg hstale]
      exact ih r hids hrest

/-- Passes keep whoever is not exposed to the stale names. -/
theorem prunedEach_keeps (w : Workload) (inv : Inventory) {nodes targets : List String}
    (vias : List String) (r : Report) {c : Cluster} (hids : DistinctIds c.members)
    (hlisted : ∀ m ∈ c.members, isStale nodes m = true → m.name ∈ targets) :
    Keeps w inv targets c (prunedEach w inv nodes vias r c).2 := by
  induction vias generalizing r c with
  | nil => exact .refl c
  | cons via rest ih =>
    have hfirst : Keeps w inv targets c (prunedVia w inv nodes via r c).2 := by
      rcases prunedVia_cases w inv nodes via r c with hvia | hvia
      · rw [hvia]
        exact .refl c
      · rw [hvia]
        exact pruned_keeps w inv r hids hlisted
    have hlisted' : ∀ m ∈ (prunedVia w inv nodes via r c).2.members,
        isStale nodes m = true → m.name ∈ targets :=
      fun m hm => hlisted m (hfirst.members.subset hm)
    exact hfirst.trans (ih _ (hids.sublist hfirst.members) hlisted')

/-- A reconciliation keeps whoever is not exposed to its targets. -/
theorem reconciled_keeps (w : Workload) (inv : Inventory) (nodes : List String) {c : Cluster}
    (hids : DistinctIds c.members) :
    Keeps w inv ((Operation.reconcile nodes).targets c.members) c
      (reconciled w inv nodes c).2 := by
  unfold reconciled
  split
  · refine prunedEach_keeps w inv nodes {} hids fun m hm hstale => ?_
    exact List.mem_map_of_mem (List.mem_filter.2 ⟨hm, hstale⟩)
  · exact .refl c

end Cluster

open Cluster

/-! ## What a run keeps -/

namespace Workload

variable {s : Situation (Inventory × Cluster)}

/-- Taking out the member of a name keeps whoever is not exposed to it. -/
theorem removeMember_keeps (w : Workload) (name : String) (hids : DistinctIds s.state.2.members) :
    Keeps w s.state.1 [name] s.state.2 ((w.removeMember name).run world s).after.state.2 := by
  have hkeeps := removal_keeps w s.state.1 name (c := s.state.2.core) hids
  rw [← (leaves_removeMember w name).core] at hkeeps
  exact ⟨hkeeps.members, hkeeps.kept⟩

/-- An operation takes out exposed members only. -/
theorem perform_keeps (w : Workload) (op : Operation) (hids : DistinctIds s.state.2.members) :
    Keeps w s.state.1 (op.targets s.state.2.members) s.state.2
      ((w.perform op).run world s).after.state.2 := by
  cases op with
  | reconcile nodes =>
    have hkeeps := reconciled_keeps w s.state.1 nodes (c := s.state.2.core) hids
    rw [← (w.leaves_reconcile nodes s).core] at hkeeps
    rw [perform, run_bind]
    exact ⟨hkeeps.members, hkeeps.kept⟩
  | remove name =>
    rw [perform, run_bind]
    exact removeMember_keeps w name hids
  | removeForMachine machine =>
    rw [perform, run_bind, Operation.targets, removeForMachine]
    cases nodeOf machine with
    | none => exact .refl s.state.2
    | some node => exact removeMember_keeps w node hids
  | forward machine candidate =>
    have hcareful := (w.forwardLeadership_isCareful machine candidate).run world s
    rw [perform, run_bind]
    exact .of_members_eq (members_of_no_removals _ s hcareful.removals_eq_zero)
  | memberNames =>
    have hcareful := w.memberNames_isCareful.run world s
    rw [perform, run_bind]
    exact .of_members_eq (members_of_no_removals _ s hcareful.removals_eq_zero)

/-- A sequence of operations takes out members only that are exposed to one of its targets. -/
theorem performAll_keeps (w : Workload) {targets : List String} {ops : List Operation}
    (hids : DistinctIds s.state.2.members)
    (hops : ∀ op ∈ ops, op.targets s.state.2.members ⊆ targets) :
    Keeps w s.state.1 targets s.state.2 ((w.performAll ops).run world s).after.state.2 := by
  induction ops generalizing s with
  | nil => exact .refl s.state.2
  | cons op rest ih =>
    have hfirst := (w.perform_keeps op hids).mono (hops op List.mem_cons_self)
    have hnarrow := world_narrows.run (w.perform op) s
    have hops' : ∀ op' ∈ rest,
        op'.targets ((w.perform op).run world s).after.state.2.members ⊆ targets := by
      intro op' hop'
      exact List.Subset.trans (op'.targets_mono hnarrow.members.subset)
        (hops op' (List.mem_cons_of_mem op hop'))
    have hrest := ih (hids.sublist hnarrow.members) hops'
    rw [hnarrow.inventory] at hrest
    rw [performAll, run_bind]
    exact hfirst.trans hrest

end Workload

/-- The members that are not exposed to any of the targets. -/
def unexposed (w : Workload) (inv : Inventory) (targets : List String) (members : List Member) :
    List Member :=
  members.filter fun m => !exposed w inv targets m

/-- The members that no target can reach. -/
theorem mem_unexposed {targets : List String} {members : List Member} {m : Member} :
    m ∈ unexposed w inv targets members ↔ m ∈ members ∧ exposed w inv targets m = false := by
  simp only [unexposed, List.mem_filter, Bool.not_eq_true']

/-- At every point of a run, the unexposed members are still there. -/
theorem unexposed_length_le {s x : Situation (Inventory × Cluster)} {targets : List String}
    {ops : List Operation} (hids : DistinctIds s.state.2.members)
    (hops : ∀ op ∈ ops, op.targets s.state.2.members ⊆ targets)
    (hx : x ∈ (w.performAll ops).visited world s) :
    (unexposed w s.state.1 targets s.state.2.members).length ≤ x.state.2.members.length := by
  have hkeeps := w.performAll_keeps hids hops
  obtain ⟨-, hend⟩ := world_narrows.between (w.performAll ops) hx
  have hsub : unexposed w s.state.1 targets s.state.2.members ⊆ x.state.2.members := by
    intro m hm
    obtain ⟨hmem, hsafe⟩ := mem_unexposed.1 hm
    exact hend.members.subset (hkeeps.kept m hmem hsafe)
  have hnodup : (unexposed w s.state.1 targets s.state.2.members).Nodup :=
    (List.Nodup.of_map Member.id hids).filter _
  exact (List.subperm_of_subset hnodup hsub).length_le

/-! ## A run that takes out all exposed members -/

namespace Workload

variable {s : Situation (Inventory × Cluster)}

/-- Where nothing is in its way, a removal takes out one of the members with the name in theirs. -/
theorem removal_reduces {c : Cluster} {name node : String} {left : List String} {n : Nat}
    (hc : c.Unhindered) (hw : w.hasAccess = true)
    (hleft : w.guard.permit inv name = .ok (node :: left))
    (hcount : (c.members.filter (·.isOn name)).length ≤ n + 1) :
    ((removal w inv name c).2.members.filter (·.isOn name)).length ≤ n := by
  rw [hc.removal hw hleft]
  cases hm : Member.named? c.members name with
  | none =>
    simp only [Member.named?_eq_none_iff_filter.1 hm]
    exact Nat.zero_le n
  | some m =>
    have hmem : m ∈ c.members.filter (·.isOn name) :=
      List.mem_filter.2 ⟨List.mem_of_find?_eq_some hm, (Member.named?_eq_some_iff.1 hm).1⟩
    have hless : ((c.members.filter (·.isOn name)).filter (·.id != m.id)).length <
        (c.members.filter (·.isOn name)).length :=
      List.length_filter_lt_length_iff_exists.2 ⟨m, hmem, by simp⟩
    rw [List.filter_comm] at hless
    show ((c.members.filter (·.id != m.id)).filter (·.isOn name)).length ≤ n
    omega

/-- Removing under one name as often as there are members under it takes out all of them. -/
theorem removals_clear {name node : String} {left : List String} (hw : w.hasAccess = true) (n : Nat)
    (hc : s.state.2.Unhindered) (hleft : w.guard.permit s.state.1 name = .ok (node :: left))
    (hcount : (s.state.2.members.filter (·.isOn name)).length ≤ n) :
    ∀ m ∈ ((w.performAll (List.replicate n (.remove name))).run world s).after.state.2.members,
      m.isOn name = false := by
  induction n generalizing s with
  | zero =>
    have hnone := List.eq_nil_of_length_eq_zero (Nat.le_zero.1 hcount)
    intro m hm
    exact Bool.eq_false_iff.2 (List.filter_eq_nil_iff.1 hnone m hm)
  | succ n ih =>
    rw [List.replicate_succ, performAll, run_bind]
    have hnarrow := world_narrows.run (w.perform (.remove name)) s
    have hc' := hc.of_narrows hnarrow
    have hcore : ((w.perform (.remove name)).run world s).after.state.2.core =
        (removal w s.state.1 name s.state.2.core).2 := by
      rw [perform, run_bind]
      exact (leaves_removeMember w name).core
    have hreduced := removal_reduces hc.core hw hleft hcount
    rw [← hcore] at hreduced
    rw [← hnarrow.inventory] at hleft
    exact ih hc' hleft hreduced

/-- Operations leave behind what the last of them leaves. -/
theorem performAll_append_after (w : Workload) (ops ops' : List Operation)
    (s : Situation (Inventory × Cluster)) :
    ((w.performAll (ops ++ ops')).run world s).after =
      ((w.performAll ops').run world ((w.performAll ops).run world s).after).after := by
  induction ops generalizing s with
  | nil => rfl
  | cons op rest ih =>
    rw [List.cons_append, performAll, performAll, run_bind, run_bind]
    exact ih _

/-- Removals under each of the names in turn, so many times each. -/
def sweep (n : Nat) (names : List String) : List Operation :=
  names.flatMap fun name => List.replicate n (.remove name)

/-- A sweep has no other targets than its names. -/
theorem targets_of_mem_sweep {n : Nat} {names : List String} {op : Operation}
    (hop : op ∈ sweep n names) (members : List Member) : op.targets members ⊆ names := by
  obtain ⟨name, hname, hop⟩ := List.mem_flatMap.1 hop
  obtain rfl := (List.mem_replicate.1 hop).2
  simpa [Operation.targets] using hname

/-- Without faults, a sweep leaves no member that is exposed to one of the names. -/
theorem sweep_clears {n : Nat} (hmin : 1 ≤ w.guard.minimum) (names : List String)
    (hc : s.state.2.Unhindered) (hn : s.state.2.members.length ≤ n) :
    ∀ m ∈ ((w.performAll (sweep n names)).run world s).after.state.2.members,
      exposed w s.state.1 names m = false := by
  induction names generalizing s with
  | nil =>
    intro m _
    simp [exposed]
  | cons name rest ih =>
    have hnarrow := world_narrows.run (w.performAll (List.replicate n (.remove name))) s
    intro m hm
    rw [sweep, List.flatMap_cons, performAll_append_after] at hm
    have hrest := ih (hc.of_narrows hnarrow) (hnarrow.members.length_le.trans hn) m hm
    rw [hnarrow.inventory] at hrest
    have hbetween := world_narrows.run (w.performAll (sweep n rest))
      ((w.performAll (List.replicate n (.remove name))).run world s).after
    rw [Bool.eq_false_iff]
    intro hexposed
    obtain ⟨hw, t, ht, hon, left, hleft⟩ := exposed_iff.1 hexposed
    rcases List.mem_cons.1 ht with rfl | ht
    · -- whoever stood under the first name was taken out by the first round of removals
      obtain ⟨node, left, rfl⟩ := QuorumGuard.permit_nonempty hmin hleft
      have hcount : (s.state.2.members.filter (·.isOn t)).length ≤ n :=
        (List.length_filter_le _ _).trans hn
      rw [removals_clear hw n hc hleft hcount m (hbetween.members.subset hm)] at hon
      cases hon
    · rw [exposed_iff.2 ⟨hw, t, ht, hon, left, hleft⟩] at hrest
      cases hrest

end Workload

/-- Whatever the operations and the faults are, runs with these targets keep as many members as the
guard demands at every point, exactly if that many of the members are not exposed to the targets. -/
theorem members_kept_iff (w : Workload) (inv : Inventory) (members : List Member)
    (targets : List String) (hids : DistinctIds members) (hmin : 1 ≤ w.guard.minimum) :
    (∀ (s : Situation (Inventory × Cluster)) (ops : List Operation), s.state.1 = inv →
        s.state.2.members = members → (∀ op ∈ ops, op.targets members ⊆ targets) →
        ∀ x ∈ (w.performAll ops).visited Cluster.world s,
          w.guard.minimum ≤ x.state.2.members.length) ↔
      w.guard.minimum ≤ (unexposed w inv targets members).length := by
  constructor
  · -- a sweep of a cluster without faults leaves the unexposed members only
    intro h
    let s : Situation (Inventory × Cluster) := ⟨0, (inv, { members })⟩
    let ops := sweep members.length targets
    have hend := h s ops rfl rfl (fun op hop => targets_of_mem_sweep hop members) _
      (after_mem_visited Cluster.world (w.performAll ops) s)
    have hnarrow := world_narrows.run (w.performAll ops) s
    have hsafe : ∀ m ∈ ((w.performAll ops).run Cluster.world s).after.state.2.members,
        exposed w inv targets m = false :=
      sweep_clears (s := s) hmin targets ⟨rfl, rfl, rfl⟩ (Nat.le_refl _)
    refine hend.trans (List.Sublist.length_le ?_)
    have hall : ((w.performAll ops).run Cluster.world s).after.state.2.members.filter
        (fun m => !exposed w inv targets m) =
        ((w.performAll ops).run Cluster.world s).after.state.2.members :=
      List.filter_eq_self.2 fun m hm => by simp [hsafe m hm]
    rw [← hall]
    exact hnarrow.members.filter _
  · -- and every other run keeps them
    rintro h s ops rfl rfl hops x hx
    exact h.trans (unexposed_length_le hids hops hx)

/-- A cluster of three members on three nodes. -/
def threeNodes : Situation (Inventory × Cluster) where
  state := (⟨["cp-1", "cp-2", "cp-3"], none⟩, {
    members := [
      { id := 1, name := "etcd-cp-1" },
      { id := 2, name := "etcd-cp-2" },
      { id := 3, name := "etcd-cp-3" }]
    leader := 3 })

/-- Removals under one name alone leave two of three members. -/
theorem two_members_kept_under_one_target :
    2 ≤ ((Workload.performAll ⟨true, ⟨2⟩⟩ [.remove "cp-1", .memberNames, .remove "cp-1"]).run
      Cluster.world threeNodes).after.state.2.members.length :=
  (members_kept_iff ⟨true, ⟨2⟩⟩ threeNodes.state.1 threeNodes.state.2.members ["cp-1"]
    (by decide) (by decide)).2 (by decide) threeNodes _ rfl rfl (by decide) _
    (after_mem_visited _ _ _)

/-- The guard sees the same three nodes at both removals, and one member is left. -/
theorem members_not_always_kept :
    ¬ ∀ (w : Workload) (s : Situation (Inventory × Cluster)) (ops : List Operation),
      w.hasAccess = true → 1 ≤ w.guard.minimum → w.guard.minimum ≤ s.state.2.members.length →
      DistinctIds s.state.2.members → ∀ x ∈ (w.performAll ops).visited Cluster.world s,
        w.guard.minimum ≤ x.state.2.members.length := by
  intro h
  have hkept := h ⟨true, ⟨2⟩⟩ threeNodes [.remove "cp-1", .remove "cp-2"] rfl (by decide)
    (by decide) (by decide) _ (after_mem_visited _ _ _)
  have hone : (2 : Nat) ≤ 1 := hkept
  omega

end QuorumKeeper
