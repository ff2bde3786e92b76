import QuorumKeeper.Proofs.StaleMembers
import Mathlib.Data.List.Infix

/-!
# What a reconciliation leaves

A fleet may be degraded: some nodes cannot be reached, but at least one can, and whoever can be
reached answers. If no live member shadows a stale one, then the first node that can be reached
leads to the removal of all stale members, in the order of the list, and every later node finds
nothing more to do (`prunedEach_degraded`). What a pass has gone through consists of live members
only, so a stale member is always found under its own name; this is the invariant of the pass
(`pruned_degraded`).
-/

set_option autoImplicit false

namespace QuorumKeeper

open Workload

/-- The member has a name, and the name contains none of the nodes. -/
def Stale (nodes : List String) (m : Member) : Prop :=
  m.name ≠ "" ∧ ∀ node ∈ nodes, ¬ node.toList <:+: m.name.toList

instance (nodes : List String) : DecidablePred (Stale nodes) :=
  fun m => inferInstanceAs (Decidable (m.name ≠ "" ∧ ∀ node ∈ nodes, ¬ _))

theorem isStale_eq_decide (nodes : List String) : isStale nodes = fun m => decide (Stale nodes m) := by
  funext m
  rw [Bool.eq_iff_iff, isStale_iff, decide_eq_true_iff, Stale]
  simp only [← Bool.not_eq_true, Member.isOn_iff]

/-! ## The report of a pass -/

namespace Report

/-- Notes attempts to remove members under several names. -/
def attempts (r : Report) (names : List String) : Report :=
  names.foldl attempt r

/-- Attempts that do not fail add no errors. -/
theorem attempts_errors (r : Report) (names : List String) :
    (r.attempts names).errors = r.errors := by
  induction names generalizing r with
  | nil => rfl
  | cons name rest ih => exact (ih (r.attempt name)).trans (r.attempt_errors name)

/-- One more name is noted exactly if it was not seen before. -/
theorem attempt_removed {r : Report} {seen : List String} (h : r.removed = seen.eraseDups)
    (name : String) : (r.attempt name).removed = (seen ++ [name]).eraseDups := by
  rw [List.eraseDups_append, ← h]
  by_cases hseen : name ∈ seen
  · have hnoted : name ∈ r.removed := by rw [h]; exact List.mem_eraseDups.2 hseen
    rw [attempt, if_pos (List.contains_iff_mem.2 hnoted)]
    simp [List.removeAll, hseen]
  · have hnoted : name ∉ r.removed := by rw [h]; exact fun hin => hseen (List.mem_eraseDups.1 hin)
    rw [attempt, if_neg (fun hin => hnoted (List.contains_iff_mem.1 hin))]
    simp [List.removeAll, hseen, List.eraseDups_cons]

/-- Attempted names are reported where they first occur. -/
theorem attempts_removed {r : Report} {seen : List String} (h : r.removed = seen.eraseDups)
    (names : List String) : (r.attempts names).removed = (seen ++ names).eraseDups := by
  induction names generalizing r seen with
  | nil => rw [List.append_nil]; exact h
  | cons name rest ih =>
    rw [List.append_cons]
    exact ih (attempt_removed h name)

end Report

namespace Cluster

/-! ## One pass -/

variable {w : Workload} {inv : Inventory} {nodes : List String}

/-- The cluster once all stale members are gone. -/
def cleared (nodes : List String) (c : Cluster) : Cluster :=
  { c with
    members := c.members.filter fun m => !isStale nodes m
    removed := c.removed ++ (c.members.filter (isStale nodes)).map Member.id }

/-- The names of the stale members, in the order of the list. -/
def staleNames (nodes : List String) (members : List Member) : List String :=
  (members.filter (isStale nodes)).map Member.name

/-- Where nobody is stale, everybody is live. -/
theorem filter_stale_of_live {members : List Member}
    (h : ∀ m ∈ members, isStale nodes m = false) :
    members.filter (isStale nodes) = [] ∧ members.filter (fun m => !isStale nodes m) = members := by
  constructor
  · exact List.filter_eq_nil_iff.2 fun m hm => by simp [h m hm]
  · exact List.filter_eq_self.2 fun m hm => by simp [h m hm]

/-- Where nobody is stale, there is nobody to clear away. -/
theorem cleared_of_live {c : Cluster} (h : ∀ m ∈ c.members, isStale nodes m = false) :
    c.cleared nodes = c := by
  obtain ⟨hnone, hall⟩ := filter_stale_of_live h
  rw [cleared, hnone, hall, List.map_nil, List.append_nil]

/-- The first stale member may as well be taken out beforehand. -/
theorem cleared_without {kept after : List Member} {m : Member} {c : Cluster}
    (hids : DistinctIds c.members) (hsplit : c.members = kept ++ m :: after)
    (hkept : ∀ a ∈ kept, isStale nodes a = false) (hstale : isStale nodes m = true) :
    (c.without m.id).cleared nodes = c.cleared nodes ∧
      (c.without m.id).members = kept ++ after := by
  have hmembers : (c.without m.id).members = kept ++ after := members_without_of_split hids hsplit
  refine ⟨?_, hmembers⟩
  obtain ⟨hnone, -⟩ := filter_stale_of_live hkept
  have hremoved : (c.without m.id).removed = c.removed ++ [m.id] := rfl
  rw [cleared, cleared, hmembers, hremoved, hsplit]
  simp only [List.filter_append, hnone, List.nil_append, List.filter_cons, hstale, if_true,
    Bool.not_true, Bool.false_eq_true, if_false, List.map_cons, List.append_assoc]
  rfl

/-- A pass over live members does nothing. -/
theorem pruned_of_live {members : List Member} (h : ∀ m ∈ members, isStale nodes m = false)
    (r : Report) (c : Cluster) : pruned w inv nodes members r c = (r, c) := by
  induction members with
  | nil => rfl
  | cons m rest ih =>
    rw [pruned, if_neg (by simp [h m List.mem_cons_self])]
    exact ih fun a ha => h a (List.mem_cons_of_mem m ha)

/-- A pass over a list of which the first part, with live members only, is done: every stale member
of the rest is taken out, each by its own removal. -/
theorem pruned_degraded {endpoint : String} {kept after : List Member} {c : Cluster} (r : Report)
    (hc : c.Responsive) (hw : w.hasAccess = true) (hroute : c.route nodes = .ok endpoint)
    (hpermit : ∀ m, isStale nodes m = true → w.guard.permit inv m.name = .ok nodes)
    (hids : DistinctIds c.members) (hshadow : NoneShadowed nodes c.members)
    (hsplit : c.members = kept ++ after) (hkept : ∀ a ∈ kept, isStale nodes a = false) :
    pruned w inv nodes after r c = (r.attempts (staleNames nodes after), c.cleared nodes) := by
  induction after generalizing kept r c with
  | nil =>
    have hlive : ∀ a ∈ c.members, isStale nodes a = false := by
      rw [hsplit, List.append_nil]
      exact hkept
    rw [cleared_of_live hlive]
    rfl
  | cons m after ih =>
    unfold pruned staleNames
    cases hstale : isStale nodes m with
    | false =>
      rw [if_neg Bool.false_ne_true, List.filter_cons_of_neg (by simp [hstale])]
      have hsplit' : c.members = (kept ++ [m]) ++ after := by rw [hsplit, List.append_cons]
      refine ih r hc hroute hids hshadow hsplit' (List.forall_mem_append.2 ⟨hkept, ?_⟩)
      exact List.forall_mem_singleton.2 hstale
    | true =>
      -- those before `m` are live, so none of them stands under its name
      have hfirst : Member.named? c.members m.name = some m := by
        refine Member.named?_eq_some_iff.2 ⟨m.isOn_name, kept, after, hsplit, fun a ha => ?_⟩
        rw [hsplit] at hshadow
        have hnot := (List.pairwise_append.1 hshadow).2.2 a ha m List.mem_cons_self hstale
        rw [hkept a ha] at hnot
        exact Bool.eq_false_iff.2 fun hon => Bool.false_ne_true (hnot hon)
      have hremoval := hc.removal hw (hpermit m hstale) hroute
      rw [hfirst] at hremoval
      obtain ⟨hcleared, hmembers⟩ := cleared_without hids hsplit hkept hstale
      have hsub : (c.without m.id).members.Sublist c.members := List.filter_sublist
      rw [if_pos rfl, hremoval, List.filter_cons_of_pos hstale, ← hcleared]
      exact ih (r.attempt m.name) (hc.without m.id) hroute (hids.sublist hsub)
        (hshadow.sublist hsub) hmembers hkept

/-! ## All nodes -/

/-- Passes over a cluster of live members do nothing. -/
theorem prunedEach_of_live {c : Cluster} (h : ∀ m ∈ c.members, isStale nodes m = false)
    (vias : List String) (r : Report) : prunedEach w inv nodes vias r c = (r, c) := by
  induction vias with
  | nil => rfl
  | cons via rest ih =>
    have hvia : prunedVia w inv nodes via r c = (r, c) := by
      rcases prunedVia_cases w inv nodes via r c with hvia | hvia
      · exact hvia
      · exact hvia.trans (pruned_of_live h r c)
    rw [prunedEach, hvia]
    exact ih

/-- A search leads somewhere if any candidate accepts connections. -/
theorem route_of_accepts {c : Cluster} {vias : List String} (h : ∃ via ∈ vias, c.accepts via = true) :
    ∃ node ∈ vias, c.route vias = .ok (etcdEndpoint node) := by
  obtain ⟨via, hvia, haccepts⟩ := h
  cases hfind : vias.find? c.accepts with
  | none => exact absurd haccepts (List.find?_eq_none.1 hfind via hvia)
  | some node =>
    refine ⟨node, List.mem_of_find?_eq_some hfind, ?_⟩
    have hsome : vias.isEmpty = false := by simpa using List.ne_nil_of_mem hvia
    simp only [route, hsome, hfind, Bool.false_eq_true, if_false]

/-- Some node can be reached: the first such node leads to all stale members, and there is nothing
left to do through the others. -/
theorem prunedEach_degraded {c : Cluster} (r : Report) (hc : c.Responsive)
    (hw : w.hasAccess = true)
    (hpermit : ∀ m, isStale nodes m = true → w.guard.permit inv m.name = .ok nodes)
    (hids : DistinctIds c.members) (hshadow : NoneShadowed nodes c.members)
    (hup : ∃ node ∈ nodes, c.accepts node = true) {vias : List String}
    (hvias : ∃ via ∈ vias, c.accepts via = true) :
    prunedEach w inv nodes vias r c =
      (r.attempts (staleNames nodes c.members), c.cleared nodes) := by
  induction vias with
  | nil => simp at hvias
  | cons via rest ih =>
    rw [prunedEach]
    cases haccepts : c.accepts via with
    | true =>
      obtain ⟨node, -, hroute⟩ := route_of_accepts hup
      obtain ⟨only, honly, hvia⟩ :=
        route_of_accepts ⟨via, List.mem_singleton_self via, haccepts⟩
      have hpass : prunedVia w inv nodes via r c =
          (r.attempts (staleNames nodes c.members), c.cleared nodes) := by
        simp only [prunedVia, hvia, hc.listedAt]
        exact pruned_degraded r hc hw hroute hpermit hids hshadow (List.nil_append _).symm (by simp)
      rw [hpass]
      refine prunedEach_of_live (fun m hm => ?_) rest _
      simpa using (List.mem_filter.1 hm).2
    | false =>
      have hdown : prunedVia w inv nodes via r c = (r, c) := by
        simp [prunedVia, route, haccepts]
      rw [hdown]
      obtain ⟨other, hother, hreaches⟩ := hvias
      rcases List.mem_cons.1 hother with rfl | hrest
      · rw [haccepts] at hreaches
        cases hreaches
      · exact ih ⟨other, hrest, hreaches⟩

end Cluster

/-- The guard lets every stale member go if there are enough nodes, since its name contains none of
them. -/
theorem QuorumGuard.permit_stale {guard : QuorumGuard} {inv : Inventory} {nodes : List String}
    (hread : inv.read = .ok nodes) (hmin : guard.minimum ≤ nodes.length) {m : Member}
    (hstale : isStale nodes m = true) : guard.permit inv m.name = .ok nodes := by
  have hall : nodesWithout nodes m.name = nodes := by
    refine List.filter_eq_self.2 fun node hnode => ?_
    have hforeign : Text.occurs node m.name = false := (isStale_iff.1 hstale).2 node hnode
    simp [hforeign]
  rw [permit, hread]
  exact remaining_eq_ok_iff.2 ⟨by rw [hall]; exact hmin, hall.symm⟩

/-- With a guard that lets them go and a node that can be reached, a reconciliation takes out the
stale members, and notes their names. -/
theorem Cluster.reconciled_degraded {w : Workload} {inv : Inventory} {nodes : List String}
    {c : Cluster} (hc : c.Responsive) (hw : w.hasAccess = true) (hread : inv.read = .ok nodes)
    (hmin : w.guard.minimum ≤ nodes.length) (hup : ∃ node ∈ nodes, c.accepts node = true)
    (hids : DistinctIds c.members) (hshadow : NoneShadowed nodes c.members) :
    reconciled w inv nodes c =
      (Report.attempts {} (staleNames nodes c.members), c.cleared nodes) := by
  rw [reconciled, if_pos hw]
  exact prunedEach_degraded {} hc hw (fun _ => QuorumGuard.permit_stale hread hmin) hids hshadow
    hup hup

/-- What the first of two reconciliations in a row leaves and reports, and that the second one finds
nothing to do. The live members are left in their order; the stale ones were taken out in theirs,
once each, and the report has their names, each where it first occurs. -/
structure RestoresLive (nodes : List String) (s : Situation (Inventory × Cluster))
    (first second : Outcome (Inventory × Cluster) Report) : Prop where
  members : first.after.state.2.members = s.state.2.members.filter fun m => ¬ Stale nodes m
  removed : first.after.state.2.removed =
    s.state.2.removed ++ (s.state.2.members.filter fun m => Stale nodes m).map Member.id
  names : first.value.removed =
    ((s.state.2.members.filter fun m => Stale nodes m).map Member.name).eraseDups
  clean : first.value.errors = []
  leader : first.after.state.2.leader = s.state.2.leader
  moved : first.after.state.2.moved = s.state.2.moved
  again_report : second.value = {}
  again_members : second.after.state.2.members = first.after.state.2.members
  again_removed : second.after.state.2.removed = first.after.state.2.removed

/-- On a fleet of which some node can be reached, and with enough nodes for the guard, a
reconciliation over the nodes of the inventory computes the live membership, if no call but the
dials can fail and the name of no live member contains that of a stale one. -/
theorem reconciliation_restores_live (w : Workload) (nodes : List String)
    (s : Situation (Inventory × Cluster)) (hw : w.hasAccess = true)
    (hids : DistinctIds s.state.2.members)
    (hlists : s.state.2.failingList = []) (hremoves : s.state.2.failingRemove = [])
    (hread : s.state.1.read = .ok nodes) (hmin : w.guard.minimum ≤ nodes.length)
    (hup : ∃ node ∈ nodes, etcdEndpoint node ∉ s.state.2.unreachable)
    (hapart : ∀ live ∈ s.state.2.members, ¬ Stale nodes live → ∀ gone ∈ s.state.2.members,
      Stale nodes gone → ¬ gone.name.toList <:+: live.name.toList) :
    RestoresLive nodes s ((w.reconcile nodes).run Cluster.world s)
      ((w.reconcile nodes).run Cluster.world
        ((w.reconcile nodes).run Cluster.world s).after) := by
  have hdecide := isStale_eq_decide nodes
  have hresponsive : s.state.2.core.Responsive := ⟨hlists, hremoves⟩
  have hup' : ∃ node ∈ nodes, s.state.2.core.accepts node = true := by
    simpa [Cluster.accepts] using hup
  have hshadow : NoneShadowed nodes s.state.2.core.members := by
    refine List.pairwise_of_forall_mem_list fun live hl gone hg hstale hon => ?_
    rw [hdecide] at hstale ⊢
    by_contra hlive
    exact hapart live hl (by simpa using hlive) gone hg (by simpa using hstale)
      ((live.isOn_iff gone.name).1 hon)
  have h₁ := w.leaves_reconcile nodes s
  rw [Cluster.reconciled_degraded hresponsive hw hread hmin hup' hids hshadow] at h₁
  have hvalue := h₁.value
  have hcore := h₁.core
  have h₂ := w.leaves_reconcile nodes ((w.reconcile nodes).run Cluster.world s).after
  have hlive : ∀ m ∈ (s.state.2.core.cleared nodes).members, isStale nodes m = false := by
    intro m hm
    simpa using (List.mem_filter.1 hm).2
  rw [h₁.inventory, hcore, Cluster.reconciled, if_pos hw, Cluster.prunedEach_of_live hlive] at h₂
  have hsame := h₂.core.trans hcore.symm
  have hnames : Cluster.staleNames nodes s.state.2.core.members =
      (s.state.2.members.filter fun m => Stale nodes m).map Member.name := by
    rw [Cluster.staleNames, hdecide]
    rfl
  refine
    { members := ?_
      removed := ?_
      names := ?_
      clean := ?_
      leader := (congrArg Cluster.leader hcore :)
      moved := (congrArg Cluster.moved hcore :)
      again_report := h₂.value
      again_members := (congrArg Cluster.members hsame :)
      again_removed := (congrArg Cluster.removed hsame :) }
  · rw [← Cluster.core_members, hcore, Cluster.cleared, hdecide]
    simp
  · rw [← Cluster.core_removed, hcore, Cluster.cleared, hdecide]
    rfl
  · rw [hvalue, ← hnames]
    have hnone : ({} : Report).removed = ([] : List String).eraseDups := rfl
    exact Report.attempts_removed hnone _
  · rw [hvalue]
    exact Report.attempts_errors {} _

/-- Two of four nodes cannot be reached. The members on two departed nodes stand among the live
ones; the name of one of them is part of the name of the other, and one name stands twice. -/
def degraded : Situation (Inventory × Cluster) where
  state := (⟨["cp-2", "cp-3", "cp-4", "cp-5"], none⟩, {
    members := [
      { id := 10, name := "etcd-cp-10" },
      { id := 2, name := "etcd-cp-2" },
      { id := 1, name := "etcd-cp-1" },
      { id := 7, name := "" },
      { id := 11, name := "etcd-cp-1" },
      { id := 3, name := "etcd-cp-3" }]
    leader := 2
    unreachable := ["etcd-cp-2", "etcd-cp-4"] })

/-- One node is out of reach, two members are stale, and one has not joined. -/
theorem degraded_restored :
    RestoresLive ["cp-2", "cp-3", "cp-4", "cp-5"] degraded
      (((⟨true, ⟨3⟩⟩ : Workload).reconcile ["cp-2", "cp-3", "cp-4", "cp-5"]).run Cluster.world
        degraded)
      (((⟨true, ⟨3⟩⟩ : Workload).reconcile ["cp-2", "cp-3", "cp-4", "cp-5"]).run Cluster.world
        (((⟨true, ⟨3⟩⟩ : Workload).reconcile ["cp-2", "cp-3", "cp-4", "cp-5"]).run Cluster.world
          degraded).after) :=
  reconciliation_restores_live ⟨true, ⟨3⟩⟩ ["cp-2", "cp-3", "cp-4", "cp-5"] degraded rfl
    (by decide) rfl rfl rfl (by decide) (by decide) (by decide)

end QuorumKeeper
