import QuorumKeeper.Proofs.MemberLists
import QuorumKeeper.Proofs.Reconciliations

/-!
# Whom a reconciliation takes out

A reconciliation finds a stale member in a list, and then asks for a removal by its name. The
removal takes the first member whose name contains that of the stale one, and this need not be the
stale one: a member of a live node is taken instead if it stands before the stale member and its
name contains the other's (`NoneShadowed` excludes this). Where ids are distinct, a live member is
lost in this way only. `Prunes` is what every step of a reconciliation preserves if none is
shadowed, and `reconciled_unhindered` finds the live member that is lost if one is.
-/

set_option autoImplicit false

namespace QuorumKeeper

open Workload

/-- A member is stale if it has joined and is on none of the nodes. -/
theorem Workload.isStale_iff {nodes : List String} {m : Member} :
    isStale nodes m = true ↔ m.name ≠ "" ∧ ∀ node ∈ nodes, m.isOn node = false := by
  simp [isStale, Member.isStarted]

/-- No live member stands before a stale one whose name its own name contains. -/
def NoneShadowed (nodes : List String) (members : List Member) : Prop :=
  members.Pairwise fun a b =>
    isStale nodes b = true → a.isOn b.name = true → isStale nodes a = true

instance (nodes : List String) (members : List Member) :
    Decidable (NoneShadowed nodes members) :=
  inferInstanceAs (Decidable (List.Pairwise _ members))

namespace NoneShadowed

variable {nodes : List String}

/-- A stale member that is not shadowed itself may stand anywhere. -/
theorem insert_stale {before after : List Member} {m : Member}
    (h : NoneShadowed nodes (before ++ after)) (hstale : isStale nodes m = true)
    (hnone : ∀ x ∈ before, x.isOn m.name = false) : NoneShadowed nodes (before ++ m :: after) := by
  obtain ⟨hb, ha, hba⟩ := List.pairwise_append.1 h
  refine List.pairwise_append.2 ⟨hb, List.pairwise_cons.2 ⟨fun _ _ _ _ => hstale, ha⟩, ?_⟩
  intro x hx y hy
  rcases List.mem_cons.1 hy with rfl | hy
  · intro _ hon
    rw [hnone x hx] at hon
    cases hon
  · exact hba x hx y hy

end NoneShadowed

namespace Cluster

variable {nodes : List String}

/-- Where ids are distinct, taking out a member joins the parts of the list around it. -/
theorem members_without_of_split {c : Cluster} {m : Member} {before after : List Member}
    (hids : DistinctIds c.members) (hsplit : c.members = before ++ m :: after) :
    (c.without m.id).members = before ++ after := by
  show c.members.filter (·.id != m.id) = before ++ after
  rw [hsplit] at hids ⊢
  exact hids.filter_id_ne_of_split

/-! ## What a reconciliation takes out, if none is shadowed -/

/-- Between the two states some members were taken out. All of them were stale, and the report
has their names. -/
structure Prunes (nodes : List String) (r r' : Report) (c c' : Cluster) : Prop where
  members : c'.members.Sublist c.members
  report : r.removed ⊆ r'.removed
  removed : ∃ added, c'.removed = c.removed ++ added ∧ ∀ id ∈ added, ∃ m ∈ c.members,
    m.id = id ∧ isStale nodes m = true ∧ m.name ∈ r'.removed

namespace Prunes

variable {r r' r'' : Report} {c c' c'' : Cluster}

theorem of_report (h : r.removed ⊆ r'.removed) : Prunes nodes r r' c c where
  members := List.Sublist.refl _
  report := h
  removed := ⟨[], (List.append_nil _).symm, by simp⟩

theorem refl (r : Report) (c : Cluster) : Prunes nodes r r c c :=
  of_report (List.Subset.refl _)

/-- Two stretches of pruning make one. -/
theorem trans (h : Prunes nodes r r' c c') (h' : Prunes nodes r' r'' c' c'') :
    Prunes nodes r r'' c c'' := by
  refine ⟨h'.members.trans h.members, List.Subset.trans h.report h'.report, ?_⟩
  obtain ⟨added, hlog, hadded⟩ := h.removed
  obtain ⟨added', hlog', hadded'⟩ := h'.removed
  refine ⟨added ++ added', by rw [hlog', hlog, List.append_assoc], ?_⟩
  intro id hid
  rcases List.mem_append.1 hid with hid | hid
  · obtain ⟨m, hm, hmid, hstale, hname⟩ := hadded id hid
    exact ⟨m, hm, hmid, hstale, h'.report hname⟩
  · obtain ⟨m, hm, hmid, hstale, hname⟩ := hadded' id hid
    exact ⟨m, h.members.subset hm, hmid, hstale, hname⟩

/-- Taking out a stale member whose name is reported is pruning. -/
theorem without {m : Member} (hm : m ∈ c.members) (hstale : isStale nodes m = true)
    (hname : m.name ∈ r.removed) : Prunes nodes r r c (c.without m.id) where
  members := List.filter_sublist
  report := List.Subset.refl _
  removed := ⟨[m.id], rfl, fun _ hid => ⟨m, hm, (List.mem_singleton.1 hid).symm, hstale, hname⟩⟩

end Prunes

/-- One attempt: the members before `m` in the list are those that the pass has gone through, and
the report has the names of the stale ones among them. This stays so when the pass goes on. -/
theorem removal_prunes (w : Workload) (inv : Inventory) {before after : List Member} {m : Member}
    {r : Report} {c : Cluster} (hids : DistinctIds c.members) (hshadow : NoneShadowed nodes c.members)
    (hsplit : c.members = before ++ m :: after) (hstale : isStale nodes m = true)
    (hbefore : ∀ a ∈ before, isStale nodes a = true → a.name ∈ r.removed)
    (hname : m.name ∈ r.removed) :
    Prunes nodes r r c (removal w inv m.name c).2 ∧
      ∃ kept, (removal w inv m.name c).2.members = kept ++ after ∧
        ∀ a ∈ kept, isStale nodes a = true → a.name ∈ r.removed := by
  have hboth : ∀ a ∈ before ++ [m], isStale nodes a = true → a.name ∈ r.removed :=
    List.forall_mem_append.2 ⟨hbefore, List.forall_mem_singleton.2 fun _ => hname⟩
  rcases removal_state w inv m.name c with hsame | ⟨left, x, -, -, hx, htaken⟩
  · rw [hsame]
    exact ⟨.refl r c, before ++ [m], by rw [hsplit, List.append_cons], hboth⟩
  · rw [htaken]
    have hmem : x ∈ c.members := List.mem_of_find?_eq_some hx
    rw [hsplit] at hshadow hx
    rcases Member.named?_own_name before after m with ⟨hself, -⟩ | ⟨y, pre, post, hpre, hon, hfirst⟩
    · obtain rfl : x = m := Option.some.inj (hx.symm.trans hself)
      exact ⟨.without hmem hstale hname, before, members_without_of_split hids hsplit, hbefore⟩
    · obtain rfl : x = y := Option.some.inj (hx.symm.trans hfirst)
      have hxb : x ∈ before := by rw [hpre]; exact List.mem_append_right _ List.mem_cons_self
      -- nothing live is shadowed, so the member found in place of `m` is stale as well
      have hxs : isStale nodes x = true :=
        (List.pairwise_append.1 hshadow).2.2 x hxb m List.mem_cons_self hstale hon
      refine ⟨.without hmem hxs (hbefore x hxb hxs), (pre ++ post) ++ [m], ?_, ?_⟩
      · rw [hpre, List.append_assoc, List.cons_append] at hsplit
        rw [members_without_of_split hids hsplit]
        simp
      · intro a ha hsa
        refine hboth a ?_ hsa
        rw [hpre]
        simp only [List.mem_append, List.mem_cons] at ha ⊢
        tauto

/-- One pass over the members of a cluster prunes, as long as no live member is found in a stale
one's place. -/
theorem pruned_prunes (w : Workload) (inv : Inventory) {before after : List Member} {r : Report}
    {c : Cluster} (hids : DistinctIds c.members) (hshadow : NoneShadowed nodes c.members)
    (hsplit : c.members = before ++ after)
    (hbefore : ∀ a ∈ before, isStale nodes a = true → a.name ∈ r.removed) :
    Prunes nodes r (pruned w inv nodes after r c).1 c (pruned w inv nodes after r c).2 := by
  induction after generalizing before r c with
  | nil => exact .refl r c
  | cons m after ih =>
    unfold pruned
    by_cases hstale : isStale nodes m = true
    · rw [if_pos hstale]
      have hreport : r.removed ⊆
          ((r.attempt m.name).answered (removal w inv m.name c).1).removed := by
        rw [Report.answered_removed]
        exact r.subset_attempt m.name
      have hname : m.name ∈
          ((r.attempt m.name).answered (removal w inv m.name c).1).removed := by
        rw [Report.answered_removed]
        exact r.mem_attempt m.name
      obtain ⟨hstep, kept, hkept, hnames⟩ := removal_prunes w inv hids hshadow hsplit hstale
        (fun a ha hsa => hreport (hbefore a ha hsa)) hname
      -- the part not gone through yet is the same, and what is left keeps both assumptions
      have hrest := ih (hids.sublist hstep.members) (hshadow.sublist hstep.members) hkept hnames
      exact (Prunes.of_report hreport).trans (hstep.trans hrest)
    · rw [if_neg hstale]
      have hsplit' : c.members = (before ++ [m]) ++ after := by rw [hsplit, List.append_cons]
      refine ih hids hshadow hsplit' (List.forall_mem_append.2 ⟨hbefore, ?_⟩)
      exact List.forall_mem_singleton.2 fun hsm => absurd hsm hstale

/-- The passes of a reconciliation prune. -/
theorem prunedEach_prunes (w : Workload) (inv : Inventory) {c : Cluster}
    (hids : DistinctIds c.members) (hshadow : NoneShadowed nodes c.members) (vias : List String)
    (r : Report) :
    Prunes nodes r (prunedEach w inv nodes vias r c).1 c (prunedEach w inv nodes vias r c).2 := by
  induction vias generalizing r c with
  | nil => exact .refl r c
  | cons via rest ih =>
    have hfirst : Prunes nodes r (prunedVia w inv nodes via r c).1 c
        (prunedVia w inv nodes via r c).2 := by
      rcases prunedVia_cases w inv nodes via r c with hvia | hvia
      · rw [hvia]
        exact .refl r c
      · rw [hvia]
        exact pruned_prunes w inv hids hshadow (List.nil_append _).symm (by simp)
    exact hfirst.trans (ih (hids.sublist hfirst.members) (hshadow.sublist hfirst.members) _)

/-- If no live member shadows a stale one, a reconciliation takes out stale members only. -/
theorem reconciled_prunes (w : Workload) (inv : Inventory) {c : Cluster}
    (hids : DistinctIds c.members) (hshadow : w.hasAccess = true → NoneShadowed nodes c.members) :
    Prunes nodes {} (reconciled w inv nodes c).1 c (reconciled w inv nodes c).2 := by
  unfold reconciled
  by_cases hw : w.hasAccess = true
  · rw [if_pos hw]
    exact prunedEach_prunes w inv hids (hshadow hw) nodes {}
  · rw [if_neg hw]
    exact .refl {} c

/-! ## A shadowed member is taken out -/

/-- A removal adds to the record of removals at its end. -/
theorem removal_log_grows (w : Workload) (inv : Inventory) (name : String) (c : Cluster) :
    c.removed <+: (removal w inv name c).2.removed := by
  rcases removal_state w inv name c with hsame | ⟨left, m, -, -, -, htaken⟩
  · exact ⟨[], by rw [hsame, List.append_nil]⟩
  · rw [htaken]
    exact List.prefix_append _ _

/-- A pass adds to the record of removals at its end. -/
theorem pruned_log_grows (w : Workload) (inv : Inventory) (nodes : List String)
    (members : List Member) (r : Report) (c : Cluster) :
    c.removed <+: (pruned w inv nodes members r c).2.removed := by
  induction members generalizing r c with
  | nil => exact List.prefix_refl _
  | cons m rest ih =>
    unfold pruned
    split
    · exact (removal_log_grows w inv m.name c).trans (ih _ _)
    · exact ih r c

/-- Passes add to the record of removals at its end. -/
theorem prunedEach_log_grows (w : Workload) (inv : Inventory) (nodes vias : List String)
    (r : Report) (c : Cluster) : c.removed <+: (prunedEach w inv nodes vias r c).2.removed := by
  induction vias generalizing r c with
  | nil => exact List.prefix_refl _
  | cons via rest ih =>
    refine List.IsPrefix.trans ?_ (ih _ _)
    rcases prunedVia_cases w inv nodes via r c with hvia | hvia
    · exact ⟨[], by rw [hvia, List.append_nil]⟩
    · rw [hvia]
      exact pruned_log_grows w inv nodes c.members r c

/-- Without faults, a removal that the guard permits takes out the member itself or one before it.
-/
theorem removal_own_or_earlier {w : Workload} {inv : Inventory} {before after : List Member}
    {m : Member} {node : String} {left : List String} {c : Cluster} (hc : c.Unhindered)
    (hw : w.hasAccess = true) (hleft : w.guard.permit inv m.name = .ok (node :: left))
    (hsplit : c.members = before ++ m :: after) :
    (removal w inv m.name c = (.ok (), c.without m.id) ∧ ∀ x ∈ before, x.isOn m.name = false) ∨
      ∃ x ∈ before, removal w inv m.name c = (.ok (), c.without x.id) := by
  have hremoval := hc.removal hw hleft
  rw [hsplit] at hremoval
  rcases Member.named?_own_name before after m with
    ⟨hself, hnone⟩ | ⟨x, pre, post, hpre, -, hfirst⟩
  · rw [hself] at hremoval
    exact Or.inl ⟨hremoval, hnone⟩
  · have hx : x ∈ before := by
      rw [hpre]
      exact List.mem_append_right _ List.mem_cons_self
    rw [hfirst] at hremoval
    exact Or.inr ⟨x, hx, hremoval⟩

/-- Without faults and with the permission of the guard, a pass takes out a live member unless none
of them shadows a stale one. -/
theorem pruned_unhindered {w : Workload} {inv : Inventory} {before after : List Member}
    {c : Cluster} (r : Report) (hc : c.Unhindered) (hw : w.hasAccess = true)
    (hpermit : ∀ m ∈ after, ∃ node left, w.guard.permit inv m.name = .ok (node :: left))
    (hids : DistinctIds c.members) (hsplit : c.members = before ++ after)
    (hlive : ∀ a ∈ before, isStale nodes a = false) :
    NoneShadowed nodes c.members ∨
      ∃ a ∈ c.members, isStale nodes a = false ∧
        a.id ∈ (pruned w inv nodes after r c).2.removed := by
  induction after generalizing before r c with
  | nil =>
    refine Or.inl (List.pairwise_of_forall_mem_list fun a _ b hb hsb _ => ?_)
    rw [hsplit, List.append_nil] at hb
    rw [hlive b hb] at hsb
    cases hsb
  | cons m after ih =>
    have hpermit' : ∀ m ∈ after, ∃ node left, w.guard.permit inv m.name = .ok (node :: left) :=
      fun a ha => hpermit a (List.mem_cons_of_mem m ha)
    unfold pruned
    cases hstale : isStale nodes m with
    | false =>
      have hsplit' : c.members = (before ++ [m]) ++ after := by rw [hsplit, List.append_cons]
      refine ih r hc hpermit' hids hsplit' (List.forall_mem_append.2 ⟨hlive, ?_⟩)
      exact List.forall_mem_singleton.2 hstale
    | true =>
      obtain ⟨node, left, hleft⟩ := hpermit m List.mem_cons_self
      rw [if_pos rfl]
      rcases removal_own_or_earlier hc hw hleft hsplit with ⟨hremoval, hnone⟩ | ⟨x, hx, hremoval⟩
      · -- the stale member itself is found, and the pass goes on without it
        have hmembers : (c.without m.id).members = before ++ after :=
          members_without_of_split hids hsplit
        rw [hremoval]
        rcases ih (r.attempt m.name) (hc.without m.id) hpermit' (hids.sublist List.filter_sublist)
          hmembers hlive with hrest | ⟨a, ha, hsa, hlog⟩
        · rw [hmembers] at hrest
          rw [hsplit]
          exact Or.inl (hrest.insert_stale hstale hnone)
        · exact Or.inr ⟨a, List.filter_sublist.subset ha, hsa, hlog⟩
      · -- a live member before `m` is found in its place
        rw [hremoval]
        have hgrow :=
          pruned_log_grows w inv nodes after (r.attempt m.name) (c.without x.id)
        refine Or.inr ⟨x, ?_, hlive x hx, hgrow.subset ?_⟩
        · rw [hsplit]
          exact List.mem_append_left _ hx
        · exact List.mem_append_right _ (List.mem_singleton_self _)

/-- Without faults and with the permission of the guard, a reconciliation takes out a live member
unless none of them shadows a stale one. -/
theorem reconciled_unhindered {w : Workload} {inv : Inventory} {via : String} {vias : List String}
    {c : Cluster} (hc : c.Unhindered) (hw : w.hasAccess = true)
    (hpermit : ∀ m ∈ c.members, ∃ node left, w.guard.permit inv m.name = .ok (node :: left))
    (hids : DistinctIds c.members) :
    NoneShadowed (via :: vias) c.members ∨
      ∃ a ∈ c.members, isStale (via :: vias) a = false ∧
        a.id ∈ (reconciled w inv (via :: vias) c).2.removed := by
  rcases pruned_unhindered {} hc hw hpermit hids (List.nil_append _).symm (by simp) with
    hnone | ⟨a, ha, hlive, hlog⟩
  · exact Or.inl hnone
  · refine Or.inr ⟨a, ha, hlive, ?_⟩
    rw [hc.reconciled hw]
    exact (prunedEach_log_grows w inv _ _ _ _).subset hlog

end Cluster

/-! ## The exact condition -/

/-- Some inventory lets the guard permit the removal of any of the members: it has enough nodes
whose name stands in none of theirs. -/
theorem QuorumGuard.exists_permitting (guard : QuorumGuard) (members : List Member) :
    ∃ inv, ∀ m ∈ members, ∃ node left, guard.permit inv m.name = .ok (node :: left) := by
  obtain ⟨absent, habsent⟩ := Member.exists_absent_name members
  refine ⟨⟨List.replicate (guard.minimum + 1) absent, none⟩, fun m hm => ?_⟩
  refine ⟨absent, List.replicate guard.minimum absent, ?_⟩
  have hleft : nodesWithout (List.replicate (guard.minimum + 1) absent) m.name =
      List.replicate (guard.minimum + 1) absent := by
    refine List.filter_eq_self.2 fun node hnode => ?_
    rw [(List.mem_replicate.1 hnode).2]
    exact Bool.not_eq_true' _ ▸ habsent m hm
  have henough : ¬ guard.minimum + 1 < guard.minimum := by omega
  have hpermit : guard.permit ⟨List.replicate (guard.minimum + 1) absent, none⟩ m.name =
      .ok (List.replicate (guard.minimum + 1) absent) := by
    simp only [QuorumGuard.permit, Inventory.read, remaining, hleft, List.length_replicate,
      if_neg henough]
  rw [hpermit, List.replicate_succ]

/-- Without nodes there are no live members to be shadowed. -/
theorem noneShadowed_nil (members : List Member) : NoneShadowed [] members := by
  refine List.pairwise_of_forall fun a b hb hon => ?_
  rw [isStale_iff] at hb ⊢
  refine ⟨fun hempty => hb.1 ?_, by simp⟩
  have hinfix := (a.isOn_iff b.name).1 hon
  rw [hempty] at hinfix
  exact String.toList_eq_nil_iff.1 (List.infix_nil.1 hinfix)

/-- The ids that a reconciliation adds to the log of removals are those of members that had a name,
belonged to none of the nodes, and are in the report under their name. -/
def Workload.PrunesOnlyStale (w : Workload) (nodes : List String)
    (s : Situation (Inventory × Cluster)) : Prop :=
  ∃ added, ((w.reconcile nodes).run Cluster.world s).after.state.2.removed =
      s.state.2.removed ++ added ∧
    ∀ id ∈ added, ∃ m ∈ s.state.2.members, m.id = id ∧ m.name ≠ "" ∧
      (∀ node ∈ nodes, m.isOn node = false) ∧
      m.name ∈ ((w.reconcile nodes).run Cluster.world s).value.removed

/-- Whatever the inventory, the faults and the earlier history are, a reconciliation of a cluster
with these members takes out stale members only, exactly if no live one shadows a stale one. -/
theorem prunes_only_stale_iff (w : Workload) (nodes : List String) (members : List Member)
    (hids : DistinctIds members) :
    (∀ s : Situation (Inventory × Cluster), s.state.2.members = members →
        w.PrunesOnlyStale nodes s) ↔
      (w.hasAccess = true → NoneShadowed nodes members) := by
  constructor
  · intro h hw
    cases nodes with
    | nil => exact noneShadowed_nil members
    | cons via vias =>
      obtain ⟨inv, hpermit⟩ := w.guard.exists_permitting members
      have hc : Cluster.Unhindered { members } := ⟨rfl, rfl, rfl⟩
      rcases Cluster.reconciled_unhindered hc hw hpermit hids with hnone | ⟨a, ha, hlive, hlog⟩
      · exact hnone
      · -- the live member is in the log, and so it would have to be stale
        obtain ⟨added, hadded, hstale⟩ := h ⟨0, (inv, { members })⟩ rfl
        have hcore : ((w.reconcile (via :: vias)).run Cluster.world
              ⟨0, (inv, { members })⟩).after.state.2.core =
            (Cluster.reconciled w inv (via :: vias) { members }).2 :=
          (w.leaves_reconcile (via :: vias) _).core
        rw [← hcore, Cluster.core_removed, hadded] at hlog
        obtain ⟨m, hm, hid, hname, hforeign, -⟩ := hstale a.id hlog
        obtain rfl : m = a := hids.eq_of_id hm ha hid
        rw [isStale_iff.2 ⟨hname, hforeign⟩] at hlive
        cases hlive
  · rintro hshadow s rfl
    have hleaves := w.leaves_reconcile nodes s
    have hprunes := Cluster.reconciled_prunes w s.state.1 (c := s.state.2.core) hids hshadow
    rw [← hleaves.value, ← hleaves.core] at hprunes
    obtain ⟨added, hlog, hadded⟩ := hprunes.removed
    refine ⟨added, hlog, fun id hid => ?_⟩
    obtain ⟨m, hm, hmid, hstale, hname⟩ := hadded id hid
    obtain ⟨hstarted, hforeign⟩ := isStale_iff.1 hstale
    exact ⟨m, hm, hmid, hstarted, hforeign, hname⟩

/-- The node `cp-1` is gone, and its member stands before that of `cp-10`. -/
def departed : Situation (Inventory × Cluster) where
  state := (⟨["cp-10", "cp-2"], none⟩, {
    members := [
      { id := 1, name := "etcd-cp-1" },
      { id := 10, name := "etcd-cp-10" },
      { id := 2, name := "etcd-cp-2" }]
    leader := 2 })

theorem prunes_only_stale_when_departed :
    (⟨true, {}⟩ : Workload).PrunesOnlyStale ["cp-10", "cp-2"] departed :=
  (prunes_only_stale_iff ⟨true, {}⟩ ["cp-10", "cp-2"] departed.state.2.members (by decide)).2
    (fun _ => by decide) departed rfl

/-- The node `cp-1` is gone, and its member stands behind that of `cp-10`. -/
def shadowed : Situation (Inventory × Cluster) where
  state := (⟨["cp-10", "cp-2"], none⟩, {
    members := [
      { id := 10, name := "etcd-cp-10" },
      { id := 1, name := "etcd-cp-1" },
      { id := 2, name := "etcd-cp-2" }]
    leader := 2 })

/-- Looking for `etcd-cp-1`, the first removal takes out the member on `cp-10`. -/
theorem live_member_pruned :
    ¬ ∀ (w : Workload) (nodes : List String) (s : Situation (Inventory × Cluster)),
      DistinctIds s.state.2.members → w.PrunesOnlyStale nodes s := by
  intro h
  obtain ⟨added, hadded, hstale⟩ := h ⟨true, {}⟩ ["cp-10", "cp-2"] shadowed (by decide)
  have hlog : [10, 1] = added := hadded
  obtain ⟨m, hm, hid, -, hforeign, -⟩ := hstale 10 (hlog ▸ List.mem_cons_self)
  have hlive : ∀ m ∈ shadowed.state.2.members, m.id = 10 → m.isOn "cp-10" = true := by decide
  have hon := hlive m hm hid
  rw [hforeign "cp-10" List.mem_cons_self] at hon
  cases hon

end QuorumKeeper
