import QuorumKeeper.Proofs.Removals
import QuorumKeeper.Proofs.MemberLists

/-!
# Removing one name twice

A second removal under the same name is idle if at most one member stood under that name before the
first. If there were two, the first match hid the second, and the second removal turns to it. Node
names such as `cp-1` and `cp-10` make this happen.
-/

set_option autoImplicit false

namespace QuorumKeeper

namespace Cluster

/-- The faults and the reachable endpoints do not change when a member is taken out. -/
theorem route_without (c : Cluster) (id : UInt64) (nodes : List String) :
    (c.without id).route nodes = c.route nodes := rfl

/-- A removal that gets as far as the member list decides by the list alone. -/
theorem removal_eq_of_listed {w : Workload} {inv : Inventory} {name endpoint : String}
    {c : Cluster} {left : List String} (hw : w.hasAccess = true)
    (hleft : w.guard.permit inv name = .ok left) (hroute : c.route left = .ok endpoint) :
    removal w inv name c = removalAt name endpoint c := by
  simp only [removal, hleft, hw, if_true, hroute]

/-- A removal that succeeds has read the member list, if there is access at all. -/
theorem listed_of_removal_ok {w : Workload} {inv : Inventory} {name : String} {c : Cluster}
    (hw : w.hasAccess = true) (hok : (removal w inv name c).1 = .ok ()) :
    ∃ left endpoint, w.guard.permit inv name = .ok left ∧ c.route left = .ok endpoint ∧
      c.listedAt endpoint = .ok c.members := by
  cases hleft : w.guard.permit inv name with
  | error e =>
    simp only [removal, hleft] at hok
    cases hok
  | ok left =>
    cases hroute : c.route left with
    | error e =>
      simp only [removal, hleft, hw, if_true, hroute] at hok
      cases hok
    | ok endpoint =>
      refine ⟨left, endpoint, rfl, hroute, ?_⟩
      rw [removal_eq_of_listed hw hleft hroute] at hok
      rcases listedAt_cases c endpoint with hlist | ⟨e, hlist, -⟩
      · exact hlist
      · simp only [removalAt, hlist] at hok
        cases hok

/-- Taking a member out changes the member list. -/
theorem members_without_ne {c : Cluster} {m : Member} (hm : m ∈ c.members) :
    (c.without m.id).members ≠ c.members := by
  intro h
  have hin : m ∈ (c.without m.id).members := h ▸ hm
  simp [without] at hin

theorem listedAt_without {c : Cluster} {endpoint : String}
    (h : c.listedAt endpoint = .ok c.members) (id : UInt64) :
    (c.without id).listedAt endpoint = .ok (c.without id).members := by
  cases hfail : c.failingList.contains endpoint with
  | true =>
    simp only [listedAt, list, hfail, if_true] at h
    cases h
  | false => simp only [listedAt, list, without, hfail, Bool.false_eq_true, if_false]

/-- A removal that reads the member list is idle exactly if nobody stands under the name. -/
theorem removalAt_idle_iff {name endpoint : String} {c : Cluster}
    (hlist : c.listedAt endpoint = .ok c.members) :
    ((removalAt name endpoint c).1 = .ok () ∧
        (removalAt name endpoint c).2.members = c.members ∧
        (removalAt name endpoint c).2.removed = c.removed) ↔
      Member.named? c.members name = none := by
  unfold removalAt
  rw [hlist]
  cases hm : Member.named? c.members name with
  | none => simp [hm]
  | some m =>
    have hmem : m ∈ c.members := List.mem_of_find?_eq_some hm
    simp only [hm]
    refine iff_of_false ?_ nofun
    -- the removal of a listed member fails, or the member is gone
    rintro ⟨hvalue, hsame, -⟩
    rcases remove_cases c ⟨0, endpoint, 0⟩ hmem with hr | ⟨e, hr, -⟩
    · rw [hr] at hsame
      exact members_without_ne hmem hsame
    · rw [hr] at hvalue
      cases hvalue

/-- A second removal is idle exactly if at most one member stood under the name before the first. -/
theorem removal_again_iff {w : Workload} {inv : Inventory} {name : String} {c c₁ : Cluster}
    (hids : DistinctIds c.members) (hfirst : removal w inv name c = (.ok (), c₁)) :
    ((removal w inv name c₁).1 = .ok () ∧ (removal w inv name c₁).2.members = c₁.members ∧
        (removal w inv name c₁).2.removed = c₁.removed) ↔
      (w.hasAccess = true → (c.members.filter (·.isOn name)).length ≤ 1) := by
  have hspec := removal_spec w inv name c
  rw [hfirst] at hspec
  rcases hspec.of_ok with ⟨rfl, hnone⟩ | ⟨-, m, hw, -, hm, rfl⟩
  · -- the first removal changed nothing, so the second one does the same
    rw [hfirst]
    refine iff_of_true ⟨rfl, rfl, rfl⟩ fun hw => ?_
    rw [Member.named?_eq_none_iff_filter.1 (hnone hw)]
    exact Nat.zero_le 1
  · obtain ⟨left, endpoint, hleft, hroute, hlist⟩ := listed_of_removal_ok hw (by rw [hfirst])
    rw [removal_eq_of_listed hw hleft (route_without c m.id left ▸ hroute),
      removalAt_idle_iff (listedAt_without hlist m.id), Member.filter_isOn_of_named? hids hm,
      List.length_cons, Member.named?_eq_none_iff_filter, ← List.length_eq_zero_iff]
    show ((c.members.filter (·.id != m.id)).filter (·.isOn name)).length = 0 ↔ _
    constructor
    · intro hzero _
      omega
    · intro hle
      have hone := hle hw
      omega

end Cluster

/-- Run once more where the removal under the name has just ended, the same removal succeeds and
takes nobody out. -/
def Workload.IdleAgain (w : Workload) (name : String) (s : Situation (Inventory × Cluster)) :
    Prop :=
  let first := (w.removeMember name).run Cluster.world s
  let second := (w.removeMember name).run Cluster.world first.after
  second.value = .ok () ∧ second.after.state.2.members = first.after.state.2.members ∧
    second.after.state.2.removed = first.after.state.2.removed

/-- After a removal that succeeded, the same removal succeeds again and takes nobody out, exactly
if at most one member stood under the name at the start, or there is no access to etcd at all. -/
theorem second_removal_idle_iff (w : Workload) (name : String)
    (s : Situation (Inventory × Cluster)) (hids : DistinctIds s.state.2.members)
    (hfirst : ((w.removeMember name).run Cluster.world s).value = .ok ()) :
    w.IdleAgain name s ↔
      (w.hasAccess = true → (s.state.2.members.filter (·.isOn name)).length ≤ 1) := by
  have h₁ := Workload.leaves_removeMember (s := s) w name
  have h₂ := Workload.leaves_removeMember
    (s := ((w.removeMember name).run Cluster.world s).after) w name
  rw [h₁.inventory, h₁.core] at h₂
  have hremoval : Cluster.removal w s.state.1 name s.state.2.core =
      (.ok (), ((w.removeMember name).run Cluster.world s).after.state.2.core) :=
    Prod.ext (h₁.value.symm.trans hfirst) h₁.core.symm
  have hiff := Cluster.removal_again_iff (c := s.state.2.core) hids hremoval
  rw [hremoval] at h₂
  rw [← h₂.value, ← h₂.core] at hiff
  exact hiff

/-- A cluster with a member on `cp-1` that stands behind one on `cp-10`. -/
def overlapping : Situation (Inventory × Cluster) where
  state := (⟨["cp-1", "cp-2", "cp-10"], none⟩, {
    members := [
      { id := 10, name := "etcd-cp-10" },
      { id := 1, name := "etcd-cp-1" },
      { id := 2, name := "etcd-cp-2" }]
    leader := 2 })

theorem second_removal_of_unambiguous_name_idle :
    (⟨true, {}⟩ : Workload).IdleAgain "cp-2" overlapping :=
  (second_removal_idle_iff ⟨true, {}⟩ "cp-2" overlapping (by decide) (by rfl)).2
    fun _ => by decide

/-- Under `cp-1` the first removal takes out the member on `cp-10`, and the second one the member
on `cp-1`. -/
theorem second_removal_not_always_idle :
    ¬ ∀ (w : Workload) (name : String) (s : Situation (Inventory × Cluster)), name ≠ "" →
      DistinctIds s.state.2.members →
      ((w.removeMember name).run Cluster.world s).value = .ok () → w.IdleAgain name s := by
  intro h
  have hidle := h ⟨true, {}⟩ "cp-1" overlapping (by decide) (by decide) (by rfl)
  have hremoved : [10, 1] = [(10 : UInt64)] := hidle.2.2
  cases hremoved

end QuorumKeeper
