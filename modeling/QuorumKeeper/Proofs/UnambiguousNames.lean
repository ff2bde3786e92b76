import QuorumKeeper.Proofs.GuardedRemovals
import QuorumKeeper.Proofs.Handovers
import QuorumKeeper.Store.InMemory
import Mathlib.Data.List.Infix
import Mathlib.Data.List.Nodup

/-!
# Removals under names that do not overlap

Two substring tests meet in a removal, and they go in opposite directions: the guard leaves out the
nodes whose names stand inside the target, and the member to go is the first one whose name contains
the target. Where no node name stands inside another, the guard leaves out the target alone
(`nodesWithout_of_apart`). If moreover no listed member is on two nodes, the member to go is on no
node that can be dialed, and so the removal hits the target's own member over a connection to
another node (`removal_hits_own_node`).
-/

set_option autoImplicit false

namespace QuorumKeeper

open Program Trace Member Workload ClientSearch QuorumGuard

/-- The node names are distinct, and none of them stands inside another. -/
structure NamesApart (known : List String) : Prop where
  distinct : known.Nodup
  apart : ∀ n ∈ known, ∀ n' ∈ known, n.toList <:+: n'.toList → n = n'

/-- The member's name contains one of the node names at most. -/
def Member.OnOneAtMost (known : List String) (m : Member) : Prop :=
  ∀ n ∈ known, ∀ n' ∈ known, n.toList <:+: m.name.toList → n'.toList <:+: m.name.toList → n = n'

instance (known : List String) (m : Member) : Decidable (m.OnOneAtMost known) :=
  inferInstanceAs (Decidable (∀ n ∈ known, ∀ n' ∈ known,
    n.toList <:+: m.name.toList → n'.toList <:+: m.name.toList → n = n'))

/-- What came before a removal that hits the member of a node: a connection to some other known node
was opened, and the first member on the node that it lists is the one to go. That member is on no
other known node, and so not on the one that is connected. -/
inductive HitsOwn (known : List String) (node : String) :
    List Exchange → Client → UInt64 → Prop where
  | intro {earlier : List Exchange} {other : String} {client : Client} {members : List Member}
      {m : Member} (first : Hosted node members m)
      (alone : ∀ n ∈ known, n ≠ node → ¬ n.toList <:+: m.name.toList)
      (beside : other ∈ known ∧ other ≠ node) (outside : ¬ other.toList <:+: m.name.toList) :
      HitsOwn known node
        (earlier ++ [⟨.create (etcdEndpoint other), .ok client⟩, ⟨.list client, .ok members⟩])
        client m.id

/-- What an attempt to take out the member of a known node does, in a run that leaves this outcome.
The guard refuses exactly if the minimum would not be left beside the node; other known nodes are
dialed and nothing else; and a removal hits the node's own member. -/
structure RemovesOwn (w : Workload) (known : List String) (node : String) {σ : Type}
    (o : Outcome σ (Except OperationError Unit)) : Prop where
  refused : (∃ minimum remaining, o.value = .error (.belowMinimum minimum remaining)) ↔
    known.length < w.guard.minimum + 1
  dials : ∀ endpoint ∈ dialed o.trace, ∃ other ∈ known, other ≠ node ∧
    endpoint = etcdEndpoint other
  removes : RemovesOnly (HitsOwn known node) o.trace

/-! ## The guard -/

section Guard

variable {known : List String} {node : String}

/-- The guard leaves out the target alone. -/
theorem nodesWithout_of_apart (h : NamesApart known) (hnode : node ∈ known) :
    nodesWithout known node = known.erase node := by
  rw [h.distinct.erase_eq_filter, nodesWithout]
  apply List.filter_congr
  intro n hn
  by_cases hsame : n = node
  · subst hsame
    simp [Text.occurs_self]
  · have houtside : Text.occurs n node = false := by
      rw [Bool.eq_false_iff]
      intro hoccurs
      exact hsame (h.apart n hn node hnode ((Text.occurs_iff n node).1 hoccurs))
    simp [houtside, hsame]

/-- Beside a known node there are all other nodes, one less than are known. -/
theorem length_nodesWithout_lt_iff (h : NamesApart known) (hnode : node ∈ known) (minimum : Nat) :
    (nodesWithout known node).length < minimum ↔ known.length < minimum + 1 := by
  have hpos : 0 < known.length := List.length_pos_of_mem hnode
  rw [nodesWithout_of_apart h hnode, List.length_erase_of_mem hnode]
  omega

/-- The nodes beside a known one are all others. -/
theorem mem_nodesWithout_iff (h : NamesApart known) (hnode : node ∈ known) {n : String} :
    n ∈ nodesWithout known node ↔ n ∈ known ∧ n ≠ node := by
  rw [nodesWithout_of_apart h hnode, h.distinct.mem_erase_iff, and_comm]

end Guard

/-! ## The attempt -/

namespace Workload

variable {w : Workload} {known : List String} {node name : String} {rest : List Exchange}
  {v : Except OperationError Unit}

/-- An attempt reads the inventory before it does anything else. -/
theorem trace_removeMember (w : Workload) (name : String) {σ : Type} {world : World σ}
    {s : Situation σ} (hread : (world.nodes s.state).1 = .ok known) :
    ∃ rest, ((w.removeMember name).run world s).trace = ⟨.nodes, .ok known⟩ :: rest := by
  have hhead : ∃ rest, ((w.removeMember name).run world s).trace =
      ⟨.nodes, (world.nodes s.state).1⟩ :: rest := ⟨_, rfl⟩
  rwa [hread] at hhead

/-- With this inventory, an attempt is refused exactly if too few nodes would be left. -/
theorem Attempt.refused_iff (h : Attempt w name (⟨.nodes, .ok known⟩ :: rest) v) :
    (∃ minimum remaining, v = .error (.belowMinimum minimum remaining)) ↔
      (nodesWithout known name).length < w.guard.minimum := by
  constructor
  · rintro ⟨minimum, remaining, rfl⟩
    -- every other failure comes from a call to etcd
    cases h with
    | refused few => exact few
    | connected enough access search use => cases use
  · intro few
    obtain ⟨answer, rest', heq, hopening⟩ := h.opening
    cases heq
    exact ⟨_, _, (hopening.1 few).2⟩

/-- Whatever the guard decides, only nodes that it leaves are dialed. -/
theorem Attempt.dials_left (h : Attempt w name (⟨.nodes, .ok known⟩ :: rest) v)
    {endpoint : String} (hdialed : endpoint ∈ dialed (⟨.nodes, .ok known⟩ :: rest)) :
    ∃ n ∈ nodesWithout known name, endpoint = etcdEndpoint n := by
  obtain ⟨answer, rest', heq, hopening⟩ := h.opening
  cases heq
  replace hdialed : endpoint ∈ dialed rest := hdialed
  rcases Nat.lt_or_ge (nodesWithout known name).length w.guard.minimum with few | enough
  · rw [(hopening.1 few).1] at hdialed
    cases hdialed
  · obtain ⟨n, hn, rfl⟩ := List.mem_map.1 ((hopening.2 enough).subset hdialed)
    exact ⟨n, hn, rfl⟩

/-- If no member that is listed is on two nodes, a guarded removal hits the node's own member. -/
theorem Attempt.removesOwn (h : Attempt w node (⟨.nodes, .ok known⟩ :: rest) v)
    (hapart : NamesApart known) (hnode : node ∈ known)
    (hlisted : ∀ client members, ⟨.list client, .ok members⟩ ∈ rest →
      ∀ m ∈ members, m.OnOneAtMost known) :
    RemovesOnly (HitsOwn known node) (⟨.nodes, .ok known⟩ :: rest) := by
  intro before client id answer after heq
  have hattempt := h.removesOnly before client id answer after heq
  cases hattempt with
  | @intro known' left missed other members m enough order first =>
    rw [List.cons_append, List.cons_append, List.cons.injEq] at heq
    obtain ⟨hread, hrest⟩ := heq
    cases hread
    have hhosted := named?_eq_some_iff_hosted.1 first
    have hmember : m ∈ members := List.mem_of_find?_eq_some first
    have hone : m.OnOneAtMost known := hlisted client members (by simp [hrest]) m hmember
    have halone : ∀ n ∈ known, n ≠ node → ¬ n.toList <:+: m.name.toList := by
      intro n hn hother hinside
      exact hother (hone n hn node hnode hinside hhosted.1)
    have hleft : other ∈ nodesWithout known node := by
      rw [order]
      simp
    obtain ⟨hother, hbeside⟩ := (mem_nodesWithout_iff hapart hnode).1 hleft
    exact .intro hhosted halone ⟨hother, hbeside⟩ (halone other hother hbeside)

end Workload

/-- Let no known node's name stand inside another one's, and let no member that is listed on the way
be on two known nodes. Then an attempt to take out the member of a known node is refused exactly if
the minimum would not be left beside it. It dials other known nodes only, and if it removes a
member, that is the first one listed on the node, over a connection to a node that the member is not
on. -/
theorem removal_hits_own_node {σ : Type} (world : World σ) (s : Situation σ) (w : Workload)
    (known : List String) (node : String) (hapart : NamesApart known) (hnode : node ∈ known)
    (hread : (world.nodes s.state).1 = .ok known)
    (hlisted : ∀ client members,
      ⟨.list client, .ok members⟩ ∈ ((w.removeMember node).run world s).trace →
        ∀ m ∈ members, m.OnOneAtMost known) :
    RemovesOwn w known node ((w.removeMember node).run world s) := by
  have hattempt := removeMember_yields_iff.1 (yields_run world (w.removeMember node) s)
  obtain ⟨rest, htrace⟩ := trace_removeMember w node hread
  rw [htrace] at hattempt hlisted
  constructor
  · rw [hattempt.refused_iff]
    exact length_nodesWithout_lt_iff hapart hnode w.guard.minimum
  · intro endpoint hdialed
    rw [htrace] at hdialed
    obtain ⟨n, hn, hendpoint⟩ := hattempt.dials_left hdialed
    obtain ⟨hknown, hother⟩ := (mem_nodesWithout_iff hapart hnode).1 hn
    exact ⟨n, hknown, hother, hendpoint⟩
  · rw [htrace]
    apply hattempt.removesOwn hapart hnode
    intro client members hmem
    exact hlisted client members (List.mem_cons_of_mem _ hmem)

/-- The node `cp-1` is down, and a member that has not joined stands first in the list. -/
def firstNodeDown : Situation (Inventory × Cluster) where
  state := (⟨["cp-1", "cp-2", "cp-3"], none⟩, {
    members := [
      { id := 7, name := "" },
      { id := 2, name := "etcd-cp-2" },
      { id := 3, name := "etcd-cp-3" }]
    leader := 3
    unreachable := ["etcd-cp-1"] })

/-- The member on `cp-2` goes over the connection to `cp-3`. -/
theorem own_member_removed_past_failed_node :
    let known := ["cp-1", "cp-2", "cp-3"]
    let outcome := ((⟨true, {}⟩ : Workload).removeMember "cp-2").run Cluster.store.world firstNodeDown
    NamesApart known ∧ outcome.after.state.2.removed = [2] ∧
      RemovesOwn ⟨true, {}⟩ known "cp-2" outcome := by
  intro known outcome
  have hapart : NamesApart known := ⟨by decide, by decide⟩
  refine ⟨hapart, by rfl, ?_⟩
  apply removal_hits_own_node Cluster.store.world firstNodeDown ⟨true, {}⟩ known "cp-2" hapart
    (by decide) (by rfl)
  intro client members hmem
  have htrace : outcome.trace = [
      ⟨.nodes, .ok known⟩,
      ⟨.create "etcd-cp-1", .error (.connect "etcd-cp-1" "connection refused")⟩,
      ⟨.create "etcd-cp-3", .ok ⟨0, "etcd-cp-3", 3⟩⟩,
      ⟨.list ⟨0, "etcd-cp-3", 3⟩, .ok firstNodeDown.state.2.members⟩,
      ⟨.remove ⟨0, "etcd-cp-3", 3⟩ 2, .ok ()⟩,
      ⟨.drop ⟨0, "etcd-cp-3", 3⟩, ()⟩] := by rfl
  have hlisting : ⟨.list client, .ok members⟩ ∈ outcome.trace := hmem
  rw [htrace] at hlisting
  obtain ⟨rfl, rfl⟩ : client = ⟨0, "etcd-cp-3", 3⟩ ∧ members = firstNodeDown.state.2.members := by
    simpa using hlisting
  decide

end QuorumKeeper
