import QuorumKeeper.Proofs.ClusterTraces
import QuorumKeeper.Proofs.Handovers
import QuorumKeeper.Proofs.Operations

/-!
# Handing leadership over again and again

One handover moves leadership from the member on the machine to be left to the member on the
candidate, or it changes nothing (`Cluster.handover_step`). If these are two members, then after a
move the member to be left leads no more. The cluster is `Settled`, and every further handover
between the same machines asks for no move at all, whether it finds the leader or not
(`settled_handOverTimes`). So a sequence of handovers moves leadership once at most
(`handedOver_handOverTimes`).
-/

set_option autoImplicit false

namespace QuorumKeeper

open Program Trace Member Workload

/-! ## The members on two machines -/

/-- The nodes of the two machines lead to these members of the list. -/
structure HandsTo (machine candidate : Option Machine) (members : List Member)
    (current next : Member) : Prop where
  leaves : ∃ outgoing, nodeOf machine = some outgoing ∧ Hosted outgoing members current
  comes : ∃ incoming, nodeOf candidate = some incoming ∧ Hosted incoming members next

/-- The two machines do not lead to members with one id. -/
def LeadsApart (machine candidate : Option Machine) (members : List Member) : Prop :=
  ∀ current next, HandsTo machine candidate members current next → current.id ≠ next.id

/-- A machine leads to one member only. -/
theorem HandsTo.current_unique {machine candidate : Option Machine} {members : List Member}
    {current next current' next' : Member} (h : HandsTo machine candidate members current next)
    (h' : HandsTo machine candidate members current' next') : current = current' := by
  obtain ⟨outgoing, hnode, hhosted⟩ := h.leaves
  obtain ⟨outgoing', hnode', hhosted'⟩ := h'.leaves
  obtain rfl : outgoing = outgoing' := Option.some.inj (hnode.symm.trans hnode')
  have hfirst := named?_eq_some_iff_hosted.2 hhosted
  have hfirst' := named?_eq_some_iff_hosted.2 hhosted'
  exact Option.some.inj (hfirst.symm.trans hfirst')

/-! ## One handover -/

namespace Cluster

variable {w : Workload} {machine candidate : Option Machine} {c c' : Cluster}
  {t : List Exchange}

/-- Leadership has gone from the member on the one machine to the member on the other, and nothing
else has changed. -/
inductive HandedOver (machine candidate : Option Machine) (c : Cluster) : Cluster → Prop where
  | intro {current next : Member} (members : HandsTo machine candidate c.members current next)
      (leads : c.leader = current.id) : HandedOver machine candidate c (c.ledBy next.id)

/-- The member on the machine to be left does not lead. -/
def Settled (machine candidate : Option Machine) (c : Cluster) : Prop :=
  ∀ current next, HandsTo machine candidate c.members current next → c.leader ≠ current.id

/-- Once leadership has moved from one member to another, there is nothing left to hand over. -/
theorem HandedOver.settled (h : HandedOver machine candidate c c')
    (hapart : LeadsApart machine candidate c.members) : Settled machine candidate c' := by
  cases h with
  | @intro current next members leads =>
    intro current' next' members'
    -- the member list is the one from before, so the machine still leads to the same member
    have hsame : current = current' := members.current_unique members'
    rw [← hsame]
    exact (hapart current next members).symm

/-- A handover takes nobody out and lets nobody in. -/
theorem HandedOver.members_eq (h : HandedOver machine candidate c c') : c'.members = c.members := by
  cases h with
  | intro members leads => rfl

/-- A handover removes nobody. -/
theorem HandedOver.removed_eq (h : HandedOver machine candidate c c') : c'.removed = c.removed := by
  cases h with
  | intro members leads => rfl

/-- Where a move is due, the member to be left leads, and the move goes to the other member. -/
theorem handsTo_of_due {client : Client} {id : UInt64}
    (h : Due w machine candidate t client id) (hreplay : Replays c t c') :
    c' = c ∧ ∃ current next, HandsTo machine candidate c.members current next ∧
      c.leader = current.id ∧ id = next.id := by
  cases h with
  | @intro outgoing incoming leaves comes access known t client search members current next leads
      heir =>
    obtain ⟨c₁, hbefore, hlisting⟩ := replays_append_iff.1 hreplay
    obtain ⟨c₂, hread, hsearch⟩ := replays_cons_iff.1 hbefore
    have hafterRead : c₂ = c := hread.core_eq rfl
    subst hafterRead
    have hafterSearch : c₁ = c₂ := hsearch.core_eq (ClientSearch.leaderClient_quiet search)
    subst hafterSearch
    obtain ⟨hmembers, hrest⟩ := hlisting.of_listing
    subst hmembers
    refine ⟨replays_nil_iff.1 hrest, current, next, ⟨?_, ?_⟩, ?_, rfl⟩
    · exact ⟨outgoing, leaves, leads.1⟩
    · exact ⟨incoming, comes, heir⟩
    · rw [leads.2]
      exact (leader_of_search search hsearch).symm

/-- A handover that asks for no move changes nothing. -/
theorem quiet_of_still {v : Except OperationError Unit} (h : Handover w machine candidate t v)
    (hstill : Still t) : Quiet t := by
  have hcareful : Careful 0 1 t :=
    ensures_iff_yields.1 (w.forwardLeadership_isCareful machine candidate) t v
      (forwardLeadership_yields_iff.2 h)
  have hmoves : moves t = 0 :=
    List.countP_eq_zero.2 fun x hx => by simp [hstill x hx]
  apply Careful.quiet
  exact ⟨hcareful.fresh, hcareful.removals_le, by simp [hmoves]⟩

/-- A handover asks for no move and leaves the cluster as it is, or the member to be left leads and
the move succeeds or fails. -/
theorem handover_step {v : Except OperationError Unit} (h : Handover w machine candidate t v)
    (hreplay : Replays c t c') :
    (Still t ∧ c' = c) ∨
      ¬ Settled machine candidate c ∧ (c' = c ∨ HandedOver machine candidate c c') := by
  by_cases hstill : Still t
  · exact Or.inl ⟨hstill, hreplay.core_eq (quiet_of_still h hstill)⟩
  · right
    simp only [Still, not_forall, Bool.not_eq_false] at hstill
    obtain ⟨⟨q, answer⟩, hmem, hmove⟩ := hstill
    obtain ⟨before, after, rfl⟩ := List.append_of_mem hmem
    cases q with
    | move client id =>
      obtain ⟨hdue, rfl⟩ := h.move_due rfl
      obtain ⟨c₁, hbefore, hrest⟩ := replays_append_iff.1 hreplay
      obtain ⟨rfl, current, next, hmembers, hleads, rfl⟩ := handsTo_of_due hdue hbefore
      obtain ⟨c₂, hmoved, hclose⟩ := replays_cons_iff.1 hrest
      have hclosed : c' = c₂ := hclose.core_eq (by simp [Exchange.isChange])
      subst hclosed
      constructor
      · intro hsettled
        exact hsettled current next hmembers hleads
      · cases hmoved with
        | stayed stuck => exact Or.inl rfl
        | moved free => exact Or.inr ⟨hmembers, hleads⟩
    | nodes => cases hmove
    | create endpoint => cases hmove
    | list client => cases hmove
    | remove client id => cases hmove
    | drop client => cases hmove

end Cluster

open Cluster

/-! ## Many handovers -/

/-- The same handover, so many times one after the other. -/
def Workload.handOverTimes (w : Workload) (machine candidate : Option Machine) (n : Nat) :
    Program Unit :=
  w.performAll (List.replicate n (.forward machine candidate))

section Runs

variable {ι : Type} (w : Workload) (machine candidate : Option Machine)
  (read : ι → Except InventoryFailure (List String) × ι)

/-- Handing over once more is handing over, and the rest after that. -/
theorem run_handOverTimes_succ (n : Nat) (s : Situation (ι × Cluster)) :
    ((w.handOverTimes machine candidate (n + 1)).run (worldWith read) s).trace =
        ((w.forwardLeadership machine candidate).run (worldWith read) s).trace ++
          ((w.handOverTimes machine candidate n).run (worldWith read)
            ((w.forwardLeadership machine candidate).run (worldWith read) s).after).trace ∧
      ((w.handOverTimes machine candidate (n + 1)).run (worldWith read) s).after =
        ((w.handOverTimes machine candidate n).run (worldWith read)
          ((w.forwardLeadership machine candidate).run (worldWith read) s).after).after := by
  simp only [handOverTimes, List.replicate_succ, performAll, perform, run_bind, run_pure,
    List.append_nil, and_self]

/-- One handover asks for no move, or leadership was not settled, and then it goes over at most. -/
theorem run_handover_step (s : Situation (ι × Cluster)) :
    (Still ((w.forwardLeadership machine candidate).run (worldWith read) s).trace ∧
        ((w.forwardLeadership machine candidate).run (worldWith read) s).after.state.2.core =
          s.state.2.core) ∨
      ¬ Settled machine candidate s.state.2.core ∧
        (((w.forwardLeadership machine candidate).run (worldWith read) s).after.state.2.core =
            s.state.2.core ∨
          HandedOver machine candidate s.state.2.core
            ((w.forwardLeadership machine candidate).run (worldWith read) s).after.state.2.core) := by
  have hyields := yields_run (worldWith read) (w.forwardLeadership machine candidate) s
  apply handover_step (forwardLeadership_yields_iff.1 hyields)
  exact replays_run read (w.forwardLeadership machine candidate) s

theorem run_handover (s : Situation (ι × Cluster)) :
    ((w.forwardLeadership machine candidate).run (worldWith read) s).after.state.2.core =
        s.state.2.core ∨
      HandedOver machine candidate s.state.2.core
        ((w.forwardLeadership machine candidate).run (worldWith read) s).after.state.2.core := by
  rcases run_handover_step w machine candidate read s with ⟨-, hcore⟩ | ⟨-, h⟩
  · exact Or.inl hcore
  · exact h

/-- While the member to be left does not lead, no handover asks for a move. -/
theorem settled_handOverTimes (n : Nat) {s : Situation (ι × Cluster)}
    (h : Settled machine candidate s.state.2.core) :
    Still ((w.handOverTimes machine candidate n).run (worldWith read) s).trace ∧
      ((w.handOverTimes machine candidate n).run (worldWith read) s).after.state.2.core =
        s.state.2.core := by
  induction n generalizing s with
  | zero => exact ⟨still_nil, rfl⟩
  | succ n ih =>
    obtain ⟨htrace, hafter⟩ := run_handOverTimes_succ w machine candidate read n s
    rw [htrace, hafter]
    rcases run_handover_step w machine candidate read s with ⟨hstill, hcore⟩ | ⟨hnot, -⟩
    · -- the first handover leaves the cluster settled for the others
      rw [← hcore] at h
      obtain ⟨hrest, hcore'⟩ := ih h
      exact ⟨still_append_iff.2 ⟨hstill, hrest⟩, hcore'.trans hcore⟩
    · exact absurd h hnot

/-- Between two members leadership moves once at most, however often it is handed over. -/
theorem handedOver_handOverTimes (n : Nat) {s : Situation (ι × Cluster)}
    (hapart : LeadsApart machine candidate s.state.2.members) :
    ((w.handOverTimes machine candidate n).run (worldWith read) s).after.state.2.core =
        s.state.2.core ∨
      HandedOver machine candidate s.state.2.core
        ((w.handOverTimes machine candidate n).run (worldWith read) s).after.state.2.core := by
  induction n generalizing s with
  | zero => exact Or.inl rfl
  | succ n ih =>
    obtain ⟨-, hafter⟩ := run_handOverTimes_succ w machine candidate read n s
    rw [hafter]
    rcases run_handover w machine candidate read s with hcore | hmoved
    · -- the other handovers start from the same cluster
      have hmembers := congrArg Cluster.members hcore
      rw [← hcore]
      apply ih
      rw [core_members, core_members] at hmembers
      rwa [hmembers]
    · -- the one move has been made, and the other handovers leave it at that
      obtain ⟨-, hrest⟩ :=
        settled_handOverTimes w machine candidate read n (hmoved.settled hapart)
      rw [hrest]
      exact Or.inr hmoved

end Runs

/-- What handing leadership over between two machines does to a cluster in memory, once and many
times. Nobody is taken out, and nothing changes unless leadership goes from the one member to the
other. Between two members it goes once at most, and after that the same handover never asks for
another. -/
structure HandsOverOnce {ι : Type} (read : ι → Except InventoryFailure (List String) × ι)
    (w : Workload) (machine candidate : Option Machine) (s : Situation (ι × Cluster)) : Prop where
  members : ((w.forwardLeadership machine candidate).run (worldWith read) s).after.state.2.members =
    s.state.2.members
  removed : ((w.forwardLeadership machine candidate).run (worldWith read) s).after.state.2.removed =
    s.state.2.removed
  handed : ((w.forwardLeadership machine candidate).run (worldWith read) s).after.state.2.core =
      s.state.2.core ∨
    HandedOver machine candidate s.state.2.core
      ((w.forwardLeadership machine candidate).run (worldWith read) s).after.state.2.core
  idle : LeadsApart machine candidate s.state.2.members →
    ((w.forwardLeadership machine candidate).run (worldWith read) s).after.state.2.moved ≠
      s.state.2.moved →
    ∀ n, Still ((w.handOverTimes machine candidate n).run (worldWith read)
      ((w.forwardLeadership machine candidate).run (worldWith read) s).after).trace
  once : LeadsApart machine candidate s.state.2.members → ∀ n,
    ((w.handOverTimes machine candidate n).run (worldWith read) s).after.state.2.core =
        s.state.2.core ∨
      HandedOver machine candidate s.state.2.core
        ((w.handOverTimes machine candidate n).run (worldWith read) s).after.state.2.core

/-- Whatever the node names and the faults are, handing leadership over takes nobody out and moves
leadership, if it does so, from the first member on the machine to be left to the first member on
the candidate. If these are two members, leadership goes there once and is not asked to move again.
-/
theorem leadership_does_not_return {ι : Type}
    (read : ι → Except InventoryFailure (List String) × ι) (w : Workload)
    (machine candidate : Option Machine) (s : Situation (ι × Cluster)) :
    HandsOverOnce read w machine candidate s := by
  have hhanded := run_handover w machine candidate read s
  refine ⟨?_, ?_, hhanded, fun hapart hmoved n => ?_, fun hapart n => ?_⟩
  · rcases hhanded with hcore | hmoved
    · exact (congrArg Cluster.members hcore :)
    · exact hmoved.members_eq
  · rcases hhanded with hcore | hmoved
    · exact (congrArg Cluster.removed hcore :)
    · exact hmoved.removed_eq
  · rcases hhanded with hcore | hhanded
    · exact absurd (congrArg Cluster.moved hcore :) hmoved
    · exact (settled_handOverTimes w machine candidate read n (hhanded.settled hapart)).1
  · exact handedOver_handOverTimes w machine candidate read n hapart

/-- The member on `cp-1` leads, and `cp-2` cannot list the members. -/
def ledFromFirst : Situation (Inventory × Cluster) where
  state := (⟨["cp-1", "cp-2", "cp-3"], none⟩, {
    members := [
      { id := 1, name := "etcd-cp-1" },
      { id := 2, name := "etcd-cp-2" },
      { id := 3, name := "etcd-cp-3" }]
    leader := 1
    failingList := ["etcd-cp-2"] })

/-- Leadership moves from `cp-1` to `cp-2` at the first call. The next ones find the leader there,
fail to list the members over that connection, and ask for nothing. -/
theorem leadership_stays_on_second :
    let workload : Workload := ⟨true, {}⟩
    let leaving : Option Machine := some ⟨"m-1", some "cp-1"⟩
    let coming : Option Machine := some ⟨"m-2", some "cp-2"⟩
    let first := (workload.forwardLeadership leaving coming).run Cluster.world ledFromFirst
    LeadsApart leaving coming ledFromFirst.state.2.members ∧ first.after.state.2.moved = [2] ∧
      Still ((workload.handOverTimes leaving coming 3).run Cluster.world first.after).trace := by
  intro workload leaving coming first
  have hapart : LeadsApart leaving coming ledFromFirst.state.2.members := by
    rintro current next ⟨⟨outgoing, hout, hcurrent⟩, ⟨incoming, hin, hnext⟩⟩
    cases hout
    cases hin
    have hfirst := named?_eq_some_iff_hosted.2 hcurrent
    have hsecond := named?_eq_some_iff_hosted.2 hnext
    cases hfirst
    cases hsecond
    decide
  have hmoved : first.after.state.2.moved = [2] := by rfl
  refine ⟨hapart, hmoved, ?_⟩
  apply (leadership_does_not_return _ workload leaving coming ledFromFirst).idle hapart
  show first.after.state.2.moved ≠ []
  rw [hmoved]
  exact List.cons_ne_nil 2 []

end QuorumKeeper
