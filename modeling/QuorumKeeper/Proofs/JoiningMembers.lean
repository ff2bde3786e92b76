import QuorumKeeper.Proofs.GuardedRemovals
import QuorumKeeper.Proofs.Handovers
import QuorumKeeper.Store.InMemory

/-!
# Members that have not joined yet

A member has an empty name until its process has joined, and until then it must not be taken out.
Reconciling skips such members in the list that it reads first, but the removal finds its member in
a list of its own, read later and over another connection. What protects them there is the search
by name: the removal takes the first member whose name contains the name it aims at, and a name that
contains one that is not empty is not empty itself (`Hosted.name_ne_empty`).

`Operation.NamesTarget` leaves out the removals that are told to aim at the empty name, and
`joining_members_stay` says that no other operation takes out a member that has not joined.
-/

set_option autoImplicit false

namespace QuorumKeeper

open Program Trace Member

/-! ## Removals by name -/

theorem Member.Hosted.mem {name : String} {members : List Member} {m : Member}
    (h : Hosted name members m) : m ∈ members := by
  obtain ⟨-, pre, post, rfl, -⟩ := h
  exact List.mem_append_right pre List.mem_cons_self

/-- Only members that have joined are found under a name that is not empty. -/
theorem Member.Hosted.name_ne_empty {name : String} {members : List Member} {m : Member}
    (h : Hosted name members m) (hname : name ≠ "") : m.name ≠ "" := by
  obtain ⟨hsub, -⟩ := h
  intro hempty
  rw [hempty] at hsub
  exact hname (String.toList_eq_nil_iff.1 (List.infix_nil.1 hsub))

/-- The id belongs to a member that a list shows under a name, and the search for a name that is not
empty leads to this member. Where ids are distinct, it belongs to none without a name. -/
structure Resolved (members : List Member) (id : UInt64) : Prop where
  byName : ∃ target m, target ≠ "" ∧ Hosted target members m ∧ m.name ≠ "" ∧ m.id = id
  spares : DistinctIds members → ∀ m ∈ members, m.name = "" → m.id ≠ id

/-- The first member in a node's name is the one that name resolves to. -/
theorem Member.Hosted.resolved {name : String} {members : List Member} {m : Member}
    (h : Hosted name members m) (hname : name ≠ "") : Resolved members m.id where
  byName := ⟨name, m, hname, h, h.name_ne_empty hname, rfl⟩
  spares := by
    intro hdistinct other hother hempty hid
    obtain rfl : other = m := hdistinct.eq_of_id hother h.mem hid
    exact h.name_ne_empty hname hempty

/-- Directly before the removal the members were listed over the same connection, and its id was
resolved in that list. -/
def ResolvedBefore (before : List Exchange) (client : Client) (id : UInt64) : Prop :=
  ∃ earlier members, before = earlier ++ [⟨.list client, .ok members⟩] ∧ Resolved members id

/-- The operation is not told to take out whoever the empty name leads to. -/
def Operation.NamesTarget : Operation → Prop
  | .remove name => name ≠ ""
  | .removeForMachine machine => nodeOf machine ≠ some ""
  | _ => True

/-- Stale members have joined, so an operation aims at the empty name only if it is given it. -/
theorem Operation.AimsAt.ne_empty {op : Operation} {before : List Exchange} {name : String}
    (h : op.AimsAt before name) (hop : op.NamesTarget) : name ≠ "" := by
  cases h with
  | stale listed shown stale =>
    rw [Workload.isStale, Bool.and_eq_true] at stale
    exact bne_iff_ne.1 stale.1
  | named => exact hop
  | hosted host =>
    rintro rfl
    exact hop host

/-- Where nobody aims at the empty name, what justifies a removal resolves its id. -/
theorem Justified.resolvedBefore {guard : QuorumGuard} {Aims : List Exchange → String → Prop}
    {before : List Exchange} {client : Client} {id : UInt64}
    (h : Justified guard Aims before client id) (haims : ∀ past name, Aims past name → name ≠ "") :
    ResolvedBefore before client id := by
  obtain ⟨earlier, attempt, name, rfl, haim, hattempt⟩ := h
  cases hattempt with
  | @intro known left missed node members m enough order first =>
    -- the attempt ends with the list in which the member was found
    refine ⟨earlier ++ ⟨.nodes, .ok known⟩ :: missed.flatMap ClientSearch.Passed.trace ++
      [⟨.create (etcdEndpoint node), .ok client⟩], members, by simp, ?_⟩
    exact (named?_eq_some_iff_hosted.1 first).resolved (haims earlier name haim)

/-- Against any world, an operation that is not told to aim at the empty name takes out nobody but
members that have joined: directly before each removal the members were listed over the same
connection, its id was found there by a name that is not empty, and with distinct ids in this list
it is the id of no member without a name. So it is in every sequence of such operations. -/
theorem joining_members_stay {σ : Type} (world : World σ) (s : Situation σ) (w : Workload) :
    (∀ nodes, RemovesOnly ResolvedBefore ((w.reconcile nodes).run world s).trace) ∧
    (∀ name, name ≠ "" →
      RemovesOnly ResolvedBefore ((w.removeMember name).run world s).trace) ∧
    (∀ machine, nodeOf machine ≠ some "" →
      RemovesOnly ResolvedBefore ((w.removeForMachine machine).run world s).trace) ∧
    ∀ ops : List Operation, (∀ op ∈ ops, op.NamesTarget) →
      RemovesOnly ResolvedBefore ((w.performAll ops).run world s).trace := by
  refine ⟨fun nodes => ?_, fun name hname => ?_, fun machine hmachine => ?_, fun ops hops => ?_⟩
  · refine ((w.reconcile_justifies nodes).run world s).mono fun before client id h => ?_
    exact h.resolvedBefore fun past name haim => haim.ne_empty trivial
  · have haims : (Operation.remove name).AimsAt [] name := .named
    refine ((w.removeMember_justifies haims).run world s).mono fun before client id h => ?_
    exact h.resolvedBefore fun past target haim => haim.ne_empty hname
  · refine ((w.removeForMachine_justifies machine).run world s).mono fun before client id h => ?_
    exact h.resolvedBefore fun past target haim => haim.ne_empty hmachine
  · refine ((w.performAll_justifies ops).run world s).mono fun before client id h => ?_
    refine h.resolvedBefore fun past target haim => ?_
    obtain ⟨op, hop, haim⟩ := haim
    exact haim.ne_empty (hops op hop)

/-- The first member of the list has not joined, and the node of the second one is gone. -/
def oneYetToJoin : Situation (Inventory × Cluster) :=
  ⟨0, { nodes := ["cp-2"] },
    { members := [{ id := 7, name := "" }, { id := 1, name := "etcd-cp-1" },
        { id := 2, name := "etcd-cp-2" }],
      leader := 2 }⟩

/-- However the departed node's member is taken out, the one that has not joined stays. -/
theorem departed_member_removed_past_joining_one :
    let w : Workload := ⟨true, {}⟩
    let departed : Option Machine := some ⟨"m-1", some "cp-1"⟩
    let ops : List Operation := [.removeForMachine departed, .reconcile ["cp-2"]]
    let single := (w.removeMember "cp-1").run Cluster.store.world oneYetToJoin
    let hosted := (w.removeForMachine departed).run Cluster.store.world oneYetToJoin
    let several := (w.performAll ops).run Cluster.store.world oneYetToJoin
    (RemovesOnly ResolvedBefore single.trace ∧ single.after.state.2.removed = [1]) ∧
      (RemovesOnly ResolvedBefore hosted.trace ∧ hosted.after.state.2.removed = [1]) ∧
      RemovesOnly ResolvedBefore several.trace ∧
      several.after.state.2.members.map Member.id = [7, 2] := by
  intro w departed ops single hosted several
  have hnode : nodeOf departed ≠ some "" := by decide
  have hops : ∀ op ∈ ops, op.NamesTarget := by
    intro op hop
    rcases List.mem_pair.1 hop with rfl | rfl
    · exact hnode
    · trivial
  obtain ⟨-, hsingle, hhosted, hseveral⟩ :=
    joining_members_stay Cluster.store.world oneYetToJoin w
  exact ⟨⟨hsingle "cp-1" (by decide), by rfl⟩, ⟨hhosted departed hnode, by rfl⟩,
    hseveral ops hops, by rfl⟩

end QuorumKeeper
