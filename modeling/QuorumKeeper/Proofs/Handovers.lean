import QuorumKeeper.Proofs.Attempts
import QuorumKeeper.Proofs.FreshListing
import QuorumKeeper.Proofs.LeaderSearch
import QuorumKeeper.Proofs.MemberLists

/-!
# Handing leadership over

`Handover` says what a handover between two machines exchanges and answers, exit by exit in the
order in which they are taken (`forwardLeadership_yields_iff`): the machines are looked at first,
then the access to etcd, then the inventory is read and the leader searched for, and over the
connection to it the members are listed.

`Due` names the exchanges after which leadership has to move: the leader that was connected sits on
the node that is to be left, and the list has a member on the candidate's node. A handover moves
leadership right after such exchanges, and in no other place; then nothing is left but to close the
connection (`leadership_moves_when_due`).
-/

set_option autoImplicit false

namespace QuorumKeeper

open Program

namespace Member

/-- The member of the list that a node's name leads to: the first whose name contains it. -/
def Hosted (node : String) (members : List Member) (m : Member) : Prop :=
  IsFirst (fun x => node.toList <:+: x.name.toList) members m

variable {members : List Member} {node : String}

/-- A name resolves to its first host among the members. -/
theorem named?_eq_some_iff_hosted {m : Member} :
    named? members node = some m ↔ Hosted node members m := by
  simp only [named?_eq_some_iff, Hosted, IsFirst, ← isOn_iff, Bool.not_eq_true]

/-- A name without a host resolves to nobody. -/
theorem named?_eq_none_iff_unhosted :
    named? members node = none ↔ ∀ m ∈ members, ¬ node.toList <:+: m.name.toList := by
  simp only [named?_eq_none_iff, ← isOn_iff, Bool.not_eq_true]

/-- The member on the node is the leader with this id. -/
def Leads (node : String) (members : List Member) (leader : UInt64) (m : Member) : Prop :=
  Hosted node members m ∧ m.id = leader

/-- The first match is the leader exactly when it leads. -/
theorem filter_named?_eq_some_iff {leader : UInt64} {m : Member} :
    (named? members node).filter (·.id == leader) = some m ↔ Leads node members leader m := by
  simp only [Option.filter_eq_some_iff, named?_eq_some_iff_hosted, Leads, beq_iff_eq]

theorem filter_named?_eq_none_iff {leader : UInt64} :
    (named? members node).filter (·.id == leader) = none ↔
      ∀ m, ¬ Leads node members leader m := by
  simp only [Option.eq_none_iff_forall_ne_some, ne_eq, filter_named?_eq_some_iff]

end Member

namespace Trace

variable {t t' : List Exchange}

/-- Leadership is not moved by any exchange of the trace. -/
def Still (t : List Exchange) : Prop :=
  ∀ x ∈ t, x.request.isMove = false

@[simp] theorem still_nil : Still [] := by
  simp [Still]

@[simp] theorem still_cons_iff {x : Exchange} :
    Still (x :: t) ↔ x.request.isMove = false ∧ Still t :=
  List.forall_mem_cons

@[simp] theorem still_append_iff : Still (t ++ t') ↔ Still t ∧ Still t' :=
  List.forall_mem_append

/-- A still trace has no move in it. -/
theorem Still.not_mem_move (h : Still t) {client : Client} {id : UInt64}
    {answer : Except ClientError Unit} : ⟨.move client id, answer⟩ ∉ t := by
  intro hmem
  cases h _ hmem

/-- A move of leadership among exchanges of which no other is one stands in the one place. -/
theorem move_split {p q before after : List Exchange} {x y : Exchange} (hp : Still p) (hq : Still q)
    (hx : x.request.isMove = true) (heq : p ++ y :: q = before ++ x :: after) :
    before = p ∧ x = y ∧ after = q := by
  rcases List.append_eq_append_iff.1 heq with ⟨c, rfl, hc⟩ | ⟨c, rfl, hc⟩
  · cases c with
    | nil =>
      obtain ⟨rfl, rfl⟩ := List.cons.inj hc
      exact ⟨List.append_nil p, rfl, rfl⟩
    | cons z c =>
      obtain ⟨rfl, rfl⟩ := List.cons.inj hc
      rw [hq x (by simp)] at hx
      cases hx
  · cases c with
    | nil =>
      obtain ⟨rfl, rfl⟩ := List.cons.inj hc
      exact ⟨(List.append_nil before).symm, rfl, rfl⟩
    | cons z c =>
      obtain ⟨rfl, rfl⟩ := List.cons.inj hc
      rw [hp x (by simp)] at hx
      cases hx

end Trace

open Member Trace

namespace Workload

/-- Handing leadership over on a connection to the leader: what is exchanged and answered. Where the
leader is elsewhere there is nothing to hand over. -/
inductive LeaderMove (outgoing incoming : String) (client : Client) :
    List Exchange → Except OperationError Unit → Prop where
  | unlisted (e : ClientError) :
      LeaderMove outgoing incoming client [⟨.list client, .error e⟩]
        (.error (.client "failed to list etcd members using etcd client" e))
  | elsewhere {members : List Member}
      (other : ∀ m, ¬ Leads outgoing members client.leader m) :
      LeaderMove outgoing incoming client [⟨.list client, .ok members⟩] (.ok ())
  | absent {members : List Member} {current : Member}
      (leads : Leads outgoing members client.leader current)
      (unhosted : ∀ m ∈ members, ¬ incoming.toList <:+: m.name.toList) :
      LeaderMove outgoing incoming client [⟨.list client, .ok members⟩]
        (.error (.memberNotFound incoming))
  | failed {members : List Member} {current next : Member}
      (leads : Leads outgoing members client.leader current)
      (heir : Hosted incoming members next) (e : ClientError) :
      LeaderMove outgoing incoming client
        [⟨.list client, .ok members⟩, ⟨.move client next.id, .error e⟩]
        (.error (.client "failed to move leader" e))
  | moved {members : List Member} {current next : Member}
      (leads : Leads outgoing members client.leader current)
      (heir : Hosted incoming members next) :
      LeaderMove outgoing incoming client
        [⟨.list client, .ok members⟩, ⟨.move client next.id, .ok ()⟩] (.ok ())

variable {outgoing incoming : String} {client : Client} {t : List Exchange}
  {v : Except OperationError Unit}

theorem leaderMove_of_yields (hmove : (moveLeader outgoing incoming client).Yields t v) :
    LeaderMove outgoing incoming client t v := by
  rw [moveLeader, listMembers_bind_yields_iff] at hmove
  case hstops =>
    intro e
    rfl
  obtain ⟨e, rfl, rfl⟩ | ⟨members, t, rfl, h⟩ := hmove
  · exact .unlisted e
  · cases hcurrent : (named? members outgoing).filter (·.id == client.leader) with
    | none =>
      simp only [hcurrent] at h
      obtain ⟨rfl, rfl⟩ := yields_report_bind.1 h
      exact .elsewhere (filter_named?_eq_none_iff.1 hcurrent)
    | some current =>
      have hleads := filter_named?_eq_some_iff.1 hcurrent
      cases hnext : named? members incoming with
      | none =>
        simp only [hcurrent, hnext] at h
        obtain ⟨rfl, rfl⟩ := h
        exact .absent hleads (named?_eq_none_iff_unhosted.1 hnext)
      | some next =>
        have hheir := named?_eq_some_iff_hosted.1 hnext
        simp only [hcurrent, hnext] at h
        obtain ⟨answer, t₃, rfl, h⟩ := h
        cases answer with
        | error e =>
          obtain ⟨rfl, rfl⟩ := h
          exact .failed hleads hheir e
        | ok u =>
          obtain ⟨rfl, rfl⟩ := h
          exact .moved hleads hheir

theorem yields_of_leaderMove (h : LeaderMove outgoing incoming client t v) :
    (moveLeader outgoing incoming client).Yields t v := by
  rw [moveLeader, listMembers_bind_yields_iff]
  case hstops =>
    intro e
    rfl
  cases h with
  | unlisted e => exact Or.inl ⟨e, rfl, rfl⟩
  | @elsewhere members other =>
    refine Or.inr ⟨members, [], rfl, ?_⟩
    simp only [filter_named?_eq_none_iff.2 other]
    exact yields_report_bind.2 ⟨rfl, rfl⟩
  | @absent members current leads unhosted =>
    refine Or.inr ⟨members, [], rfl, ?_⟩
    simp only [filter_named?_eq_some_iff.2 leads, named?_eq_none_iff_unhosted.2 unhosted]
    exact ⟨rfl, rfl⟩
  | @failed members current next leads heir e =>
    refine Or.inr ⟨members, _, rfl, ?_⟩
    simp only [filter_named?_eq_some_iff.2 leads, named?_eq_some_iff_hosted.2 heir]
    exact ⟨.error e, [], rfl, rfl, rfl⟩
  | @moved members current next leads heir =>
    refine Or.inr ⟨members, _, rfl, ?_⟩
    simp only [filter_named?_eq_some_iff.2 leads, named?_eq_some_iff_hosted.2 heir]
    exact ⟨.ok (), [], rfl, rfl, rfl⟩

/-- A move on a connection lists the members and asks for at most one move. -/
theorem moveLeader_yields_iff :
    (moveLeader outgoing incoming client).Yields t v ↔ LeaderMove outgoing incoming client t v :=
  ⟨leaderMove_of_yields, yields_of_leaderMove⟩

/-- Using a connection to the leader, given what the use exchanges and answers. -/
inductive Led {α : Type} (Uses : Client → List Exchange → Except OperationError α → Prop) :
    List Exchange → Except OperationError α → Prop where
  | unread (failure : InventoryFailure) :
      Led Uses [⟨.nodes, .error failure⟩] (.error (.inventory failure))
  | leaderless {known : List String} {t : List Exchange} {e : ClientError}
      (search : (ClientSearch.leaderClient known).Yields t (.error e)) :
      Led Uses (⟨.nodes, .ok known⟩ :: t) (.error (.client "failed to create etcd client" e))
  | connected {known : List String} {t t' : List Exchange} {client : Client}
      {v : Except OperationError α}
      (search : (ClientSearch.leaderClient known).Yields t (.ok client)) (use : Uses client t' v) :
      Led Uses (⟨.nodes, .ok known⟩ :: (t ++ t' ++ [⟨.drop client, ()⟩])) v

/-- Work with the leader is work on the connection a search for it gives. -/
theorem withLeader_yields_iff {α : Type} {use : Client → Program (Except OperationError α)}
    {t : List Exchange} {v : Except OperationError α} :
    (withLeader use).Yields t v ↔ Led (fun client => (use client).Yields) t v := by
  rw [withLeader, controlPlaneNodes_bind_yields_iff]
  case hstops =>
    intro e
    rfl
  constructor
  · rintro (⟨failure, rfl, rfl⟩ | ⟨known, t, rfl, h⟩)
    · exact .unread failure
    · obtain ⟨e, hsearch, rfl⟩ | ⟨t₃, client, t₄, rfl, hsearch, huse⟩ := withClient_yields_iff.1 h
      · exact .leaderless hsearch
      · exact .connected hsearch huse
  · intro h
    cases h with
    | unread failure => exact Or.inl ⟨failure, rfl, rfl⟩
    | @leaderless known t e search =>
      exact Or.inr ⟨known, t, rfl, withClient_yields_iff.2 (Or.inl ⟨e, search, rfl⟩)⟩
    | @connected known t t' client v search use =>
      refine Or.inr ⟨known, _, rfl, withClient_yields_iff.2 (Or.inr ?_)⟩
      exact ⟨t, client, t', rfl, search, use⟩

/-- A handover from one machine to another: what is exchanged and answered. -/
inductive Handover (w : Workload) (machine candidate : Option Machine) :
    List Exchange → Except OperationError Unit → Prop where
  | nothing (unhosted : nodeOf machine = none) : Handover w machine candidate [] (.ok ())
  | missing {outgoing : String} (leaves : nodeOf machine = some outgoing)
      (missing : candidate = none) : Handover w machine candidate [] (.error .missingCandidate)
  | withoutNode {outgoing : String} (leaves : nodeOf machine = some outgoing) {c : Machine}
      (present : candidate = some c) (unhosted : c.node = none) :
      Handover w machine candidate [] (.error (.candidateWithoutNode c.name))
  | idle {outgoing incoming : String} (leaves : nodeOf machine = some outgoing)
      (comes : nodeOf candidate = some incoming) (access : w.hasAccess = false) :
      Handover w machine candidate [] (.ok ())
  | begun {outgoing incoming : String} (leaves : nodeOf machine = some outgoing)
      (comes : nodeOf candidate = some incoming) (access : w.hasAccess = true)
      {t : List Exchange} {v : Except OperationError Unit}
      (led : Led (LeaderMove outgoing incoming) t v) : Handover w machine candidate t v

variable {w : Workload} {machine candidate : Option Machine}

theorem led_moveLeader_iff :
    Led (fun client => (moveLeader outgoing incoming client).Yields) t v ↔
      Led (LeaderMove outgoing incoming) t v := by
  have huses : (fun client => (moveLeader outgoing incoming client).Yields) =
      LeaderMove outgoing incoming := by
    funext client t v
    exact propext moveLeader_yields_iff
  rw [huses]

theorem handover_of_yields (h : (w.forwardLeadership machine candidate).Yields t v) :
    Handover w machine candidate t v := by
  unfold forwardLeadership at h
  cases hmachine : nodeOf machine with
  | none =>
    simp only [hmachine] at h
    obtain ⟨rfl, rfl⟩ := h
    exact .nothing hmachine
  | some outgoing =>
    cases hcandidate : candidate with
    | none =>
      simp only [hmachine, hcandidate] at h
      obtain ⟨rfl, rfl⟩ := h
      exact .missing hmachine rfl
    | some c =>
      cases hnode : c.node with
      | none =>
        simp only [hmachine, hcandidate, hnode] at h
        obtain ⟨rfl, rfl⟩ := h
        exact .withoutNode hmachine rfl hnode
      | some incoming =>
        have hcomes : nodeOf (some c) = some incoming := hnode
        simp only [hmachine, hcandidate, hnode] at h
        cases haccess : w.hasAccess with
        | false =>
          simp only [haccess] at h
          obtain ⟨rfl, rfl⟩ := h
          exact .idle hmachine hcomes haccess
        | true =>
          simp only [haccess, if_true] at h
          exact .begun hmachine hcomes haccess (led_moveLeader_iff.1 (withLeader_yields_iff.1 h))

theorem yields_of_handover (h : Handover w machine candidate t v) :
    (w.forwardLeadership machine candidate).Yields t v := by
  unfold forwardLeadership
  cases h with
  | nothing unhosted =>
    simp only [unhosted]
    exact ⟨rfl, rfl⟩
  | missing leaves missing =>
    simp only [leaves, missing]
    exact ⟨rfl, rfl⟩
  | withoutNode leaves present unhosted =>
    simp only [leaves, present, unhosted]
    exact ⟨rfl, rfl⟩
  | idle leaves comes access =>
    obtain ⟨c, rfl, hnode⟩ := Option.bind_eq_some_iff.1 comes
    simp only [leaves, hnode, access]
    exact ⟨rfl, rfl⟩
  | begun leaves comes access led =>
    obtain ⟨c, rfl, hnode⟩ := Option.bind_eq_some_iff.1 comes
    simp only [leaves, hnode, access, if_true]
    exact withLeader_yields_iff.2 (led_moveLeader_iff.2 led)

/-- Forwarding leadership is a handover. -/
theorem forwardLeadership_yields_iff :
    (w.forwardLeadership machine candidate).Yields t v ↔ Handover w machine candidate t v :=
  ⟨handover_of_yields, yields_of_handover⟩

/-! ## When leadership moves -/

/-- After these exchanges leadership has to move over the connection, to the member with the id. -/
inductive Due (w : Workload) (machine candidate : Option Machine) :
    List Exchange → Client → UInt64 → Prop where
  | intro {outgoing incoming : String} (leaves : nodeOf machine = some outgoing)
      (comes : nodeOf candidate = some incoming) (access : w.hasAccess = true)
      {known : List String} {t : List Exchange} {client : Client}
      (search : (ClientSearch.leaderClient known).Yields t (.ok client)) {members : List Member}
      {current next : Member} (leads : Leads outgoing members client.leader current)
      (heir : Hosted incoming members next) :
      Due w machine candidate (⟨.nodes, .ok known⟩ :: t ++ [⟨.list client, .ok members⟩]) client
        next.id

variable {before after : List Exchange} {id : UInt64}

/-- Whatever the move is answered, it belongs to a handover, and the connection is closed after
it. -/
theorem Due.handover (h : Due w machine candidate before client id)
    (answer : Except ClientError Unit) :
    ∃ v, Handover w machine candidate
      (before ++ [⟨.move client id, answer⟩, ⟨.drop client, ()⟩]) v := by
  cases h with
  | @intro outgoing incoming leaves comes access known t client search members current next leads
      heir =>
    have hjoin (x : Exchange) :
        ⟨.nodes, .ok known⟩ :: t ++ [⟨.list client, .ok members⟩] ++ [x, ⟨.drop client, ()⟩] =
          ⟨.nodes, .ok known⟩ :: (t ++ [⟨.list client, .ok members⟩, x] ++ [⟨.drop client, ()⟩]) := by
      simp
    rw [hjoin]
    cases answer with
    | error e => exact ⟨_, .begun leaves comes access (.connected search (.failed leads heir e))⟩
    | ok u => exact ⟨_, .begun leaves comes access (.connected search (.moved leads heir))⟩

/-- Searching for the leader moves it nowhere. -/
theorem leaderClient_still {known : List String} {v : Except ClientError Client}
    (h : (ClientSearch.leaderClient known).Yields t v) : Still t := by
  have hcareful : Careful 0 0 t :=
    ensures_iff_yields.1 (ClientSearch.leaderClient_isCareful known) t v h
  have hnone : moves t = 0 := by exact_mod_cast nonpos_iff_eq_zero.1 hcareful.moves_le
  simpa [Still] using List.countP_eq_zero.1 hnone

/-- Over the connection leadership stays, or it moves right after the listing that shows why. -/
theorem LeaderMove.still_or_moves (h : LeaderMove outgoing incoming client t v) :
    Still t ∨ ∃ members current next answer, Leads outgoing members client.leader current ∧
      Hosted incoming members next ∧
        t = [⟨.list client, .ok members⟩, ⟨.move client next.id, answer⟩] := by
  cases h with
  | unlisted e => exact Or.inl (by simp [Request.isMove])
  | elsewhere other => exact Or.inl (by simp [Request.isMove])
  | absent leads unhosted => exact Or.inl (by simp [Request.isMove])
  | failed leads heir e => exact Or.inr ⟨_, _, _, .error e, leads, heir, rfl⟩
  | moved leads heir => exact Or.inr ⟨_, _, _, .ok (), leads, heir, rfl⟩

/-- Leadership moves only where that is due, and then the connection is closed and all is done. -/
theorem Handover.move_due (h : Handover w machine candidate t v) {answer : Except ClientError Unit}
    (heq : t = before ++ ⟨.move client id, answer⟩ :: after) :
    Due w machine candidate before client id ∧ after = [⟨.drop client, ()⟩] := by
  have hmem : ⟨.move client id, answer⟩ ∈ t := by simp [heq]
  cases h with
  | nothing unhosted => cases hmem
  | missing leaves missing => cases hmem
  | withoutNode leaves present unhosted => cases hmem
  | idle leaves comes access => cases hmem
  | begun leaves comes access led =>
    cases led with
    | unread failure =>
      refine absurd hmem (Still.not_mem_move ?_)
      simp [Request.isMove]
    | leaderless search =>
      refine absurd hmem (Still.not_mem_move ?_)
      simp [Request.isMove, leaderClient_still search]
    | @connected known t₁ t₂ c v search use =>
      have hsearch := leaderClient_still search
      rcases use.still_or_moves with hstill | ⟨members, current, next, answer', leads, heir, rfl⟩
      · refine absurd hmem (Still.not_mem_move ?_)
        simp [Request.isMove, hsearch, hstill]
      · -- neither the exchanges up to the listing nor the closing are moves
        have hsplit : (⟨.nodes, .ok known⟩ :: t₁ ++ [⟨.list c, .ok members⟩]) ++
            ⟨.move c next.id, answer'⟩ :: [⟨.drop c, ()⟩] =
              before ++ ⟨.move client id, answer⟩ :: after := by
          simpa using heq
        obtain ⟨rfl, hsame, rfl⟩ := move_split (by simp [Request.isMove, hsearch])
          (by simp [Request.isMove]) rfl hsplit
        cases hsame
        exact ⟨.intro leaves comes access search leads heir, rfl⟩

/-- What a handover between two machines does, in a run that leaves this outcome. The answer is that
of a handover with these exchanges, and of no other; leadership moves as soon as that is due, once,
and in no other place. -/
structure HandsOver (w : Workload) (machine candidate : Option Machine) {σ : Type}
    (o : Outcome σ (Except OperationError Unit)) : Prop where
  answer : ∀ v, Handover w machine candidate o.trace v ↔ o.value = v
  due : ∀ before client id after, o.trace = before ++ after →
    Due w machine candidate before client id →
      ∃ answer, after = [⟨.move client id, answer⟩, ⟨.drop client, ()⟩]
  only : ∀ before client id answer after, o.trace = before ++ ⟨.move client id, answer⟩ :: after →
    Due w machine candidate before client id ∧ after = [⟨.drop client, ()⟩]

end Workload

open Workload

/-- Against any world, leadership moves exactly when the machine to be left leads and the candidate
can take over, and the answer tells which of the conditions failed first, if one did. -/
theorem leadership_moves_when_due {σ : Type} (world : World σ) (s : Situation σ) (w : Workload)
    (machine candidate : Option Machine) :
    HandsOver w machine candidate ((w.forwardLeadership machine candidate).run world s) := by
  have hyields := yields_run world (w.forwardLeadership machine candidate) s
  have hhandover := forwardLeadership_yields_iff.1 hyields
  refine ⟨fun v => ?_, fun before client id after heq hdue => ?_,
    fun before client id answer after heq => hhandover.move_due heq⟩
  · constructor
    · intro h
      exact hyields.unique (forwardLeadership_yields_iff.2 h)
    · rintro rfl
      exact hhandover
  · -- after the same exchanges a handover with a move is possible, so the move comes next here
    obtain ⟨v, hmoves⟩ := hdue.handover (.ok ())
    rw [heq] at hyields
    obtain ⟨answer, rest, rfl⟩ := (forwardLeadership_yields_iff.2 hmoves).same_request hyields
    obtain ⟨-, rfl⟩ := hhandover.move_due heq
    exact ⟨answer, rfl⟩

end QuorumKeeper
