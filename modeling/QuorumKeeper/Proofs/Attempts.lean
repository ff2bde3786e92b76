import QuorumKeeper.Proofs.CandidateSearch
import QuorumKeeper.Workload

/-!
# Attempts to take out a member

`Attempt` says what an attempt to take out the member under a name exchanges and answers, no more
and no less (`removeMember_yields_iff`). It begins with the inventory, and where the inventory
cannot be read or the guard refuses it ends there. Otherwise it dials the nodes that the guard
leaves, in their order, and acts over the first connection that one of them grants.

`Trace.dialed` gives the endpoints that a trace dials. For a search they are a beginning of its
candidates (`firstAvailable_dials_in_order`), and for an attempt a beginning of the nodes that are
left (`Attempt.opening`).
-/

set_option autoImplicit false

namespace QuorumKeeper

open Program

/-! ## The dials of a search -/

/-- The endpoint that the request dials, if it dials one. -/
def Request.dials? : Request → Option String
  | .create endpoint => some endpoint
  | _ => none

namespace Trace

/-- The endpoints that a trace dials, in order. -/
def dialed (t : List Exchange) : List String :=
  t.filterMap fun x => x.request.dials?

theorem dialed_append (t t' : List Exchange) : dialed (t ++ t') = dialed t ++ dialed t' :=
  List.filterMap_append

end Trace

open Trace

namespace ClientSearch

/-- The missed candidates were dialed in order. -/
theorem dialed_misses (missed : List (Passed Misses)) :
    dialed (missed.flatMap Passed.trace) = missed.map fun p => etcdEndpoint p.node := by
  induction missed with
  | nil => rfl
  | cons p rest ih =>
    rw [List.flatMap_cons, dialed_append, ih, List.map_cons]
    obtain ⟨node, t, e, hskipped⟩ := p
    cases hskipped with
    | dial not_cancelled => rfl

/-- The nodes are dialed in order, from the first one on. -/
theorem firstAvailable_dials_in_order {nodes : List String} {t : List Exchange}
    {v : Except ClientError Client} (h : (firstAvailable nodes).Yields t v) :
    dialed t <+: nodes.map etcdEndpoint := by
  by_cases hnodes : nodes = []
  · subst hnodes
    obtain ⟨rfl, -⟩ := h
    exact List.nil_prefix
  · rw [firstAvailable_yields_iff hnodes] at h
    cases h with
    | @settled missed node left order t' v last =>
      have hlast : dialed t' = [etcdEndpoint node] := by
        cases last with
        | connected client => rfl
        | cancelled cancelled => rfl
      refine ⟨left.map etcdEndpoint, ?_⟩
      rw [dialed_append, dialed_misses, hlast, order]
      simp
    | exhausted missed order =>
      rw [dialed_misses, order, List.map_map]
      exact List.prefix_rfl

/-- A search that succeeds ends with the dial of the connection that it returns. -/
theorem firstAvailable_found {nodes : List String} {t : List Exchange} {client : Client}
    (h : (firstAvailable nodes).Yields t (.ok client)) :
    ∃ (missed : List (Passed Misses)) (node : String) (left : List String),
      nodes = missed.map Passed.node ++ node :: left ∧
        t = missed.flatMap Passed.trace ++ [⟨.create (etcdEndpoint node), .ok client⟩] := by
  by_cases hnodes : nodes = []
  · subst hnodes
    obtain ⟨-, hv⟩ := h
    cases hv
  · rw [firstAvailable_yields_iff hnodes] at h
    cases h with
    | settled missed node left order last =>
      cases last with
      | connected client => exact ⟨missed, node, left, order, rfl⟩

end ClientSearch

open ClientSearch QuorumGuard

/-! ## A single attempt -/

namespace Workload

/-- What reads the inventory first goes on with its nodes, and stops where it cannot be read. -/
theorem controlPlaneNodes_bind_yields_iff {α : Type}
    {next : Except OperationError (List String) → Program (Except OperationError α)}
    (hstops : ∀ e, next (.error e) = pure (.error e)) {t : List Exchange}
    {v : Except OperationError α} :
    (controlPlaneNodes >>= next).Yields t v ↔
      (∃ failure, t = [⟨.nodes, .error failure⟩] ∧ v = .error (.inventory failure)) ∨
      ∃ known t', t = ⟨.nodes, .ok known⟩ :: t' ∧ (next (.ok known)).Yields t' v := by
  constructor
  · rintro ⟨answer, t', rfl, h⟩
    cases answer with
    | error failure =>
      replace h : (next (.error (.inventory failure))).Yields t' v := h
      rw [hstops] at h
      obtain ⟨rfl, rfl⟩ := h
      exact Or.inl ⟨failure, rfl, rfl⟩
    | ok known => exact Or.inr ⟨known, t', rfl, h⟩
  · rintro (⟨failure, rfl, rfl⟩ | ⟨known, t', rfl, h⟩)
    · refine ⟨.error failure, [], rfl, ?_⟩
      show (next (.error (.inventory failure))).Yields [] _
      rw [hstops]
      exact ⟨rfl, rfl⟩
    · exact ⟨.ok known, t', rfl, h⟩

/-- What lists the members first goes on with them, and stops where they cannot be listed. -/
theorem listMembers_bind_yields_iff {α : Type} {client : Client}
    {next : Except OperationError (List Member) → Program (Except OperationError α)}
    (hstops : ∀ e, next (.error e) = pure (.error e)) {t : List Exchange}
    {v : Except OperationError α} :
    (listMembers client >>= next).Yields t v ↔
      (∃ e, t = [⟨.list client, .error e⟩] ∧
        v = .error (.client "failed to list etcd members using etcd client" e)) ∨
      ∃ members t', t = ⟨.list client, .ok members⟩ :: t' ∧
        (next (.ok members)).Yields t' v := by
  constructor
  · rintro ⟨answer, t', rfl, h⟩
    cases answer with
    | error e =>
      replace h : (next (.error (.client _ e))).Yields t' v := h
      rw [hstops] at h
      obtain ⟨rfl, rfl⟩ := h
      exact Or.inl ⟨e, rfl, rfl⟩
    | ok members => exact Or.inr ⟨members, t', rfl, h⟩
  · rintro (⟨e, rfl, rfl⟩ | ⟨members, t', rfl, h⟩)
    · refine ⟨.error e, [], rfl, ?_⟩
      show (next (.error (.client _ e))).Yields [] _
      rw [hstops]
      exact ⟨rfl, rfl⟩
    · exact ⟨.ok members, t', rfl, h⟩

/-- What a use of a connection exchanges, with the search before it and the closing after it. -/
theorem withClient_yields_iff {α : Type} {connect : Program (Except ClientError Client)}
    {use : Client → Program (Except OperationError α)} {t : List Exchange}
    {v : Except OperationError α} :
    (withClient connect use).Yields t v ↔
      (∃ e, connect.Yields t (.error e) ∧ v = .error (.client "failed to create etcd client" e)) ∨
      ∃ t₁ client t₂, t = t₁ ++ t₂ ++ [⟨.drop client, ()⟩] ∧ connect.Yields t₁ (.ok client) ∧
        (use client).Yields t₂ v := by
  rw [withClient, yields_bind]
  constructor
  · rintro ⟨t₁, found, t₂, rfl, hconnect, h⟩
    cases found with
    | error e =>
      obtain ⟨rfl, rfl⟩ := h
      rw [List.append_nil]
      exact Or.inl ⟨e, hconnect, rfl⟩
    | ok client =>
      obtain ⟨t₃, result, t₄, rfl, huse, ⟨⟩, t₅, rfl, rfl, rfl⟩ := yields_bind.1 h
      exact Or.inr ⟨t₁, client, t₃, (List.append_assoc t₁ t₃ _).symm, hconnect, huse⟩
  · rintro (⟨e, hconnect, rfl⟩ | ⟨t₁, client, t₂, rfl, hconnect, huse⟩)
    · exact ⟨t, .error e, [], (List.append_nil t).symm, hconnect, rfl, rfl⟩
    · refine ⟨t₁, .ok client, t₂ ++ [⟨.drop client, ()⟩], List.append_assoc t₁ t₂ _, hconnect, ?_⟩
      exact yields_bind.2 ⟨t₂, v, _, rfl, huse, (), [], rfl, rfl, rfl⟩

/-- Taking out the member under a name over a connection: what is exchanged and answered. -/
inductive NamedRemoval (name : String) (client : Client) :
    List Exchange → Except OperationError Unit → Prop where
  | unlisted (e : ClientError) :
      NamedRemoval name client [⟨.list client, .error e⟩]
        (.error (.client "failed to list etcd members using etcd client" e))
  | absent {members : List Member} (none : Member.named? members name = none) :
      NamedRemoval name client [⟨.list client, .ok members⟩] (.ok ())
  | failed {members : List Member} {m : Member} (first : Member.named? members name = some m)
      (e : ClientError) :
      NamedRemoval name client [⟨.list client, .ok members⟩, ⟨.remove client m.id, .error e⟩]
        (.error (.client ("failed to remove member " ++ m.name ++ " from etcd") e))
  | removed {members : List Member} {m : Member} (first : Member.named? members name = some m) :
      NamedRemoval name client [⟨.list client, .ok members⟩, ⟨.remove client m.id, .ok ()⟩]
        (.ok ())

variable {w : Workload} {name : String} {t : List Exchange} {v : Except OperationError Unit}

/-- A removal on a connection dials nobody. -/
theorem NamedRemoval.dialed_eq_nil {client : Client} (h : NamedRemoval name client t v) :
    dialed t = [] := by
  cases h with
  | unlisted e => rfl
  | absent none => rfl
  | failed first e => rfl
  | removed first => rfl

/-- A removal on a connection lists the members and removes the first match. -/
theorem removeNamed_yields_iff {client : Client} :
    (removeNamed name client).Yields t v ↔ NamedRemoval name client t v := by
  rw [removeNamed, listMembers_bind_yields_iff]
  case hstops =>
    intro e
    rfl
  constructor
  · rintro (⟨e, rfl, rfl⟩ | ⟨members, t, rfl, h⟩)
    · exact .unlisted e
    · cases hm : Member.named? members name with
      | none =>
        simp only [hm] at h
        obtain ⟨rfl, rfl⟩ := h
        exact .absent hm
      | some m =>
        simp only [hm] at h
        obtain ⟨answer, t₃, rfl, h⟩ := h
        cases answer with
        | error e =>
          obtain ⟨rfl, rfl⟩ := h
          exact .failed hm e
        | ok u =>
          obtain ⟨rfl, rfl⟩ := h
          exact .removed hm
  · intro h
    cases h with
    | unlisted e => exact Or.inl ⟨e, rfl, rfl⟩
    | @absent members none =>
      refine Or.inr ⟨members, [], rfl, ?_⟩
      simp only [none]
      exact ⟨rfl, rfl⟩
    | @failed members m first e =>
      refine Or.inr ⟨members, _, rfl, ?_⟩
      simp only [first]
      exact ⟨.error e, [], rfl, rfl, rfl⟩
    | @removed members m first =>
      refine Or.inr ⟨members, _, rfl, ?_⟩
      simp only [first]
      exact ⟨.ok (), [], rfl, rfl, rfl⟩

/-- An attempt to take out the member under a name: what is exchanged and answered. -/
inductive Attempt (w : Workload) (name : String) :
    List Exchange → Except OperationError Unit → Prop where
  | unread (failure : InventoryFailure) :
      Attempt w name [⟨.nodes, .error failure⟩] (.error (.inventory failure))
  | refused {known : List String} (few : (nodesWithout known name).length < w.guard.minimum) :
      Attempt w name [⟨.nodes, .ok known⟩]
        (.error (.belowMinimum w.guard.minimum (nodesWithout known name).length))
  | idle {known : List String} (enough : w.guard.minimum ≤ (nodesWithout known name).length)
      (access : w.hasAccess = false) : Attempt w name [⟨.nodes, .ok known⟩] (.ok ())
  | unconnected {known : List String}
      (enough : w.guard.minimum ≤ (nodesWithout known name).length) (access : w.hasAccess = true)
      {t : List Exchange} {e : ClientError}
      (search : (firstAvailable (nodesWithout known name)).Yields t (.error e)) :
      Attempt w name (⟨.nodes, .ok known⟩ :: t)
        (.error (.client "failed to create etcd client" e))
  | connected {known : List String}
      (enough : w.guard.minimum ≤ (nodesWithout known name).length) (access : w.hasAccess = true)
      {t t' : List Exchange} {client : Client} {v : Except OperationError Unit}
      (search : (firstAvailable (nodesWithout known name)).Yields t (.ok client))
      (use : NamedRemoval name client t' v) :
      Attempt w name (⟨.nodes, .ok known⟩ :: (t ++ t' ++ [⟨.drop client, ()⟩])) v

/-- A removal is one attempt. -/
theorem removeMember_yields_iff : (w.removeMember name).Yields t v ↔ Attempt w name t v := by
  rw [removeMember, controlPlaneNodes_bind_yields_iff]
  case hstops =>
    intro e
    rfl
  constructor
  · rintro (⟨failure, rfl, rfl⟩ | ⟨known, t, rfl, h⟩)
    · exact .unread failure
    · cases hleft : w.guard.remaining known name with
      | error e =>
        simp only [hleft] at h
        obtain ⟨rfl, rfl⟩ := h
        obtain ⟨hfew, rfl⟩ := remaining_eq_error_iff.1 hleft
        exact .refused hfew
      | ok left =>
        simp only [hleft] at h
        obtain ⟨henough, rfl⟩ := remaining_eq_ok_iff.1 hleft
        -- the guard is passed before it matters whether there is access
        cases haccess : w.hasAccess with
        | false =>
          simp only [haccess] at h
          obtain ⟨rfl, rfl⟩ := h
          exact .idle henough haccess
        | true =>
          simp only [haccess, if_true, withClient_yields_iff] at h
          obtain ⟨e, hsearch, rfl⟩ | ⟨t₄, client, t₅, rfl, hsearch, huse⟩ := h
          · exact .unconnected henough haccess hsearch
          · exact .connected henough haccess hsearch (removeNamed_yields_iff.1 huse)
  · intro h
    cases h with
    | unread failure => exact Or.inl ⟨failure, rfl, rfl⟩
    | @refused known few =>
      refine Or.inr ⟨known, [], rfl, ?_⟩
      simp only [remaining_eq_error_iff.2 ⟨few, rfl⟩]
      exact ⟨rfl, rfl⟩
    | @idle known enough access =>
      refine Or.inr ⟨known, [], rfl, ?_⟩
      simp only [remaining_eq_ok_iff.2 ⟨enough, rfl⟩, access]
      exact ⟨rfl, rfl⟩
    | @unconnected known enough access t e search =>
      refine Or.inr ⟨known, t, rfl, ?_⟩
      simp only [remaining_eq_ok_iff.2 ⟨enough, rfl⟩, access, if_true]
      exact withClient_yields_iff.2 (Or.inl ⟨e, search, rfl⟩)
    | @connected known enough access t₁ t₂ client v search use =>
      refine Or.inr ⟨known, _, rfl, ?_⟩
      simp only [remaining_eq_ok_iff.2 ⟨enough, rfl⟩, access, if_true]
      refine withClient_yields_iff.2 (Or.inr ⟨t₁, client, t₂, rfl, search, ?_⟩)
      exact removeNamed_yields_iff.2 use

/-- An attempt begins with the inventory, and the guard decides what may follow. -/
theorem Attempt.opening (h : Attempt w name t v) :
    ∃ answer rest, t = ⟨.nodes, answer⟩ :: rest ∧
      match answer with
      | .error failure => rest = [] ∧ v = .error (.inventory failure)
      | .ok known =>
        ((nodesWithout known name).length < w.guard.minimum → rest = [] ∧
          v = .error (.belowMinimum w.guard.minimum (nodesWithout known name).length)) ∧
        (w.guard.minimum ≤ (nodesWithout known name).length →
          dialed rest <+: (nodesWithout known name).map etcdEndpoint) := by
  cases h with
  | unread failure => exact ⟨.error failure, [], rfl, rfl, rfl⟩
  | @refused known few =>
    refine ⟨.ok known, [], rfl, fun _ => ⟨rfl, rfl⟩, fun enough => ?_⟩
    exact absurd enough (Nat.not_le.2 few)
  | @idle known enough access =>
    refine ⟨.ok known, [], rfl, fun few => ?_, fun _ => List.nil_prefix⟩
    exact absurd enough (Nat.not_le.2 few)
  | @unconnected known enough access t e search =>
    refine ⟨.ok known, t, rfl, fun few => ?_, fun _ => firstAvailable_dials_in_order search⟩
    exact absurd enough (Nat.not_le.2 few)
  | @connected known enough access t₁ t₂ client v search use =>
    refine ⟨.ok known, _, rfl, fun few => absurd enough (Nat.not_le.2 few), fun _ => ?_⟩
    have hsearch : dialed (t₁ ++ t₂ ++ [⟨.drop client, ()⟩]) = dialed t₁ := by
      rw [dialed_append, dialed_append, use.dialed_eq_nil, List.append_nil]
      exact List.append_nil _
    rw [hsearch]
    exact firstAvailable_dials_in_order search

end Workload

end QuorumKeeper
