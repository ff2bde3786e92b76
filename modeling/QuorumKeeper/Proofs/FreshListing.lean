import QuorumKeeper.Proofs.Operations
import Mathlib.Data.ENat.Basic

/-!
# Changes follow a fresh listing

A removal or a move acts on what a listing has just shown. `Fresh` says of a trace that every such
call comes directly after a successful listing over the same connection, and that the listing shows
the member that the call names. `Careful` adds how many removals and moves the trace has at most.
Both pass from parts to the whole, so every operation is `Careful` with the sum of the budgets of
its parts, whatever the answers are.
-/

set_option autoImplicit false

namespace QuorumKeeper

/-- The connection and the member of a call that changes the group. -/
def Request.changes? : Request → Option (Client × UInt64)
  | .remove client id => some (client, id)
  | .move client id => some (client, id)
  | _ => none

/-- The request takes a member out. -/
def Request.isRemove : Request → Bool
  | .remove _ _ => true
  | _ => false

/-- The request hands leadership over. -/
def Request.isMove : Request → Bool
  | .move _ _ => true
  | _ => false

namespace Trace

/-- How often a trace asks to take a member out. -/
def removals (t : List Exchange) : Nat :=
  t.countP fun x => x.request.isRemove

/-- How often a trace asks to hand leadership over. -/
def moves (t : List Exchange) : Nat :=
  t.countP fun x => x.request.isMove

/-- The exchange at position `i` changes the group over the connection, at the given member. -/
def ChangesAt (t : List Exchange) (i : Nat) (client : Client) (id : UInt64) : Prop :=
  ∃ x, t[i]? = some x ∧ x.request.changes? = some (client, id)

/-- The exchange at position `j` lists the members over the connection, with success. -/
def ListsAt (t : List Exchange) (j : Nat) (client : Client) (members : List Member) : Prop :=
  t[j]? = some ⟨.list client, .ok members⟩

/-- The listing at position `j` serves the change at position `i`: it is the latest successful
listing over the connection of the change. -/
def Serves (t : List Exchange) (j i : Nat) : Prop :=
  ∃ client id members, ChangesAt t i client id ∧ ListsAt t j client members ∧ j < i ∧
    ∀ k later, j < k → k < i → ¬ ListsAt t k client later

/-- Every change comes directly after a listing over the same connection that shows its member. -/
def Fresh (t : List Exchange) : Prop :=
  ∀ i client id, ChangesAt t i client id →
    ∃ j members, i = j + 1 ∧ ListsAt t j client members ∧ id ∈ members.map Member.id

/-- A change stands in one of the two parts. -/
theorem changesAt_append {t t' : List Exchange} {i : Nat} {client : Client} {id : UInt64} :
    ChangesAt (t ++ t') i client id ↔
      ChangesAt t i client id ∨ ∃ k, i = t.length + k ∧ ChangesAt t' k client id := by
  constructor
  · rintro ⟨x, hx, hc⟩
    rcases Nat.lt_or_ge i t.length with hi | hi
    · rw [List.getElem?_append_left hi] at hx
      exact Or.inl ⟨x, hx, hc⟩
    · rw [List.getElem?_append_right hi] at hx
      exact Or.inr ⟨i - t.length, by omega, x, hx, hc⟩
  · rintro (⟨x, hx, hc⟩ | ⟨k, rfl, x, hx, hc⟩)
    · have hi : i < t.length := (List.getElem?_eq_some_iff.1 hx).1
      exact ⟨x, by rw [List.getElem?_append_left hi, hx], hc⟩
    · refine ⟨x, ?_, hc⟩
      rw [List.getElem?_append_right (Nat.le_add_right _ _), Nat.add_sub_cancel_left, hx]

theorem ListsAt.append_left {t : List Exchange} {j : Nat} {client : Client} {members : List Member}
    (h : ListsAt t j client members) (t' : List Exchange) :
    ListsAt (t ++ t') j client members := by
  have hj : j < t.length := (List.getElem?_eq_some_iff.1 h).1
  rw [ListsAt, List.getElem?_append_left hj]
  exact h

theorem ListsAt.append_right {t' : List Exchange} {j : Nat} {client : Client}
    {members : List Member} (h : ListsAt t' j client members) (t : List Exchange) :
    ListsAt (t ++ t') (t.length + j) client members := by
  rw [ListsAt, List.getElem?_append_right (Nat.le_add_right _ _), Nat.add_sub_cancel_left]
  exact h

/-- Parts with fresh listings make a whole with fresh listings. -/
theorem fresh_append {t t' : List Exchange} (h : Fresh t) (h' : Fresh t') : Fresh (t ++ t') := by
  intro i client id hi
  -- a change and the listing before it lie in the same part
  rcases changesAt_append.1 hi with hi | ⟨k, rfl, hk⟩
  · obtain ⟨j, members, rfl, hl, hm⟩ := h i client id hi
    exact ⟨j, members, rfl, hl.append_left t', hm⟩
  · obtain ⟨j, members, rfl, hl, hm⟩ := h' k client id hk
    exact ⟨t.length + j, members, by omega, hl.append_right t, hm⟩

/-- A trace without changes needs no listing. -/
theorem fresh_of_unchanging {t : List Exchange} (h : ∀ x ∈ t, x.request.changes? = none) :
    Fresh t := by
  rintro i client id ⟨x, hx, hc⟩
  rw [h x (List.mem_of_getElem? hx)] at hc
  cases hc

/-- A listing that shows a member, and a change of that member over the same connection. -/
theorem fresh_listed {client : Client} {members : List Member} {x : Exchange} {id : UInt64}
    (hx : x.request.changes? = some (client, id)) (hid : id ∈ members.map Member.id) :
    Fresh [⟨.list client, .ok members⟩, x] := by
  rintro i c d ⟨y, hy, hc⟩
  match i with
  | 0 =>
    obtain rfl : _ = y := by simpa using hy
    cases hc
  | 1 =>
    obtain rfl : x = y := by simpa using hy
    obtain ⟨rfl, rfl⟩ : client = c ∧ id = d := by simpa [hx] using hc
    exact ⟨0, members, rfl, rfl, hid⟩
  | i + 2 => simp at hy

/-- In a fresh trace the listing that serves a change is the exchange before it. -/
theorem Serves.eq_succ {t : List Exchange} (h : Fresh t) {j i : Nat} (hs : Serves t j i) :
    i = j + 1 := by
  obtain ⟨client, id, members, hc, -, hlt, hlast⟩ := hs
  obtain ⟨k, later, rfl, hl, -⟩ := h i client id hc
  rcases Nat.lt_or_ge j k with hk | hk
  · exact absurd hl (hlast k later hk (Nat.lt_succ_self k))
  · omega

/-- The trace is fresh and has at most so many removals and so many moves. -/
structure Careful (r m : ℕ∞) (t : List Exchange) : Prop where
  fresh : Fresh t
  removals_le : (removals t : ℕ∞) ≤ r
  moves_le : (moves t : ℕ∞) ≤ m

theorem careful_nil : Careful 0 0 [] :=
  ⟨fresh_of_unchanging (by simp), by simp [removals], by simp [moves]⟩

/-- The bounds on removals and moves add up. -/
theorem Careful.append {r m r' m' : ℕ∞} {t t' : List Exchange} (h : Careful r m t)
    (h' : Careful r' m' t') : Careful (r + r') (m + m') (t ++ t') where
  fresh := fresh_append h.fresh h'.fresh
  removals_le := by
    rw [removals, List.countP_append, Nat.cast_add]
    exact add_le_add h.removals_le h'.removals_le
  moves_le := by
    rw [moves, List.countP_append, Nat.cast_add]
    exact add_le_add h.moves_le h'.moves_le

/-- Larger bounds hold as well. -/
theorem Careful.mono {r m r' m' : ℕ∞} {t : List Exchange} (h : Careful r m t) (hr : r ≤ r')
    (hm : m ≤ m') : Careful r' m' t :=
  ⟨h.fresh, h.removals_le.trans hr, h.moves_le.trans hm⟩

/-- A trace bounded by no removal has none. -/
theorem Careful.removals_eq_zero {m : ℕ∞} {t : List Exchange} (h : Careful 0 m t) :
    removals t = 0 := by
  exact_mod_cast nonpos_iff_eq_zero.1 h.removals_le

/-- A trace bounded by no move has none. -/
theorem Careful.moves_eq_zero {r : ℕ∞} {t : List Exchange} (h : Careful r 0 t) : moves t = 0 := by
  exact_mod_cast nonpos_iff_eq_zero.1 h.moves_le

end Trace

open Trace

namespace Program

variable {α β : Type}

/-- All traces of the program are careful. -/
def IsCareful (p : Program α) (r m : ℕ∞) : Prop :=
  p.Ensures fun t _ => Careful r m t

theorem isCareful_pure (a : α) {r m : ℕ∞} : (pure a : Program α).IsCareful r m :=
  careful_nil.mono zero_le zero_le

theorem isCareful_report (e : Event) : (report e).IsCareful 0 0 :=
  careful_nil

/-- A request that changes nothing needs no care. -/
theorem isCareful_request {q : Request} (h : q.changes? = none) : (request q).IsCareful 0 0 := by
  intro a
  refine ⟨fresh_of_unchanging (by simpa using h), ?_, ?_⟩
  · cases q <;> simp_all [removals, Request.isRemove, Request.changes?]
  · cases q <;> simp_all [moves, Request.isMove, Request.changes?]

/-- Careful parts make a careful whole. -/
theorem IsCareful.bind {p : Program α} {f : α → Program β} {r m r' m' : ℕ∞}
    (hp : p.IsCareful r m) (hf : ∀ a, (f a).IsCareful r' m') :
    (p >>= f).IsCareful (r + r') (m + m') := by
  rw [IsCareful, ensures_bind]
  refine hp.mono fun t a ht => (hf a).mono fun t' _ ht' => ?_
  exact ht.append ht'

theorem IsCareful.mono {p : Program α} {r m r' m' : ℕ∞} (h : p.IsCareful r m) (hr : r ≤ r')
    (hm : m ≤ m') : p.IsCareful r' m' :=
  Ensures.mono h fun _ _ ht => ht.mono hr hm

/-- Any number of removals and no move: a budget that a sequence shares with its parts. -/
theorem IsCareful.bind_top {p : Program α} {f : α → Program β} (hp : p.IsCareful ⊤ 0)
    (hf : ∀ a, (f a).IsCareful ⊤ 0) : (p >>= f).IsCareful ⊤ 0 := by
  simpa using hp.bind hf

theorem IsCareful.void {p : Program α} {r m : ℕ∞} (h : p.IsCareful r m) :
    (p >>= fun _ => pure ()).IsCareful r m := by
  simpa using h.bind fun _ => isCareful_pure () (r := 0) (m := 0)

/-- A program that changes nothing may come before any other. -/
theorem IsCareful.then {p : Program α} {f : α → Program β} {r m : ℕ∞} (hp : p.IsCareful 0 0)
    (hf : ∀ a, (f a).IsCareful r m) : (p >>= f).IsCareful r m := by
  simpa using hp.bind hf

end Program

open Program

/-! ## Searches change nothing -/

namespace ClientSearch

theorem tryEach_isCareful (nodes : List String) (failures : List ClientError) :
    (tryEach nodes failures).IsCareful 0 0 := by
  induction nodes generalizing failures with
  | nil => exact isCareful_pure _
  | cons node rest ih =>
    refine (isCareful_request rfl).then fun answer => ?_
    cases answer with
    | ok client => exact isCareful_pure _
    | error e =>
      show (if _ then _ else _ : Program (Except ClientError Client)).IsCareful 0 0
      split
      · exact isCareful_pure _
      · exact (isCareful_report _).then fun _ => ih _

theorem firstAvailable_isCareful (nodes : List String) : (firstAvailable nodes).IsCareful 0 0 := by
  unfold firstAvailable
  split
  · exact isCareful_pure _
  · exact tryEach_isCareful nodes []

theorem followLeader_isCareful (via : String) (nodes : List String) (members : List Member)
    (leaderId : UInt64) : (followLeader via nodes members leaderId).IsCareful 0 0 := by
  unfold followLeader
  cases Member.withId? members leaderId with
  | none => exact (isCareful_report _).then fun _ => isCareful_pure _
  | some leader =>
    cases h : leader.nodeAmong nodes with
    | none =>
      simp only [h]
      exact isCareful_pure _
    | some node =>
      simp only [h]
      refine (isCareful_report _).then fun _ => ?_
      refine (firstAvailable_isCareful [node]).then fun answer => ?_
      cases answer with
      | ok client => exact isCareful_pure _
      | error e => exact isCareful_pure _

theorem probe_isCareful (via : String) (nodes : List String) : (probe via nodes).IsCareful 0 0 := by
  refine (firstAvailable_isCareful [via]).then fun answer => ?_
  cases answer with
  | error e => exact isCareful_pure _
  | ok client =>
    refine (isCareful_request rfl).then fun listed => (isCareful_request rfl).then fun _ => ?_
    cases listed with
    | error e => exact isCareful_pure _
    | ok members => exact followLeader_isCareful via nodes members client.leader

theorem probeEach_isCareful (nodes candidates : List String) (failures : List ClientError) :
    (probeEach nodes candidates failures).IsCareful 0 0 := by
  induction candidates generalizing failures with
  | nil => exact isCareful_pure _
  | cons via rest ih =>
    refine (probe_isCareful via nodes).then fun result => ?_
    cases result with
    | found client => exact isCareful_pure _
    | skip e => exact ih _
    | fatal e => exact isCareful_pure _

theorem leaderClient_isCareful (nodes : List String) : (leaderClient nodes).IsCareful 0 0 := by
  unfold leaderClient
  split
  · exact isCareful_pure _
  · exact probeEach_isCareful nodes nodes []

end ClientSearch

/-! ## Operations change what they have just listed -/

namespace Workload

theorem controlPlaneNodes_isCareful : controlPlaneNodes.IsCareful 0 0 := by
  refine (isCareful_request rfl).then fun answer => ?_
  cases answer with
  | ok names => exact isCareful_pure _
  | error failure => exact isCareful_pure _

theorem listMembers_isCareful (client : Client) : (listMembers client).IsCareful 0 0 := by
  refine (isCareful_request rfl).then fun answer => ?_
  cases answer with
  | ok members => exact isCareful_pure _
  | error e => exact isCareful_pure _

/-- A connection that is found by a search costs nothing beside its use. -/
theorem withClient_isCareful {α : Type} {connect : Program (Except ClientError Client)}
    {use : Client → Program (Except OperationError α)} {r m : ℕ∞}
    (hconnect : connect.IsCareful 0 0) (huse : ∀ client, (use client).IsCareful r m) :
    (withClient connect use).IsCareful r m := by
  refine hconnect.then fun answer => ?_
  cases answer with
  | error e => exact isCareful_pure _
  | ok client =>
    have hdrop : ∀ result : Except OperationError α,
        (drop client >>= fun _ => pure result).IsCareful 0 0 := fun result =>
      (isCareful_request rfl).then fun _ => isCareful_pure result
    simpa using (huse client).bind hdrop

theorem careful_listing (client : Client) (listed : Except ClientError (List Member)) :
    Careful 0 0 [⟨.list client, listed⟩] :=
  isCareful_request (q := .list client) rfl listed

/-- What follows a listing of the members may act on the members that it shows. -/
theorem isCareful_listMembers_bind {α : Type} {client : Client}
    {f : Except OperationError (List Member) → Program α} {r m : ℕ∞}
    (herror : ∀ e, (f (.error e)).IsCareful r m)
    (hok : ∀ members, (f (.ok members)).Ensures fun t _ =>
      Careful r m (⟨.list client, .ok members⟩ :: t)) :
    (listMembers client >>= f).IsCareful r m := by
  rw [Program.IsCareful, ensures_bind]
  intro listed
  cases listed with
  | error e =>
    show (f (.error _)).Ensures fun t _ => Careful r m ([⟨.list client, .error e⟩] ++ t)
    refine Ensures.mono (herror _) fun t _ ht => ?_
    simpa using (careful_listing client (.error e)).append ht
  | ok members => exact hok members

/-- After a listing, a program that changes nothing stays within any budget. -/
theorem ensures_after_listing {α : Type} {p : Program α} (h : p.IsCareful 0 0) (client : Client)
    (members : List Member) (r m : ℕ∞) :
    p.Ensures fun t _ => Careful r m (⟨.list client, .ok members⟩ :: t) := by
  refine Ensures.mono h fun t _ ht => ?_
  have hboth := (careful_listing client (.ok members)).append ht
  exact hboth.mono (by simp) (by simp)

/-- A member that a listing shows first under some name is one of its members. -/
theorem id_mem_of_named? {members : List Member} {name : String} {m : Member}
    (h : Member.named? members name = some m) : m.id ∈ members.map Member.id :=
  List.mem_map_of_mem (List.mem_of_find?_eq_some h)

/-- A removal on a connection lists the members right before. -/
theorem removeNamed_isCareful (name : String) (client : Client) :
    (removeNamed name client).IsCareful 1 0 := by
  refine isCareful_listMembers_bind (fun e => ?_) fun members => ?_
  · exact isCareful_pure _
  · cases h : Member.named? members name with
    | none =>
      simp only [h]
      exact ensures_after_listing ((isCareful_report _).then fun _ => isCareful_pure _) client _ 1 0
    | some m =>
      simp only [h]
      have hfresh (answer : Except ClientError Unit) :
          Careful 1 0 [⟨.list client, .ok members⟩, ⟨.remove client m.id, answer⟩] :=
        ⟨fresh_listed rfl (id_mem_of_named? h), by simp [removals, Request.isRemove],
          by simp [moves, Request.isMove]⟩
      intro answer
      cases answer with
      | error e => exact hfresh (.error e)
      | ok u => exact hfresh (.ok u)

/-- A move of leadership lists the members right before. -/
theorem moveLeader_isCareful (outgoing incoming : String) (client : Client) :
    (moveLeader outgoing incoming client).IsCareful 0 1 := by
  refine isCareful_listMembers_bind (fun e => ?_) fun members => ?_
  · exact isCareful_pure _
  · cases hc : (Member.named? members outgoing).filter (·.id == client.leader) with
    | none =>
      simp only [hc]
      exact ensures_after_listing ((isCareful_report _).then fun _ => isCareful_pure _) client _ 0 1
    | some current =>
      cases h : Member.named? members incoming with
      | none =>
        simp only [hc, h]
        exact ensures_after_listing (isCareful_pure _) client _ 0 1
      | some next =>
        simp only [hc, h]
        have hfresh (answer : Except ClientError Unit) :
            Careful 0 1 [⟨.list client, .ok members⟩, ⟨.move client next.id, answer⟩] :=
          ⟨fresh_listed rfl (id_mem_of_named? h), by simp [removals, Request.isRemove],
            by simp [moves, Request.isMove]⟩
        intro answer
        cases answer with
        | error e => exact hfresh (.error e)
        | ok u => exact hfresh (.ok u)

theorem listNames_isCareful (client : Client) : (listNames client).IsCareful 0 0 := by
  refine (listMembers_isCareful client).then fun listed => ?_
  cases listed with
  | error e => exact isCareful_pure _
  | ok members => exact isCareful_pure _

/-- Looking for the leader first changes nothing. -/
theorem withLeader_isCareful {α : Type} {use : Client → Program (Except OperationError α)}
    {r m : ℕ∞} (huse : ∀ client, (use client).IsCareful r m) :
    (withLeader use).IsCareful r m := by
  refine controlPlaneNodes_isCareful.then fun known => ?_
  cases known with
  | error e => exact isCareful_pure _
  | ok known => exact withClient_isCareful (ClientSearch.leaderClient_isCareful known) huse

theorem removeMember_isCareful (w : Workload) (name : String) :
    (w.removeMember name).IsCareful 1 0 := by
  refine controlPlaneNodes_isCareful.then fun known => ?_
  cases known with
  | error e => exact isCareful_pure _
  | ok known =>
    cases hleft : w.guard.remaining known name with
    | error e =>
      simp only [hleft]
      exact isCareful_pure _
    | ok left =>
      simp only [hleft]
      split
      · exact withClient_isCareful (ClientSearch.firstAvailable_isCareful left)
          (removeNamed_isCareful name)
      · exact isCareful_pure _

theorem removeForMachine_isCareful (w : Workload) (machine : Option Machine) :
    (w.removeForMachine machine).IsCareful 1 0 := by
  unfold removeForMachine
  split
  · exact isCareful_pure _
  · exact removeMember_isCareful w _

/-- A pass over listed members makes a removal of its own for each. -/
theorem pruneListed_isCareful (w : Workload) (nodes : List String) (members : List Member)
    (r : Report) : (pruneListed w nodes members r).IsCareful ⊤ 0 := by
  induction members generalizing r with
  | nil => exact isCareful_pure _
  | cons m rest ih =>
    unfold pruneListed
    split
    · -- one removal for each stale member, so no finite budget does for all lists
      refine ((removeMember_isCareful w m.name).mono le_top le_rfl).bind_top fun result => ?_
      cases result with
      | ok u => exact ih _
      | error e =>
        refine (isCareful_report _).then fun _ => ?_
        split
        · exact isCareful_pure _
        · exact ih _
    · exact ih r

theorem pruneVia_isCareful (w : Workload) (nodes : List String) (via : String) (r : Report) :
    (pruneVia w nodes via r).IsCareful ⊤ 0 := by
  refine (ClientSearch.firstAvailable_isCareful [via]).then fun answer => ?_
  cases answer with
  | error e =>
    show (if _ then _ else _ : Program Progress).IsCareful ⊤ 0
    split
    · exact isCareful_pure _
    · exact (isCareful_report _).then fun _ => isCareful_pure _
  | ok client =>
    refine (isCareful_request (q := .list client) rfl).then fun listed => ?_
    cases listed with
    | error e =>
      show (if _ then _ else _ : Program Progress).IsCareful ⊤ 0
      split
      · exact (isCareful_request rfl).then fun _ => isCareful_pure _
      · refine (isCareful_report _).then fun _ => ?_
        exact (isCareful_request rfl).then fun _ => isCareful_pure _
    | ok members =>
      exact (isCareful_request rfl).then fun _ => pruneListed_isCareful w nodes members r

theorem pruneEach_isCareful (w : Workload) (nodes vias : List String) (r : Report) :
    (pruneEach w nodes vias r).IsCareful ⊤ 0 := by
  induction vias generalizing r with
  | nil => exact isCareful_pure _
  | cons via rest ih =>
    refine (pruneVia_isCareful w nodes via r).bind_top fun progress => ?_
    cases progress with
    | goOn r => exact ih r
    | stop r => exact isCareful_pure _

theorem reconcile_isCareful (w : Workload) (nodes : List String) :
    (w.reconcile nodes).IsCareful ⊤ 0 := by
  unfold reconcile
  split
  · refine (pruneEach_isCareful w nodes nodes {}).bind_top fun r => ?_
    show (if _ then _ else _ : Program Report).IsCareful ⊤ 0
    split
    · exact (isCareful_report _).then fun _ => isCareful_pure _
    · exact isCareful_pure _
  · exact isCareful_pure _

theorem forwardLeadership_isCareful (w : Workload) (machine candidate : Option Machine) :
    (w.forwardLeadership machine candidate).IsCareful 0 1 := by
  unfold forwardLeadership
  split
  · exact isCareful_pure _
  · split
    · exact isCareful_pure _
    · split
      · exact isCareful_pure _
      · split
        · exact withLeader_isCareful (moveLeader_isCareful _ _)
        · exact isCareful_pure _

theorem memberNames_isCareful (w : Workload) : w.memberNames.IsCareful 0 0 := by
  unfold memberNames
  split
  · exact withLeader_isCareful listNames_isCareful
  · exact isCareful_pure _

/-- Every operation lists before it changes. -/
theorem perform_isCareful (w : Workload) (op : Operation) : (w.perform op).IsCareful ⊤ ⊤ := by
  cases op with
  | reconcile nodes => exact (reconcile_isCareful w nodes).void.mono le_top le_top
  | remove name => exact (removeMember_isCareful w name).void.mono le_top le_top
  | removeForMachine machine => exact (removeForMachine_isCareful w machine).void.mono le_top le_top
  | forward machine candidate =>
    exact (forwardLeadership_isCareful w machine candidate).void.mono le_top le_top
  | memberNames => exact (memberNames_isCareful w).void.mono le_top le_top

end Workload

/-- The connections of a trace are not the same, each of its changes follows a fresh listing, and no
listing serves two changes. -/
structure ListsBeforeEach (t : List Exchange) : Prop where
  distinct : (opened t).Nodup
  fresh : Fresh t
  once : ∀ j i i', Serves t j i → Serves t j i' → i = i'

/-- What the operations and the two searches ask of a world for changes: each follows a listing of
its own, and there are no more of them than the operation is for. -/
structure ActsOnListings {σ : Type} (world : World σ) (s : Situation σ) (w : Workload) : Prop where
  operations : ∀ op : Operation, ListsBeforeEach ((w.perform op).run world s).trace
  reconcile : ∀ nodes, moves ((w.reconcile nodes).run world s).trace = 0
  remove : ∀ name, removals ((w.removeMember name).run world s).trace ≤ 1 ∧
    moves ((w.removeMember name).run world s).trace = 0
  removeForMachine : ∀ machine, removals ((w.removeForMachine machine).run world s).trace ≤ 1 ∧
    moves ((w.removeForMachine machine).run world s).trace = 0
  forward : ∀ machine candidate,
    removals ((w.forwardLeadership machine candidate).run world s).trace = 0 ∧
    moves ((w.forwardLeadership machine candidate).run world s).trace ≤ 1
  memberNames : removals (w.memberNames.run world s).trace = 0 ∧
    moves (w.memberNames.run world s).trace = 0
  leaderSearch : ∀ nodes, removals ((ClientSearch.leaderClient nodes).run world s).trace = 0 ∧
    moves ((ClientSearch.leaderClient nodes).run world s).trace = 0
  firstSearch : ∀ nodes, removals ((ClientSearch.firstAvailable nodes).run world s).trace = 0 ∧
    moves ((ClientSearch.firstAvailable nodes).run world s).trace = 0

/-- Against any world, every removal and every move of an operation comes directly after a
successful listing over the same connection that shows the member concerned, and no listing serves
two of them; no two connections of an operation are the same. Reconciling and removing never move
leadership, handing it over removes nobody, a removal removes at most once and a handover moves at
most once, and the searches and the listing of names change nothing. -/
theorem changes_follow_fresh_listing {σ : Type} (world : World σ) (s : Situation σ)
    (w : Workload) : ActsOnListings world s w where
  operations op := by
    have h := (w.perform_isCareful op).run world s
    refine ⟨opened_nodup world (w.perform op) s, h.fresh, fun j i i' hi hi' => ?_⟩
    rw [hi.eq_succ h.fresh, hi'.eq_succ h.fresh]
  reconcile nodes := ((w.reconcile_isCareful nodes).run world s).moves_eq_zero
  remove name := by
    have h := (w.removeMember_isCareful name).run world s
    exact ⟨by exact_mod_cast h.removals_le, h.moves_eq_zero⟩
  removeForMachine machine := by
    have h := (w.removeForMachine_isCareful machine).run world s
    exact ⟨by exact_mod_cast h.removals_le, h.moves_eq_zero⟩
  forward machine candidate := by
    have h := (w.forwardLeadership_isCareful machine candidate).run world s
    exact ⟨h.removals_eq_zero, by exact_mod_cast h.moves_le⟩
  memberNames := by
    have h := w.memberNames_isCareful.run world s
    exact ⟨h.removals_eq_zero, h.moves_eq_zero⟩
  leaderSearch nodes := by
    have h := (ClientSearch.leaderClient_isCareful nodes).run world s
    exact ⟨h.removals_eq_zero, h.moves_eq_zero⟩
  firstSearch nodes := by
    have h := (ClientSearch.firstAvailable_isCareful nodes).run world s
    exact ⟨h.removals_eq_zero, h.moves_eq_zero⟩

end QuorumKeeper
