import QuorumKeeper.Proofs.Attempts
import QuorumKeeper.Proofs.FreshListing
import QuorumKeeper.Proofs.LeaderSearch
import QuorumKeeper.Proofs.Removals

/-!
# What a trace tells about a cluster in memory

The exchanges of a run decide what becomes of a cluster in memory, wherever the node names come
from. `Cluster.Gives` has one constructor for each way in which a cluster can answer a request: it
says when the cluster answers so, and which core the answer leaves. `Cluster.Replays` follows a
trace from answer to answer, and every run leaves what its trace replays (`replays_run`).

So a statement about the traces of an operation becomes one about its effect on a cluster. Exchanges
that change nothing leave the core as it was (`Replays.core_eq`), a search is made of such exchanges
alone, and the connection it ends with was opened under the leader of that moment
(`leader_of_search`).
-/

set_option autoImplicit false

namespace QuorumKeeper

open Program

/-! ## Exchanges that change nothing -/

/-- The exchange has changed the group: it is a removal or a move that succeeded. -/
def Exchange.isChange : Exchange → Bool
  | ⟨.remove _ _, .ok _⟩ => true
  | ⟨.move _ _, .ok _⟩ => true
  | _ => false

namespace Trace

variable {t t' : List Exchange}

/-- No exchange of the trace has changed the group. -/
def Quiet (t : List Exchange) : Prop :=
  ∀ x ∈ t, x.isChange = false

@[simp] theorem quiet_nil : Quiet [] := by
  simp [Quiet]

@[simp] theorem quiet_cons_iff {x : Exchange} : Quiet (x :: t) ↔ x.isChange = false ∧ Quiet t :=
  List.forall_mem_cons

@[simp] theorem quiet_append_iff : Quiet (t ++ t') ↔ Quiet t ∧ Quiet t' :=
  List.forall_mem_append

/-- What neither removes nor moves anything, with success or without, changes nothing. -/
theorem Careful.quiet (h : Careful 0 0 t) : Quiet t := by
  have hremovals := List.countP_eq_zero.1 h.removals_eq_zero
  have hnone : moves t = 0 := by exact_mod_cast nonpos_iff_eq_zero.1 h.moves_le
  have hmoves := List.countP_eq_zero.1 hnone
  intro x hx
  have hkeep := hremovals x hx
  have hstay := hmoves x hx
  rcases x with ⟨q, answer⟩
  cases q with
  | nodes => rfl
  | create endpoint => rfl
  | list client => rfl
  | drop client => rfl
  | remove client id => exact absurd rfl hkeep
  | move client id => exact absurd rfl hstay

end Trace

open Trace

namespace ClientSearch

variable {nodes : List String} {t : List Exchange} {v : Except ClientError Client}

/-- Searching for a node that answers changes nothing. -/
theorem firstAvailable_quiet (h : (firstAvailable nodes).Yields t v) : Quiet t :=
  (ensures_iff_yields.1 (firstAvailable_isCareful nodes) t v h).quiet

/-- Searching for the leader changes nothing. -/
theorem leaderClient_quiet (h : (leaderClient nodes).Yields t v) : Quiet t :=
  (ensures_iff_yields.1 (leaderClient_isCareful nodes) t v h).quiet

/-- A search for the leader that succeeds ends with the dial of the connection that it returns. -/
theorem leaderClient_found {client : Client} (h : (leaderClient nodes).Yields t (.ok client)) :
    ∃ before node, t = before ++ [⟨.create (etcdEndpoint node), .ok client⟩] := by
  by_cases hnodes : nodes = []
  · subst hnodes
    obtain ⟨-, hv⟩ := h
    cases hv
  · rw [leaderClient_yields_iff hnodes] at h
    cases h with
    | settled passed via left order last =>
      cases last with
      | @resolved c members leader home t v listed hosted dialed =>
        obtain ⟨missed, node, left', -, rfl⟩ := firstAvailable_found dialed
        refine ⟨passed.flatMap Passed.trace ++
          (asked via c (.ok members) ++ missed.flatMap Passed.trace), node, ?_⟩
        simp only [List.append_assoc]

end ClientSearch

/-! ## The answers of a cluster -/

namespace Cluster

/-- The world of a cluster in memory and any source of node names. -/
abbrev worldWith {ι : Type} (read : ι → Except InventoryFailure (List String) × ι) :
    World (ι × Cluster) :=
  Cluster.store.worldWith read

/-- The cluster after leadership was handed to an id. -/
def ledBy (c : Cluster) (id : UInt64) : Cluster :=
  { c with leader := id, moved := c.moved ++ [id] }

/-- The cluster gives this answer and is left as the second one, but for its record of connections.
The inventory is no part of it, and a connection sees the leader of the moment in which it is
opened. -/
inductive Gives (c : Cluster) : Exchange → Cluster → Prop where
  | nodes (answer : Except InventoryFailure (List String)) : Gives c ⟨.nodes, answer⟩ c
  | refused {endpoint : String} (down : endpoint ∈ c.unreachable) :
      Gives c ⟨.create endpoint, .error (.connect endpoint "connection refused")⟩ c
  | opened {endpoint : String} {client : Client} (up : endpoint ∉ c.unreachable)
      (reached : client.endpoint = endpoint) (leader : client.leader = c.leader) :
      Gives c ⟨.create endpoint, .ok client⟩ c
  | unlisted {client : Client} (mute : client.endpoint ∈ c.failingList) :
      Gives c ⟨.list client, .error (.refused client.endpoint "member list"
        "etcdserver: request timed out")⟩ c
  | listed {client : Client} (lists : client.endpoint ∉ c.failingList) :
      Gives c ⟨.list client, .ok c.members⟩ c
  | unhealthy {client : Client} {id : UInt64} (stuck : id ∈ c.failingRemove) :
      Gives c ⟨.remove client id, .error (.refused client.endpoint "member remove"
        "etcdserver: unhealthy cluster")⟩ c
  | unknown {client : Client} {id : UInt64} (free : id ∉ c.failingRemove)
      (absent : ∀ m ∈ c.members, m.id ≠ id) :
      Gives c ⟨.remove client id, .error (.refused client.endpoint "member remove"
        "etcdserver: member not found")⟩ c
  | removed {client : Client} {id : UInt64} (free : id ∉ c.failingRemove)
      (present : ∃ m ∈ c.members, m.id = id) :
      Gives c ⟨.remove client id, .ok ()⟩ (c.without id)
  | stayed {client : Client} {id : UInt64} (stuck : id ∈ c.failingMove) :
      Gives c ⟨.move client id, .error (.refused client.endpoint "move leader"
        "etcdserver: leadership transfer timed out")⟩ c
  | moved {client : Client} {id : UInt64} (free : id ∉ c.failingMove) :
      Gives c ⟨.move client id, .ok ()⟩ (c.ledBy id)
  | closed (client : Client) : Gives c ⟨.drop client, ()⟩ c

variable {c c' : Cluster} {x : Exchange} {t t' : List Exchange}

/-- An answer to anything but a change leaves the cluster as it is. -/
theorem Gives.core_eq (h : c.Gives x c') (hx : x.isChange = false) : c' = c := by
  cases h with
  | nodes answer => rfl
  | refused down => rfl
  | opened up reached leader => rfl
  | unlisted mute => rfl
  | listed lists => rfl
  | unhealthy stuck => rfl
  | unknown free absent => rfl
  | removed free present => cases hx
  | stayed stuck => rfl
  | moved free => cases hx
  | closed client => rfl

/-- Only a removal changes the members. -/
theorem Gives.members_eq (h : c.Gives x c') (hx : x.request.isRemove = false) :
    c'.members = c.members := by
  cases h with
  | nodes answer => rfl
  | refused down => rfl
  | opened up reached leader => rfl
  | unlisted mute => rfl
  | listed lists => rfl
  | unhealthy stuck => rfl
  | unknown free absent => rfl
  | removed free present => cases hx
  | stayed stuck => rfl
  | moved free => rfl
  | closed client => rfl

/-- Answered one after the other, the exchanges lead from the first cluster to the second. -/
inductive Replays : Cluster → List Exchange → Cluster → Prop where
  | nil (c : Cluster) : Replays c [] c
  | cons {c c₁ c' : Cluster} {x : Exchange} {t : List Exchange} (first : c.Gives x c₁)
      (rest : Replays c₁ t c') : Replays c (x :: t) c'

theorem replays_nil_iff : Replays c [] c' ↔ c' = c := by
  constructor
  · intro h
    cases h
    rfl
  · rintro rfl
    exact .nil c'

/-- A trace is replayed exchange by exchange. -/
theorem replays_cons_iff : Replays c (x :: t) c' ↔ ∃ c₁, c.Gives x c₁ ∧ Replays c₁ t c' := by
  constructor
  · intro h
    cases h with
    | cons first rest => exact ⟨_, first, rest⟩
  · rintro ⟨c₁, first, rest⟩
    exact .cons first rest

/-- A trace is replayed part by part. -/
theorem replays_append_iff :
    Replays c (t ++ t') c' ↔ ∃ c₁, Replays c t c₁ ∧ Replays c₁ t' c' := by
  induction t generalizing c with
  | nil => simp only [List.nil_append, replays_nil_iff, exists_eq_left]
  | cons x rest ih =>
    rw [List.cons_append, replays_cons_iff]
    constructor
    · rintro ⟨c₁, first, h⟩
      obtain ⟨c₂, hrest, hlater⟩ := ih.1 h
      exact ⟨c₂, .cons first hrest, hlater⟩
    · rintro ⟨c₂, h, hlater⟩
      obtain ⟨c₁, first, hrest⟩ := replays_cons_iff.1 h
      exact ⟨c₁, first, ih.2 ⟨c₂, hrest, hlater⟩⟩

/-- A trace without changes leaves the cluster as it is. -/
theorem Replays.core_eq (h : Replays c t c') (ht : Quiet t) : c' = c := by
  induction h with
  | nil c => rfl
  | cons first rest ih =>
    obtain ⟨hx, hrest⟩ := quiet_cons_iff.1 ht
    rw [ih hrest, first.core_eq hx]

/-- A trace without removals leaves the members as they are. -/
theorem Replays.members_eq (h : Replays c t c') (ht : removals t = 0) :
    c'.members = c.members := by
  induction h with
  | nil c => rfl
  | @cons c c₁ c' x t first rest ih =>
    rw [removals, List.countP_eq_zero] at ht
    have hx : x.request.isRemove = false := Bool.eq_false_iff.2 (ht x List.mem_cons_self)
    have hrest : removals t = 0 :=
      List.countP_eq_zero.2 fun y hy => ht y (List.mem_cons_of_mem x hy)
    exact (ih hrest).trans (first.members_eq hx)

/-- A connection that is searched for and closed after its use: the use alone counts. -/
theorem Replays.of_use {answer : Except InventoryFailure (List String)} {client : Client}
    (h : Replays c (⟨.nodes, answer⟩ :: (t ++ t' ++ [⟨.drop client, ()⟩])) c') (ht : Quiet t) :
    Replays c t' c' := by
  obtain ⟨c₁, hread, h⟩ := replays_cons_iff.1 h
  obtain ⟨c₂, h, hclose⟩ := replays_append_iff.1 h
  obtain ⟨c₃, hsearch, huse⟩ := replays_append_iff.1 h
  have hbefore : c₃ = c := (hsearch.core_eq ht).trans (hread.core_eq rfl)
  have hafter : c' = c₂ := hclose.core_eq (by simp [Exchange.isChange])
  rwa [← hbefore, hafter]

/-- A listing shows the members of the moment and leaves everything as it is. -/
theorem Replays.of_listing {client : Client} {members : List Member}
    (h : Replays c (⟨.list client, .ok members⟩ :: t) c') :
    members = c.members ∧ Replays c t c' := by
  obtain ⟨c₁, hlisting, hrest⟩ := replays_cons_iff.1 h
  cases hlisting with
  | listed lists => exact ⟨rfl, hrest⟩

theorem Replays.of_removal {client : Client} {id : UInt64}
    (h : Replays c [⟨.remove client id, .ok ()⟩] c') : c' = c.without id := by
  obtain ⟨c₁, hremoval, hrest⟩ := replays_cons_iff.1 h
  cases hremoval with
  | removed free present => exact replays_nil_iff.1 hrest

/-! ## Runs -/

variable {ι : Type} (read : ι → Except InventoryFailure (List String) × ι)

/-- Whatever is asked of a cluster in memory, it answers in one of these ways. -/
theorem gives_answer (s : Situation (ι × Cluster)) (q : Request) :
    s.state.2.core.Gives ⟨q, ((worldWith read).answer s q).1⟩
      ((worldWith read).answer s q).2.state.2.core := by
  cases q with
  | nodes => exact .nodes _
  | create endpoint =>
    by_cases hdown : endpoint ∈ s.state.2.unreachable
    · have hanswer : (worldWith read).answer s (.create endpoint) =
          (.error (.connect endpoint "connection refused"),
            { s with state :=
              (s.state.1, { s.state.2 with dials := s.state.2.dials ++ [endpoint] }) }) := by
        simp [World.answer, Store.worldWith, store, create, hdown]
      rw [hanswer]
      exact .refused hdown
    · have hanswer : (worldWith read).answer s (.create endpoint) =
          (.ok ⟨s.serial, endpoint, s.state.2.leader⟩,
            ⟨s.serial + 1, (s.state.1, { s.state.2 with
              dials := s.state.2.dials ++ [endpoint],
              openCount := s.state.2.openCount + 1 })⟩) := by
        simp [World.answer, Store.worldWith, store, create, hdown]
      rw [hanswer]
      exact .opened hdown rfl rfl
  | list client =>
    by_cases hmute : client.endpoint ∈ s.state.2.failingList
    · simp only [World.answer, Store.worldWith, store, list, List.contains_iff_mem, hmute, if_true]
      exact .unlisted (c := s.state.2.core) hmute
    · simp only [World.answer, Store.worldWith, store, list, List.contains_iff_mem, hmute, if_false]
      exact .listed hmute
  | remove client id =>
    by_cases hstuck : id ∈ s.state.2.failingRemove
    · simp only [World.answer, Store.worldWith, store, remove, List.contains_iff_mem, hstuck,
        if_true]
      exact .unhealthy (c := s.state.2.core) hstuck
    · by_cases hany : s.state.2.members.any (·.id == id) = true
      · simp only [World.answer, Store.worldWith, store, remove, List.contains_iff_mem, hstuck,
          hany, if_false, if_true]
        exact .removed hstuck (by simpa using hany)
      · simp only [World.answer, Store.worldWith, store, remove, List.contains_iff_mem, hstuck,
          hany, if_false]
        exact .unknown (c := s.state.2.core) hstuck (by simpa using hany)
  | move client id =>
    by_cases hstuck : id ∈ s.state.2.failingMove
    · simp only [World.answer, Store.worldWith, store, move, List.contains_iff_mem, hstuck, if_true]
      exact .stayed (c := s.state.2.core) hstuck
    · simp only [World.answer, Store.worldWith, store, move, List.contains_iff_mem, hstuck,
        if_false]
      exact .moved hstuck
  | drop client => exact .closed client

/-- Every run leaves what its trace replays. -/
theorem replays_run {α : Type} (p : Program α) (s : Situation (ι × Cluster)) :
    Replays s.state.2.core (p.run (worldWith read) s).trace
      (p.run (worldWith read) s).after.state.2.core := by
  induction p generalizing s with
  | done a => exact .nil _
  | note e next ih => exact ih s
  | ask q next ih => exact .cons (gives_answer read s q) (ih _ _)

/-- The connection that a search for the leader ends with sees the leader that the cluster has all
the while. -/
theorem leader_of_search {nodes : List String} {client : Client}
    (h : (ClientSearch.leaderClient nodes).Yields t (.ok client)) (hreplay : Replays c t c') :
    client.leader = c.leader := by
  have hquiet := ClientSearch.leaderClient_quiet h
  obtain ⟨before, node, rfl⟩ := ClientSearch.leaderClient_found h
  obtain ⟨c₁, hbefore, hlast⟩ := replays_append_iff.1 hreplay
  obtain ⟨c₂, hdial, -⟩ := replays_cons_iff.1 hlast
  -- up to the last dial nothing has changed, so the connection sees the leader from the start
  obtain rfl := hbefore.core_eq (quiet_append_iff.1 hquiet).1
  cases hdial with
  | opened up reached leader => exact leader

end Cluster

end QuorumKeeper
