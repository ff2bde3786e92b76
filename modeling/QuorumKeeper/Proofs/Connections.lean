import QuorumKeeper.Proofs.Conduct
import Mathlib.Data.List.Nodup

/-!
# One connection at a time

`Trace.alive` lists the connections that are open after a trace, `Trace.opened` and `Trace.closed`
those that it opens and closes. Where a trace follows proper conduct, what is alive is what the
operation holds (`Standing.Follows.alive`), and what it held or opened is what it closes or still
holds (`Standing.Follows.balance`), in one and the same order. `Trace.OneAtATime` collects what
comes of this for the life of single connections.
-/

set_option autoImplicit false

namespace QuorumKeeper

open Program

/-- The connection that the exchange closes, if it closes one. -/
def Exchange.closed? : Exchange → Option Client
  | ⟨.drop client, _⟩ => some client
  | _ => none

/-- The connections that are open after the exchange, given those that were open before it. -/
def Exchange.aliveAfter (before : List Client) (x : Exchange) : List Client :=
  match x.closed? with
  | some client => before.erase client
  | none => before ++ x.opened?.toList

namespace Trace

/-- The connections that a trace closes, in order. -/
def closed (t : List Exchange) : List Client :=
  t.filterMap Exchange.closed?

/-- The connections that are open after the trace. -/
def alive (t : List Exchange) : List Client :=
  t.foldl Exchange.aliveAfter []

/-- The connections of the trace are held one at a time. No two are the same, at most one is open at
every moment and none when an endpoint is dialed, members are called over the one that is open, and
each is closed exactly once, unless it outlives the trace. -/
structure OneAtATime (t : List Exchange) : Prop where
  distinct : (opened t).Nodup
  atMostOne : ∀ before, before <+: t → (alive before).length ≤ 1
  dialsAlone : Always (fun before x => ∀ endpoint, x.request = .create endpoint →
    alive before = []) t
  callsAlive : Always (fun before x => ∀ client, x.request.over? = some client →
    alive before = [client]) t
  closedOnce : ∀ client ∈ opened t, (closed t).count client = if client ∈ alive t then 0 else 1
  closedOwn : closed t ⊆ opened t

end Trace

open Trace

/-! ## What proper conduct does to connections -/

/-- A call over a connection neither opens nor closes one. -/
theorem Exchange.neither_of_over {x : Exchange} {client : Client}
    (through : x.request.over? = some client) : x.opened? = none ∧ x.closed? = none := by
  obtain ⟨q, answer⟩ := x
  cases q with
  | nodes => cases through
  | create endpoint => cases through
  | list c => exact ⟨rfl, rfl⟩
  | remove c id => exact ⟨rfl, rfl⟩
  | move c id => exact ⟨rfl, rfl⟩
  | drop c => cases through

namespace Standing

variable {s s' : Standing} {x : Exchange} {t : List Exchange}

/-- The connection held is the one alive. -/
theorem Step.aliveAfter (h : Step s x s') : x.aliveAfter s.held.toList = s'.held.toList := by
  cases h with
  | read answer => rfl
  | opened endpoint client => rfl
  | missed endpoint e => rfl
  | called through =>
    obtain ⟨hopened, hclosed⟩ := Exchange.neither_of_over through
    simp [Exchange.aliveAfter, hopened, hclosed]
  | closed client cancelled => simp [Exchange.aliveAfter, Exchange.closed?]

/-- A step closes what was held and holds what it opened. -/
theorem Step.balance (h : Step s x s') :
    s.held.toList ++ x.opened?.toList = x.closed?.toList ++ s'.held.toList := by
  cases h with
  | read answer => rfl
  | opened endpoint client => rfl
  | missed endpoint e => rfl
  | called through =>
    obtain ⟨hopened, hclosed⟩ := Exchange.neither_of_over through
    simp [hopened, hclosed]
  | closed client cancelled => rfl

/-- Only a standing without a connection lets the operation dial. -/
theorem Step.held_of_dial (h : Step s x s') {endpoint : String}
    (hx : x.request = .create endpoint) : s.held = none := by
  cases h with
  | read answer => rfl
  | opened endpoint client => rfl
  | missed endpoint e => rfl
  | called through =>
    rw [hx] at through
    cases through
  | closed client cancelled => cases hx

/-- A member is called over the connection that is held. -/
theorem Step.held_of_call (h : Step s x s') {client : Client}
    (hx : x.request.over? = some client) : s.held = some client := by
  cases h with
  | read answer => cases hx
  | opened endpoint client => cases hx
  | missed endpoint e => cases hx
  | called through => exact through.symm.trans hx
  | closed client cancelled => cases hx

/-- The connection that is held is the one that is alive. -/
theorem Follows.aliveFrom (h : Follows s t s') :
    t.foldl Exchange.aliveAfter s.held.toList = s'.held.toList := by
  induction h with
  | nil s => rfl
  | cons first rest ih => rw [List.foldl_cons, first.aliveAfter, ih]

/-- Along a trace the connection held is the one alive. -/
theorem Follows.alive (h : Follows {} t s') : Trace.alive t = s'.held.toList :=
  h.aliveFrom

/-- Each exchange is a proper step from the standing whose connection is alive before it. -/
theorem Follows.step_at {before after : List Exchange} (h : Follows {} (before ++ x :: after) s') :
    ∃ s₁ s₂, Trace.alive before = s₁.held.toList ∧ Step s₁ x s₂ := by
  obtain ⟨s₁, hbefore, hafter⟩ := follows_append.1 h
  cases hafter with
  | cons first rest => exact ⟨s₁, _, hbefore.alive, first⟩

/-- Connections are closed in the order in which they were opened, all but the one still held. -/
theorem Follows.balance (h : Follows s t s') :
    s.held.toList ++ Trace.opened t = Trace.closed t ++ s'.held.toList := by
  induction h with
  | nil s => exact List.append_nil _
  | @cons s s₁ s' x t first rest ih =>
    have hopened : Trace.opened (x :: t) = x.opened?.toList ++ Trace.opened t := by
      cases hx : x.opened? <;> simp [Trace.opened, hx]
    have hclosed : Trace.closed (x :: t) = x.closed?.toList ++ Trace.closed t := by
      cases hx : x.closed? <;> simp [Trace.closed, hx]
    calc s.held.toList ++ Trace.opened (x :: t)
        = x.closed?.toList ++ (s₁.held.toList ++ Trace.opened t) := by
          rw [hopened, ← List.append_assoc, first.balance, List.append_assoc]
      _ = Trace.closed (x :: t) ++ s'.held.toList := by
          rw [ih, hclosed, List.append_assoc]

theorem held_length_le (s : Standing) : s.held.toList.length ≤ 1 := by
  cases s.held with
  | none => exact Nat.zero_le 1
  | some client => exact Nat.le_refl 1

/-- Proper conduct from an empty standing holds connections one at a time. -/
theorem Follows.oneAtATime (h : Follows {} t s') (hdistinct : (Trace.opened t).Nodup) :
    OneAtATime t where
  distinct := hdistinct
  atMostOne := by
    rintro before ⟨after, rfl⟩
    obtain ⟨s₁, hbefore, -⟩ := follows_append.1 h
    rw [hbefore.alive]
    exact s₁.held_length_le
  dialsAlone := by
    rintro before x after rfl endpoint hx
    obtain ⟨s₁, s₂, halive, hstep⟩ := h.step_at
    rw [halive, hstep.held_of_dial hx]
    rfl
  callsAlive := by
    rintro before x after rfl client hx
    obtain ⟨s₁, s₂, halive, hstep⟩ := h.step_at
    rw [halive, hstep.held_of_call hx]
    rfl
  closedOnce := by
    intro client hclient
    have hbalance : Trace.opened t = Trace.closed t ++ s'.held.toList := h.balance
    rw [hbalance] at hdistinct hclient
    obtain ⟨hclosed, -, hdisjoint⟩ := List.nodup_append.1 hdistinct
    rw [h.alive]
    split
    · rename_i halive
      refine List.count_eq_zero.2 fun hmem => ?_
      exact hdisjoint client hmem client halive rfl
    · rename_i hgone
      refine List.count_eq_one_of_mem hclosed ?_
      exact (List.mem_append.1 hclient).resolve_right hgone
  closedOwn := by
    have hbalance : Trace.opened t = Trace.closed t ++ s'.held.toList := h.balance
    rw [hbalance]
    exact List.subset_append_left _ _

end Standing

/-! ## Operations and searches -/

/-- Every operation is well conducted and holds no connection at its end. -/
theorem Workload.perform_conducts (w : Workload) (op : Operation) :
    (w.perform op).Conducts {} fun _ s => s.held = none := by
  have hresult {α : Type} {p : Program (Except OperationError α)}
      (h : p.Conducts {} fun v s => s = .ofResult none v) :
      (p >>= fun _ => pure ()).Conducts {} fun _ s => s.held = none := by
    refine h.bind fun v s hs => conducts_pure ?_
    rw [hs, Standing.ofResult_held]
  cases op with
  | reconcile nodes => exact (w.reconcile_conducts nodes).bind fun r s hs => conducts_pure hs.1
  | remove name => exact hresult (w.removeMember_conducts name)
  | removeForMachine machine => exact hresult (w.removeForMachine_conducts machine)
  | forward machine candidate => exact hresult (w.forwardLeadership_conducts machine candidate)
  | memberNames => exact hresult w.memberNames_conducts

/-- A search leaves the connection that it found, and no other. -/
theorem Program.Conducts.search_alive {p : Program (Except ClientError Client)}
    (h : p.Conducts {} fun v s => s = .ofSearch v) {σ : Type} (world : World σ)
    (s : Situation σ) :
    OneAtATime (p.run world s).trace ∧
      alive (p.run world s).trace = (p.run world s).value.toOption.toList := by
  obtain ⟨s', hfollows, hs'⟩ := h.run world s
  refine ⟨hfollows.oneAtATime (opened_nodup world p s), ?_⟩
  rw [hfollows.alive, hs']
  cases (p.run world s).value with
  | ok client => rfl
  | error e => rfl

/-- Against any world, an operation and a search hold their connections one at a time: at every
moment at most one is open, none is while an endpoint is dialed, and each is closed exactly once. An
operation leaves none open, and a search leaves the one that it returns. -/
theorem connections_held_one_at_a_time {σ : Type} (world : World σ) (s : Situation σ)
    (w : Workload) :
    (∀ op : Operation, OneAtATime ((w.perform op).run world s).trace ∧
      alive ((w.perform op).run world s).trace = []) ∧
    (∀ nodes, OneAtATime ((ClientSearch.firstAvailable nodes).run world s).trace ∧
      alive ((ClientSearch.firstAvailable nodes).run world s).trace =
        ((ClientSearch.firstAvailable nodes).run world s).value.toOption.toList) ∧
    (∀ nodes, OneAtATime ((ClientSearch.leaderClient nodes).run world s).trace ∧
      alive ((ClientSearch.leaderClient nodes).run world s).trace =
        ((ClientSearch.leaderClient nodes).run world s).value.toOption.toList) := by
  refine ⟨fun op => ?_, fun nodes => ?_, fun nodes => ?_⟩
  · obtain ⟨s', hfollows, hnone⟩ := (w.perform_conducts op).run world s
    refine ⟨hfollows.oneAtATime (opened_nodup world (w.perform op) s), ?_⟩
    rw [hfollows.alive, hnone]
    rfl
  · exact (ClientSearch.firstAvailable_conducts nodes).search_alive world s
  · exact (ClientSearch.leaderClient_conducts nodes).search_alive world s

end QuorumKeeper
