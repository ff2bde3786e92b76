import QuorumKeeper.Proofs.Operations

/-!
# The conduct of operations

A running operation stands somewhere: it holds one connection or none, and a call of it has been
cancelled or not (`Standing`). `Standing.Step` lists the exchanges that are proper at a standing and
says where each leads, and `Standing.Follows` joins the steps of a trace. Dialing is proper only
without a connection, a call only over the connection that is held, and after a cancellation nothing
but closing that connection.

`Program.Conducts` is a triple over standings: started at one, the program only makes proper
exchanges, whatever the answers are, and its value fits the standing it ends at. Every search and
every operation conducts itself, and its value shows a cancellation exactly when its standing does.
-/

set_option autoImplicit false

namespace QuorumKeeper

/-- The connection over which the request calls a member, if it does. -/
def Request.over? : Request → Option Client
  | .list client => some client
  | .remove client _ => some client
  | .move client _ => some client
  | _ => none

/-- The error that a dial or a call was answered with. -/
def Exchange.error? : Exchange → Option ClientError
  | ⟨.create _, .error e⟩ => some e
  | ⟨.list _, .error e⟩ => some e
  | ⟨.remove _ _, .error e⟩ => some e
  | ⟨.move _ _, .error e⟩ => some e
  | _ => none

/-- A dial or a call was answered with an error that is or holds a cancellation. -/
def Exchange.isCancelled (x : Exchange) : Bool :=
  x.error?.any ClientError.isCancelled

/-! ## Errors that show a cancellation -/

/-- None of the errors is a cancellation. -/
def Calm {ε : Type} (isCancelled : ε → Bool) (errors : List ε) : Prop :=
  ∀ e ∈ errors, isCancelled e = false

/-- The last of the errors is a cancellation, and no earlier one is. -/
def CutShort {ε : Type} (isCancelled : ε → Bool) (errors : List ε) : Prop :=
  ∃ earlier last, errors = earlier ++ [last] ∧ isCancelled last = true ∧ Calm isCancelled earlier

/-- The errors of an outcome with at most one. -/
def errorsOf {ε α : Type} : Except ε α → List ε
  | .ok _ => []
  | .error e => [e]

section Errors

variable {ε : Type} {isCancelled : ε → Bool}

theorem calm_nil : Calm isCancelled ([] : List ε) := by
  intro e he
  cases he

/-- One more error that is no cancellation leaves all calm. -/
theorem Calm.append {errors : List ε} (h : Calm isCancelled errors) {e : ε}
    (he : isCancelled e = false) : Calm isCancelled (errors ++ [e]) := by
  intro e' he'
  rcases List.mem_append.1 he' with he' | he'
  · exact h e' he'
  · rw [List.mem_singleton.1 he']
    exact he

/-- A cancellation after calm errors cuts them short. -/
theorem Calm.cutShort {errors : List ε} (h : Calm isCancelled errors) {e : ε}
    (he : isCancelled e = true) : CutShort isCancelled (errors ++ [e]) :=
  ⟨errors, e, rfl, he, h⟩

end Errors

/-! ## Standings -/

/-- The connection that an operation holds, and whether a call of it has been cancelled. -/
structure Standing where
  held : Option Client := none
  cancelled : Bool := false

namespace Standing

/-- The exchange is proper at the first standing and leads to the second: the inventory is read and
endpoints are dialed while no connection is held, and members are called over the one that is held.
-/
inductive Step : Standing → Exchange → Standing → Prop where
  | read (answer : Except InventoryFailure (List String)) :
      Step ⟨none, false⟩ ⟨.nodes, answer⟩ ⟨none, false⟩
  | opened (endpoint : String) (client : Client) :
      Step ⟨none, false⟩ ⟨.create endpoint, .ok client⟩ ⟨some client, false⟩
  | missed (endpoint : String) (e : ClientError) :
      Step ⟨none, false⟩ ⟨.create endpoint, .error e⟩ ⟨none, e.isCancelled⟩
  | called {client : Client} {x : Exchange} (through : x.request.over? = some client) :
      Step ⟨some client, false⟩ x ⟨some client, x.isCancelled⟩
  | closed (client : Client) (cancelled : Bool) :
      Step ⟨some client, cancelled⟩ ⟨.drop client, ()⟩ ⟨none, cancelled⟩

/-- The trace consists of proper exchanges and leads from the first standing to the second. -/
inductive Follows : Standing → List Exchange → Standing → Prop where
  | nil (s : Standing) : Follows s [] s
  | cons {s s' s'' : Standing} {x : Exchange} {t : List Exchange} (first : Step s x s')
      (rest : Follows s' t s'') : Follows s (x :: t) s''

/-- A trace is followed part by part. -/
theorem follows_append {s s'' : Standing} {t t' : List Exchange} :
    Follows s (t ++ t') s'' ↔ ∃ s', Follows s t s' ∧ Follows s' t' s'' := by
  constructor
  · intro h
    induction t generalizing s with
    | nil => exact ⟨s, .nil s, h⟩
    | cons x rest ih =>
      cases h with
      | cons first h =>
        obtain ⟨s', hrest, h'⟩ := ih h
        exact ⟨s', .cons first hrest, h'⟩
  · rintro ⟨s', h, h'⟩
    induction h with
    | nil s => exact h'
    | cons first rest ih => exact .cons first (ih h')

/-- The standing after a search. -/
def ofSearch : Except ClientError Client → Standing
  | .ok client => { held := some client }
  | .error e => { cancelled := e.isCancelled }

/-- The standing after an operation, or a part of one that leaves a connection as it is. -/
def ofResult {α : Type} (held : Option Client) : Except OperationError α → Standing
  | .ok _ => { held }
  | .error e => { held, cancelled := e.isCancelled }

@[simp] theorem ofResult_held {α : Type} (held : Option Client) (v : Except OperationError α) :
    (ofResult held v).held = held := by
  cases v with
  | ok a => rfl
  | error e => rfl

/-- The errors show a cancellation exactly if there was one. -/
def ShownBy {ε : Type} (s : Standing) (isCancelled : ε → Bool) (errors : List ε) : Prop :=
  if s.cancelled then CutShort isCancelled errors else Calm isCancelled errors

theorem shownBy_single {ε : Type} (held : Option Client) (isCancelled : ε → Bool) (e : ε) :
    ShownBy ⟨held, isCancelled e⟩ isCancelled [e] := by
  unfold ShownBy
  cases he : isCancelled e with
  | true => exact calm_nil.cutShort he
  | false => exact calm_nil.append he

theorem ofSearch_shownBy (v : Except ClientError Client) :
    (ofSearch v).ShownBy ClientError.isCancelled (errorsOf v) := by
  cases v with
  | ok client => exact calm_nil
  | error e => exact shownBy_single none ClientError.isCancelled e

theorem ofResult_shownBy {α : Type} (held : Option Client) (v : Except OperationError α) :
    (ofResult held v).ShownBy OperationError.isCancelled (errorsOf v) := by
  cases v with
  | ok a => exact calm_nil
  | error e => exact shownBy_single held OperationError.isCancelled e

end Standing

/-! ## Triples -/

namespace Program

variable {α β : Type} {s : Standing}

/-- Started at the standing, the program makes only proper exchanges, and the value and the standing
at its end have the property. -/
def Conducts (p : Program α) (s : Standing) (Q : α → Standing → Prop) : Prop :=
  p.Ensures fun t a => ∃ s', s.Follows t s' ∧ Q a s'

/-- A program that asks nothing stays at its standing. -/
theorem conducts_pure {Q : α → Standing → Prop} {a : α} (h : Q a s) :
    (pure a : Program α).Conducts s Q :=
  ⟨s, .nil s, h⟩

theorem conducts_report {Q : α → Standing → Prop} {e : Event} {f : Unit → Program α}
    (h : (f ()).Conducts s Q) : (report e >>= f).Conducts s Q :=
  h

/-- A request conducts itself if each answer leads to a standing from which the rest does. -/
theorem conducts_request {Q : α → Standing → Prop} {q : Request} {f : q.Answer → Program α}
    (h : ∀ a, ∃ s', s.Step ⟨q, a⟩ s' ∧ (f a).Conducts s' Q) : (request q >>= f).Conducts s Q := by
  intro a
  obtain ⟨s', hstep, hf⟩ := h a
  apply Ensures.mono hf
  intro t v hv
  obtain ⟨s'', hfollows, hQ⟩ := hv
  exact ⟨s'', .cons hstep hfollows, hQ⟩

/-- One program after another conducts itself if both do. -/
theorem Conducts.bind {Q : α → Standing → Prop} {R : β → Standing → Prop} {p : Program α}
    {f : α → Program β} (hp : p.Conducts s Q) (hf : ∀ a s', Q a s' → (f a).Conducts s' R) :
    (p >>= f).Conducts s R := by
  refine (ensures_bind p f _).2 (Ensures.mono hp fun t a ha => ?_)
  obtain ⟨s', hfollows, hQ⟩ := ha
  apply Ensures.mono (hf a s' hQ)
  intro t' b hb
  obtain ⟨s'', hfollows', hR⟩ := hb
  exact ⟨s'', Standing.follows_append.2 ⟨s', hfollows, hfollows'⟩, hR⟩

/-- A weaker condition on the end. -/
theorem Conducts.mono {Q R : α → Standing → Prop} {p : Program α} (h : p.Conducts s Q)
    (himp : ∀ a s', Q a s' → R a s') : p.Conducts s R := by
  apply Ensures.mono h
  intro t a ha
  obtain ⟨s', hfollows, hQ⟩ := ha
  exact ⟨s', hfollows, himp a s' hQ⟩

/-- A call over the connection that is held. -/
theorem conducts_call {Q : α → Standing → Prop} {client : Client} {q : Request}
    (through : q.over? = some client) {f : q.Answer → Program α}
    (h : ∀ a, (f a).Conducts ⟨some client, Exchange.isCancelled ⟨q, a⟩⟩ Q) :
    (request q >>= f).Conducts ⟨some client, false⟩ Q :=
  conducts_request fun a => ⟨_, .called through, h a⟩

/-- Closing the connection that is held. -/
theorem conducts_drop {Q : α → Standing → Prop} {client : Client} {cancelled : Bool}
    {f : Unit → Program α} (h : (f ()).Conducts ⟨none, cancelled⟩ Q) :
    (drop client >>= f).Conducts ⟨some client, cancelled⟩ Q :=
  conducts_request fun _ => ⟨_, .closed client cancelled, h⟩

end Program

open Program Standing

/-! ## Searches -/

namespace ClientSearch

/-- Candidates are dialed one after the other, and the last one alone can be held or cancelled. -/
theorem tryEach_conducts (nodes : List String) {failures : List ClientError}
    (hcalm : Calm ClientError.isCancelled failures) :
    (tryEach nodes failures).Conducts {} fun v s => s = .ofSearch v := by
  induction nodes generalizing failures with
  | nil =>
    refine conducts_pure ?_
    show (⟨none, false⟩ : Standing) = ⟨none, ClientError.anyCancelled failures⟩
    rw [ClientError.anyCancelled_eq_false_iff.2 hcalm]
  | cons node rest ih =>
    apply conducts_request
    intro answer
    cases answer with
    | ok client => exact ⟨_, .opened _ client, conducts_pure rfl⟩
    | error e =>
      refine ⟨_, .missed _ e, ?_⟩
      show (if e.isCancelled then _ else _ : Program (Except ClientError Client)).Conducts _ _
      cases hcancelled : e.isCancelled with
      | true =>
        refine conducts_pure ?_
        show (⟨none, true⟩ : Standing) = ⟨none, e.isCancelled⟩
        rw [hcancelled]
      | false => exact conducts_report (ih (hcalm.append hcancelled))

/-- A search for a node that answers holds the connection it gives, and no other. -/
theorem firstAvailable_conducts (nodes : List String) :
    (firstAvailable nodes).Conducts {} fun v s => s = .ofSearch v := by
  unfold firstAvailable
  split
  · exact conducts_pure rfl
  · exact tryEach_conducts nodes calm_nil

/-- The standing after a probe. A node is skipped only where nothing was cancelled. -/
def Probe.LeftAt : Probe → Standing → Prop
  | .found client, s => s = { held := some client }
  | .skip e, s => s = {} ∧ e.isCancelled = false
  | .fatal e, s => s = { cancelled := e.isCancelled }

theorem Probe.ofFailure_leftAt (e : ClientError) :
    (Probe.ofFailure e).LeftAt { cancelled := e.isCancelled } := by
  unfold ofFailure
  cases he : e.isCancelled with
  | true =>
    show (⟨none, true⟩ : Standing) = ⟨none, e.isCancelled⟩
    rw [he]
  | false => exact ⟨rfl, he⟩

/-- Following a leader holds the connection it gives, and no other. -/
theorem followLeader_conducts (via : String) (nodes : List String) (members : List Member)
    (leaderId : UInt64) : (followLeader via nodes members leaderId).Conducts {} Probe.LeftAt := by
  unfold followLeader
  cases Member.withId? members leaderId with
  | none => exact conducts_report (conducts_pure ⟨rfl, rfl⟩)
  | some leader =>
    cases h : leader.nodeAmong nodes with
    | none =>
      simp only [h]
      exact conducts_pure rfl
    | some node =>
      simp only [h]
      refine conducts_report ((firstAvailable_conducts [node]).bind fun v s hs => ?_)
      cases v with
      | ok client => exact conducts_pure hs
      | error e => exact conducts_pure hs

/-- A node that is asked for the leader is let go before the leader is dialed. -/
theorem probe_conducts (via : String) (nodes : List String) :
    (probe via nodes).Conducts {} Probe.LeftAt := by
  apply (firstAvailable_conducts [via]).bind
  intro v s hs
  subst hs
  cases v with
  | error e => exact conducts_pure (Probe.ofFailure_leftAt e)
  | ok client =>
    refine conducts_call rfl fun listed => conducts_drop ?_
    cases listed with
    | error e => exact conducts_pure (Probe.ofFailure_leftAt e)
    | ok members => exact followLeader_conducts via nodes members client.leader

/-- Candidates that have run out are no cancellation. -/
theorem exhausted_not_cancelled {failures : List ClientError}
    (hcalm : Calm ClientError.isCancelled failures) :
    (exhausted failures).isCancelled = false := by
  unfold exhausted
  split
  · exact ClientError.anyCancelled_eq_false_iff.2 hcalm
  · exact ClientError.anyCancelled_eq_false_iff.2 hcalm

theorem probeEach_conducts (nodes candidates : List String) {failures : List ClientError}
    (hcalm : Calm ClientError.isCancelled failures) :
    (probeEach nodes candidates failures).Conducts {} fun v s => s = .ofSearch v := by
  induction candidates generalizing failures with
  | nil =>
    refine conducts_pure ?_
    show (⟨none, false⟩ : Standing) = ⟨none, (exhausted failures).isCancelled⟩
    rw [exhausted_not_cancelled hcalm]
  | cons via rest ih =>
    apply (probe_conducts via nodes).bind
    intro result s hs
    cases result with
    | found client => exact conducts_pure hs
    | skip e =>
      obtain ⟨rfl, he⟩ := hs
      exact ih (hcalm.append he)
    | fatal e => exact conducts_pure hs

/-- A search for the leader holds the connection it gives, and no other. -/
theorem leaderClient_conducts (nodes : List String) :
    (leaderClient nodes).Conducts {} fun v s => s = .ofSearch v := by
  unfold leaderClient
  split
  · exact conducts_pure rfl
  · exact probeEach_conducts nodes nodes calm_nil

end ClientSearch

/-! ## Operations -/

namespace Workload

theorem controlPlaneNodes_conducts :
    controlPlaneNodes.Conducts {} fun v s => s = .ofResult none v := by
  refine conducts_request fun answer => ⟨_, .read answer, ?_⟩
  cases answer with
  | ok names => exact conducts_pure rfl
  | error failure => exact conducts_pure rfl

theorem listMembers_conducts (client : Client) :
    (listMembers client).Conducts { held := some client } fun v s => s = .ofResult client v := by
  apply conducts_call rfl
  intro answer
  cases answer with
  | ok members => exact conducts_pure rfl
  | error e => exact conducts_pure rfl

/-- What goes on with the members that are listed, and stops where they cannot be listed. -/
theorem listMembers_bind_conducts {α : Type} {client : Client}
    {next : Except OperationError (List Member) → Program (Except OperationError α)}
    (hstops : ∀ e, next (.error e) = pure (.error e))
    (hlisted : ∀ members, (next (.ok members)).Conducts { held := some client }
      fun v s => s = .ofResult client v) :
    (listMembers client >>= next).Conducts { held := some client }
      fun v s => s = .ofResult client v := by
  apply (listMembers_conducts client).bind
  intro listed s hs
  subst hs
  cases listed with
  | error e =>
    rw [hstops]
    exact conducts_pure rfl
  | ok members => exact hlisted members

/-- Taking out a named member keeps to the connection that is held. -/
theorem removeNamed_conducts (name : String) (client : Client) :
    (removeNamed name client).Conducts { held := some client }
      fun v s => s = .ofResult client v := by
  apply listMembers_bind_conducts
  · intro e
    rfl
  · intro members
    cases h : Member.named? members name with
    | none =>
      simp only [h]
      exact conducts_report (conducts_pure rfl)
    | some m =>
      simp only [h]
      apply conducts_call rfl
      intro answer
      cases answer with
      | error e => exact conducts_pure rfl
      | ok u => exact conducts_report (conducts_pure rfl)

/-- Handing leadership over keeps to the connection that is held. -/
theorem moveLeader_conducts (outgoing incoming : String) (client : Client) :
    (moveLeader outgoing incoming client).Conducts { held := some client }
      fun v s => s = .ofResult client v := by
  apply listMembers_bind_conducts
  · intro e
    rfl
  · intro members
    cases hc : (Member.named? members outgoing).filter (·.id == client.leader) with
    | none =>
      simp only [hc]
      exact conducts_report (conducts_pure rfl)
    | some current =>
      cases h : Member.named? members incoming with
      | none =>
        simp only [hc, h]
        exact conducts_pure rfl
      | some next =>
        simp only [hc, h]
        apply conducts_call rfl
        intro answer
        cases answer with
        | error e => exact conducts_pure rfl
        | ok u => exact conducts_report (conducts_pure rfl)

/-- Listing names keeps to the connection that is held. -/
theorem listNames_conducts (client : Client) :
    (listNames client).Conducts { held := some client } fun v s => s = .ofResult client v := by
  apply listMembers_bind_conducts
  · intro e
    rfl
  · intro members
    exact conducts_pure rfl

/-- Whatever becomes of the use of a connection, the connection is closed after it. -/
theorem withClient_conducts {α : Type} {connect : Program (Except ClientError Client)}
    {use : Client → Program (Except OperationError α)}
    (hconnect : connect.Conducts {} fun v s => s = .ofSearch v)
    (huse : ∀ client, (use client).Conducts { held := some client }
      fun v s => s = .ofResult client v) :
    (withClient connect use).Conducts {} fun v s => s = .ofResult none v := by
  apply hconnect.bind
  intro found s hs
  subst hs
  cases found with
  | error e => exact conducts_pure rfl
  | ok client =>
    apply (huse client).bind
    intro result s hs
    subst hs
    cases result with
    | error e => exact conducts_drop (conducts_pure rfl)
    | ok a => exact conducts_drop (conducts_pure rfl)

/-- What is done with the leader closes its connection afterwards. -/
theorem withLeader_conducts {α : Type} {use : Client → Program (Except OperationError α)}
    (huse : ∀ client, (use client).Conducts { held := some client }
      fun v s => s = .ofResult client v) :
    (withLeader use).Conducts {} fun v s => s = .ofResult none v := by
  apply controlPlaneNodes_conducts.bind
  intro known s hs
  subst hs
  cases known with
  | error e => exact conducts_pure rfl
  | ok known => exact withClient_conducts (ClientSearch.leaderClient_conducts known) huse

/-- An attempt to take a member out holds nothing in the end. -/
theorem removeMember_conducts (w : Workload) (name : String) :
    (w.removeMember name).Conducts {} fun v s => s = .ofResult none v := by
  apply controlPlaneNodes_conducts.bind
  intro known s hs
  subst hs
  cases known with
  | error e => exact conducts_pure rfl
  | ok known =>
    cases hleft : w.guard.remaining known name with
    | error e =>
      simp only [hleft]
      refine conducts_pure ?_
      show (⟨none, false⟩ : Standing) = ⟨none, e.isCancelled⟩
      rw [QuorumGuard.remaining_not_cancelled hleft]
    | ok left =>
      simp only [hleft]
      split
      · exact withClient_conducts (ClientSearch.firstAvailable_conducts left)
          (removeNamed_conducts name)
      · exact conducts_pure rfl

theorem removeForMachine_conducts (w : Workload) (machine : Option Machine) :
    (w.removeForMachine machine).Conducts {} fun v s => s = .ofResult none v := by
  unfold removeForMachine
  split
  · exact conducts_pure rfl
  · exact removeMember_conducts w _

/-- A handover holds nothing in the end. -/
theorem forwardLeadership_conducts (w : Workload) (machine candidate : Option Machine) :
    (w.forwardLeadership machine candidate).Conducts {} fun v s => s = .ofResult none v := by
  unfold forwardLeadership
  split
  · exact conducts_pure rfl
  · split
    · exact conducts_pure rfl
    · split
      · exact conducts_pure rfl
      · split
        · exact withLeader_conducts (moveLeader_conducts _ _)
        · exact conducts_pure rfl

/-- A listing of names holds nothing in the end. -/
theorem memberNames_conducts (w : Workload) :
    w.memberNames.Conducts {} fun v s => s = .ofResult none v := by
  unfold memberNames
  split
  · exact withLeader_conducts listNames_conducts
  · exact conducts_pure rfl

/-! ## Reconciliation -/

/-- The standing while a reconciliation goes through its entries. It holds no connection between
two of them, and goes on only where nothing was cancelled. -/
def Progress.LeftAt : Progress → Standing → Prop
  | .goOn r, s => s = {} ∧ Calm OperationError.isCancelled r.errors
  | .stop r, s => s = { cancelled := true } ∧ CutShort OperationError.isCancelled r.errors

/-- A pass over listed members ends at a cancelled attempt. -/
theorem pruneListed_conducts (w : Workload) (nodes : List String) (members : List Member)
    {r : Report} (hcalm : Calm OperationError.isCancelled r.errors) :
    (pruneListed w nodes members r).Conducts {} Progress.LeftAt := by
  induction members generalizing r with
  | nil => exact conducts_pure ⟨rfl, hcalm⟩
  | cons m rest ih =>
    unfold pruneListed
    split
    · have hattempt : Calm OperationError.isCancelled (r.attempt m.name).errors := by
        rw [r.attempt_errors]
        exact hcalm
      apply (removeMember_conducts w m.name).bind
      intro result s hs
      subst hs
      cases result with
      | ok u => exact ih hattempt
      | error e =>
        refine conducts_report ?_
        show Program.Conducts _ ⟨none, e.isCancelled⟩ _
        cases he : e.isCancelled with
        | true => exact conducts_pure ⟨rfl, hattempt.cutShort he⟩
        | false => exact ih (hattempt.append he)
    · exact ih hcalm

/-- One node's turn ends at a cancelled dial, listing or attempt. -/
theorem pruneVia_conducts (w : Workload) (nodes : List String) (via : String) {r : Report}
    (hcalm : Calm OperationError.isCancelled r.errors) :
    (pruneVia w nodes via r).Conducts {} Progress.LeftAt := by
  apply (ClientSearch.firstAvailable_conducts [via]).bind
  intro found s hs
  subst hs
  cases found with
  | error e =>
    show (if e.isCancelled then _ else _ : Program Progress).Conducts ⟨none, e.isCancelled⟩ _
    cases he : e.isCancelled with
    | true => exact conducts_pure ⟨rfl, hcalm.cutShort he⟩
    | false => exact conducts_report (conducts_pure ⟨rfl, hcalm⟩)
  | ok client =>
    -- here each way out closes the connection by itself, and the removals begin without one
    apply conducts_call rfl
    intro listed
    cases listed with
    | error e =>
      show (if e.isCancelled then _ else _ : Program Progress).Conducts
        ⟨some client, e.isCancelled⟩ _
      cases he : e.isCancelled with
      | true => exact conducts_drop (conducts_pure ⟨rfl, hcalm.cutShort he⟩)
      | false => exact conducts_report (conducts_drop (conducts_pure ⟨rfl, hcalm⟩))
    | ok members => exact conducts_drop (pruneListed_conducts w nodes members hcalm)

theorem pruneEach_conducts (w : Workload) (nodes vias : List String) {r : Report}
    (hcalm : Calm OperationError.isCancelled r.errors) :
    (pruneEach w nodes vias r).Conducts {} fun r s =>
      s.held = none ∧ s.ShownBy OperationError.isCancelled r.errors := by
  induction vias generalizing r with
  | nil => exact conducts_pure ⟨rfl, hcalm⟩
  | cons via rest ih =>
    apply (pruneVia_conducts w nodes via hcalm).bind
    intro progress s hs
    cases progress with
    | goOn r =>
      obtain ⟨rfl, hcalm⟩ := hs
      exact ih hcalm
    | stop r =>
      obtain ⟨rfl, hcut⟩ := hs
      exact conducts_pure ⟨rfl, hcut⟩

/-- A reconciliation holds nothing in the end, and shows a cancellation in its last error. -/
theorem reconcile_conducts (w : Workload) (nodes : List String) :
    (w.reconcile nodes).Conducts {} fun r s =>
      s.held = none ∧ s.ShownBy OperationError.isCancelled r.errors := by
  unfold reconcile
  split
  · apply (pruneEach_conducts w nodes nodes (r := {}) calm_nil).bind
    intro r s hs
    show (if _ then _ else _ : Program Report).Conducts s _
    split
    · exact conducts_report (conducts_pure hs)
    · exact conducts_pure hs
  · exact conducts_pure ⟨rfl, calm_nil⟩

end Workload

end QuorumKeeper
