import QuorumKeeper.Proofs.Attempts
import QuorumKeeper.Proofs.FreshListing
import Mathlib.Data.List.Infix

/-!
# Removals behind the guard

`GuardedAttempt` describes the exchanges of an attempt up to the removal that it issues: the
inventory has left enough nodes, and the removal goes over a connection to one of them.

`Trace.RemovesOnly` says of every removal of a trace what came before it. From a single attempt it
passes to every operation and to every sequence of operations, since what justifies a removal also
does so when more has happened before (`Program.Justifies.bind`). Along the way `Operation.AimsAt`
keeps track of the name for which a removal is attempted.
-/

set_option autoImplicit false

namespace QuorumKeeper

open Program ClientSearch QuorumGuard

/-! ## What comes before a removal -/

namespace Trace

/-- Every removal of the trace stands in the relation to the exchanges before it. -/
def RemovesOnly (P : List Exchange → Client → UInt64 → Prop) (t : List Exchange) : Prop :=
  ∀ before client id answer after, t = before ++ ⟨.remove client id, answer⟩ :: after →
    P before client id

variable {P Q : List Exchange → Client → UInt64 → Prop} {t t' : List Exchange}

theorem removesOnly_iff_always :
    RemovesOnly P t ↔ Always
      (fun before x => ∀ client id, x.request = .remove client id → P before client id) t := by
  constructor
  · rintro h before ⟨q, answer⟩ after heq client id rfl
    exact h before client id answer after heq
  · intro h before client id answer after heq
    exact h before _ after heq client id rfl

/-- Removals of a second part are judged with the first behind them. -/
theorem removesOnly_append :
    RemovesOnly P (t ++ t') ↔
      RemovesOnly P t ∧ RemovesOnly (fun before => P (t ++ before)) t' := by
  simp only [removesOnly_iff_always, always_append]

theorem removesOnly_cons {x : Exchange} :
    RemovesOnly P (x :: t) ↔ (∀ client id, x.request = .remove client id → P [] client id) ∧
      RemovesOnly (fun before => P (x :: before)) t := by
  simp only [removesOnly_iff_always, always_cons]

/-- An exchange that is no removal only adds to what came before. -/
theorem removesOnly_cons_of_isRemove_eq_false {x : Exchange} (hx : x.request.isRemove = false) :
    RemovesOnly P (x :: t) ↔ RemovesOnly (fun before => P (x :: before)) t := by
  rw [removesOnly_cons, and_iff_right]
  intro client id hremove
  rw [hremove] at hx
  cases hx

/-- A trace without removals removes nothing it should not. -/
theorem removesOnly_of_no_removals (h : removals t = 0) : RemovesOnly P t := by
  rintro before client id answer after rfl
  rw [removals, List.countP_eq_zero] at h
  exact absurd rfl (h ⟨.remove client id, answer⟩ (by simp))

theorem RemovesOnly.mono (h : RemovesOnly P t)
    (himp : ∀ before client id, P before client id → Q before client id) : RemovesOnly Q t :=
  fun before client id answer after heq =>
    himp before client id (h before client id answer after heq)

end Trace

open Trace

/-- A search removes nobody. -/
theorem firstAvailable_removals {nodes : List String} {t : List Exchange}
    {v : Except ClientError Client} (h : (firstAvailable nodes).Yields t v) : removals t = 0 :=
  (ensures_iff_yields.1 (firstAvailable_isCareful nodes) t v h).removals_eq_zero

/-! ## The guard before a removal -/

/-- The guard counts the nodes without the target's name in theirs. -/
theorem QuorumGuard.nodesWithout_eq_filter (nodes : List String) (target : String) :
    nodesWithout nodes target = nodes.filter fun n => ¬ n.toList <:+: target.toList := by
  refine List.filter_congr fun n _ => ?_
  rw [Bool.eq_iff_iff, Bool.not_eq_true', decide_eq_true_eq, ← Text.occurs_iff, Bool.not_eq_true]

/-- The exchanges of an attempt up to its removal: the inventory leaves enough nodes for the guard,
the first of them are dialed in vain, the next one lists the members, and the first member under the
name is the one to go. -/
inductive GuardedAttempt (guard : QuorumGuard) (name : String) (client : Client) :
    UInt64 → List Exchange → Prop where
  | intro {known left : List String} {missed : List (Passed Misses)} {node : String}
      {members : List Member} {m : Member}
      (enough : guard.minimum ≤ (nodesWithout known name).length)
      (order : nodesWithout known name = missed.map Passed.node ++ node :: left)
      (first : Member.named? members name = some m) :
      GuardedAttempt guard name client m.id
        (⟨.nodes, .ok known⟩ :: missed.flatMap Passed.trace ++
          [⟨.create (etcdEndpoint node), .ok client⟩, ⟨.list client, .ok members⟩])

/-- All that came before is a listing over the connection that shows the member under the name. -/
def ListedBefore (name : String) (client : Client) (before : List Exchange) (c : Client)
    (id : UInt64) : Prop :=
  c = client ∧ ∃ members m, before = [⟨.list client, .ok members⟩] ∧
    Member.named? members name = some m ∧ id = m.id

/-- A removal on a connection takes out a member listed there just before. -/
theorem Workload.NamedRemoval.removesOnly {name : String} {client : Client} {t : List Exchange}
    {v : Except OperationError Unit} (h : NamedRemoval name client t v) :
    RemovesOnly (ListedBefore name client) t := by
  have hremoval {members : List Member} {m : Member} (first : Member.named? members name = some m)
      (answer : Except ClientError Unit) :
      RemovesOnly (ListedBefore name client)
        [⟨.list client, .ok members⟩, ⟨.remove client m.id, answer⟩] := by
    rw [removesOnly_cons_of_isRemove_eq_false rfl, removesOnly_cons]
    constructor
    · intro c id hremove
      cases hremove
      exact ⟨rfl, members, m, rfl, first, rfl⟩
    · exact removesOnly_of_no_removals rfl
  cases h with
  | unlisted e => exact removesOnly_of_no_removals rfl
  | absent none => exact removesOnly_of_no_removals rfl
  | failed first e => exact hremoval first (.error e)
  | removed first => exact hremoval first (.ok ())

/-- An attempt removes nobody before the guard has let it pass. -/
theorem Workload.Attempt.removesOnly {w : Workload} {name : String} {t : List Exchange}
    {v : Except OperationError Unit} (h : Attempt w name t v) :
    RemovesOnly (fun before client id => GuardedAttempt w.guard name client id before) t := by
  cases h with
  | unread failure => exact removesOnly_of_no_removals rfl
  | refused few => exact removesOnly_of_no_removals rfl
  | idle enough access => exact removesOnly_of_no_removals rfl
  | unconnected enough access search =>
    rw [removesOnly_cons_of_isRemove_eq_false rfl]
    exact removesOnly_of_no_removals (firstAvailable_removals search)
  | @connected known enough access t₁ t₂ client v search use =>
    have hsearch := firstAvailable_removals search
    obtain ⟨missed, node, left, order, rfl⟩ := firstAvailable_found search
    rw [removesOnly_cons_of_isRemove_eq_false rfl, removesOnly_append, removesOnly_append]
    refine ⟨⟨removesOnly_of_no_removals hsearch, ?_⟩, removesOnly_of_no_removals rfl⟩
    refine use.removesOnly.mono ?_
    rintro before c id ⟨rfl, members, m, rfl, first, rfl⟩
    have hguarded : GuardedAttempt w.guard name c m.id _ := .intro enough order first
    simpa using hguarded

/-- An operation aims at the member under a name, given what was exchanged before the attempt:
reconciling aims at stale members that some listing has shown. -/
inductive Operation.AimsAt : Operation → List Exchange → String → Prop where
  | stale {nodes : List String} {before : List Exchange} {client : Client}
      {members : List Member} {m : Member} (listed : ⟨.list client, .ok members⟩ ∈ before)
      (shown : m ∈ members) (stale : Workload.isStale nodes m = true) :
      AimsAt (.reconcile nodes) before m.name
  | named {name : String} {before : List Exchange} : AimsAt (.remove name) before name
  | hosted {machine : Option Machine} {node : String} {before : List Exchange}
      (host : nodeOf machine = some node) : AimsAt (.removeForMachine machine) before node

/-- What came before a removal ends with a guarded attempt, and the attempt aims at a name for which
there was reason when it began. -/
def Justified (guard : QuorumGuard) (Aims : List Exchange → String → Prop)
    (before : List Exchange) (client : Client) (id : UInt64) : Prop :=
  ∃ earlier attempt name, before = earlier ++ attempt ∧ Aims earlier name ∧
    GuardedAttempt guard name client id attempt

/-- Reasons remain reasons when more has happened. -/
def Lasting (Aims : List Exchange → String → Prop) : Prop :=
  ∀ (before before' : List Exchange) (name : String), before ⊆ before' → Aims before name →
    Aims before' name

/-- What an operation aims at, it goes on aiming at. -/
theorem Operation.aimsAt_lasting (op : Operation) : Lasting op.AimsAt := by
  intro before before' name hsub h
  cases h with
  | stale listed shown stale => exact .stale (hsub listed) shown stale
  | named => exact .named
  | hosted host => exact .hosted host

section Justified

variable {guard : QuorumGuard} {Aims : List Exchange → String → Prop} {α β : Type}

theorem Lasting.after (hlasting : Lasting Aims) (x : Exchange) :
    Lasting fun before => Aims (x :: before) :=
  fun _ _ name hsub h => hlasting _ _ name (List.cons_subset_cons x hsub) h

/-- Earlier exchanges do not take a justification away. -/
theorem Justified.prepend (hlasting : Lasting Aims) (earlier : List Exchange)
    {before : List Exchange} {client : Client} {id : UInt64}
    (h : Justified guard Aims before client id) :
    Justified guard Aims (earlier ++ before) client id := by
  obtain ⟨past, attempt, name, rfl, haims, hattempt⟩ := h
  have hmore : past ⊆ earlier ++ past := List.subset_append_right earlier past
  refine ⟨earlier ++ past, attempt, name, ?_, hlasting _ _ name hmore haims, hattempt⟩
  rw [List.append_assoc]

/-- Whatever the answers are, every removal of the program is justified. -/
def Program.Justifies (p : Program α) (guard : QuorumGuard)
    (Aims : List Exchange → String → Prop) : Prop :=
  p.Ensures fun t _ => RemovesOnly (Justified guard Aims) t

/-- A careful program without removals justifies all it removes. -/
theorem Program.IsCareful.justifies {p : Program α} {m : ℕ∞} (h : p.IsCareful 0 m) :
    p.Justifies guard Aims :=
  Ensures.mono h fun _ _ ht => removesOnly_of_no_removals ht.removals_eq_zero

theorem Program.justifies_pure (a : α) : (pure a : Program α).Justifies guard Aims :=
  (isCareful_pure (r := 0) (m := 0) a).justifies

theorem Program.justifies_report {e : Event} {f : Unit → Program α}
    (h : (f ()).Justifies guard Aims) : (report e >>= f).Justifies guard Aims :=
  h

theorem Program.Justifies.weaken {p : Program α} {Aims' : List Exchange → String → Prop}
    (h : p.Justifies guard Aims) (himp : ∀ before name, Aims before name → Aims' before name) :
    p.Justifies guard Aims' := by
  refine Ensures.mono h fun t _ ht => ht.mono ?_
  rintro before client id ⟨earlier, attempt, name, rfl, haims, hattempt⟩
  exact ⟨earlier, attempt, name, rfl, himp earlier name haims, hattempt⟩

/-- Justified parts make a justified whole. -/
theorem Program.Justifies.bind {p : Program α} {f : α → Program β} (hlasting : Lasting Aims)
    (hp : p.Justifies guard Aims) (hf : ∀ a, (f a).Justifies guard Aims) :
    (p >>= f).Justifies guard Aims := by
  rw [Justifies, ensures_bind]
  refine hp.mono fun t a ht => (hf a).mono fun t' _ ht' => ?_
  rw [removesOnly_append]
  refine ⟨ht, ht'.mono ?_⟩
  intro before client id h
  exact h.prepend hlasting t

/-- What follows a call may build its reasons on the answer. -/
theorem Program.Justifies.after {q : Request} {f : q.Answer → Program β}
    (hq : q.isRemove = false)
    (hf : ∀ a, (f a).Justifies guard fun before => Aims (⟨q, a⟩ :: before)) :
    (request q >>= f).Justifies guard Aims := by
  intro a
  refine Ensures.mono (hf a) fun t _ ht => ?_
  refine (removesOnly_cons_of_isRemove_eq_false hq).2 (ht.mono ?_)
  rintro before client id ⟨earlier, attempt, name, rfl, haims, hattempt⟩
  exact ⟨⟨q, a⟩ :: earlier, attempt, name, rfl, haims, hattempt⟩

theorem Program.Justifies.void {p : Program α} (h : p.Justifies guard Aims) :
    (p >>= fun _ => pure ()).Justifies guard Aims := by
  rw [Justifies, ensures_bind]
  refine h.mono fun t _ ht => ?_
  show RemovesOnly (Justified guard Aims) (t ++ [])
  rwa [List.append_nil]

end Justified

namespace Workload

/-- A removal reads the inventory, lists the members and stands behind the guard. -/
theorem removeMember_justifies (w : Workload) {name : String}
    {Aims : List Exchange → String → Prop} (haims : Aims [] name) :
    (w.removeMember name).Justifies w.guard Aims := by
  rw [Justifies, ensures_iff_yields]
  intro t v h
  refine (removeMember_yields_iff.1 h).removesOnly.mono ?_
  intro before client id hattempt
  exact ⟨[], before, name, rfl, haims, hattempt⟩

theorem removeForMachine_justifies (w : Workload) (machine : Option Machine) :
    (w.removeForMachine machine).Justifies w.guard (Operation.removeForMachine machine).AimsAt := by
  unfold removeForMachine
  split
  · exact justifies_pure _
  · rename_i node hnode
    exact w.removeMember_justifies (.hosted hnode)

/-- What a listing shows gives the reasons for the removals that follow it. -/
theorem pruneListed_justifies (w : Workload) (nodes : List String) {members : List Member}
    {Aims : List Exchange → String → Prop} (hlasting : Lasting Aims)
    (haims : ∀ m ∈ members, isStale nodes m = true → Aims [] m.name) (r : Report) :
    (pruneListed w nodes members r).Justifies w.guard Aims := by
  induction members generalizing r with
  | nil => exact justifies_pure _
  | cons m rest ih =>
    have hrest : ∀ a ∈ rest, isStale nodes a = true → Aims [] a.name :=
      fun a ha => haims a (List.mem_cons_of_mem m ha)
    unfold pruneListed
    split
    · rename_i hstale
      apply (w.removeMember_justifies (haims m List.mem_cons_self hstale)).bind hlasting
      intro result
      cases result with
      | ok u => exact ih hrest _
      | error e =>
        apply justifies_report
        split
        · exact justifies_pure _
        · exact ih hrest _
    · exact ih hrest r

/-- A pass of the reconciliation only goes after stale members. -/
theorem pruneVia_justifies (w : Workload) (nodes : List String) (via : String) (r : Report) :
    (pruneVia w nodes via r).Justifies w.guard (Operation.reconcile nodes).AimsAt := by
  have hlasting := (Operation.reconcile nodes).aimsAt_lasting
  apply (firstAvailable_isCareful [via]).justifies.bind hlasting
  intro answer
  cases answer with
  | error e =>
    show (if _ then _ else _ : Program Progress).Justifies _ _
    split
    · exact justifies_pure _
    · exact justifies_report (justifies_pure _)
  | ok client =>
    refine Justifies.after (q := .list client) rfl fun listed => ?_
    cases listed with
    | error e =>
      show (if _ then _ else _ : Program Progress).Justifies _ _
      split
      · exact Justifies.after (q := .drop client) rfl fun _ => justifies_pure _
      · apply justifies_report
        exact Justifies.after (q := .drop client) rfl fun _ => justifies_pure _
    | ok members =>
      refine Justifies.after (q := .drop client) rfl fun _ => ?_
      apply w.pruneListed_justifies nodes ((hlasting.after _).after _)
      intro m hm hstale
      exact .stale List.mem_cons_self hm hstale

theorem pruneEach_justifies (w : Workload) (nodes vias : List String) (r : Report) :
    (pruneEach w nodes vias r).Justifies w.guard (Operation.reconcile nodes).AimsAt := by
  induction vias generalizing r with
  | nil => exact justifies_pure _
  | cons via rest ih =>
    apply (w.pruneVia_justifies nodes via r).bind (Operation.aimsAt_lasting _)
    intro progress
    cases progress with
    | goOn r => exact ih r
    | stop r => exact justifies_pure _

/-- A reconciliation only goes after stale members. -/
theorem reconcile_justifies (w : Workload) (nodes : List String) :
    (w.reconcile nodes).Justifies w.guard (Operation.reconcile nodes).AimsAt := by
  unfold reconcile
  split
  · apply (w.pruneEach_justifies nodes nodes {}).bind (Operation.aimsAt_lasting _)
    intro r
    show (if _ then _ else _ : Program Report).Justifies _ _
    split
    · exact justifies_report (justifies_pure _)
    · exact justifies_pure _
  · exact justifies_pure _

/-- Every operation removes behind the guard only. -/
theorem perform_justifies (w : Workload) (op : Operation) :
    (w.perform op).Justifies w.guard op.AimsAt := by
  cases op with
  | reconcile nodes => exact (w.reconcile_justifies nodes).void
  | remove name => exact (w.removeMember_justifies .named).void
  | removeForMachine machine => exact (w.removeForMachine_justifies machine).void
  | forward machine candidate =>
    exact (w.forwardLeadership_isCareful machine candidate).justifies.void
  | memberNames => exact w.memberNames_isCareful.justifies.void

/-- In a sequence of operations, every removal is justified as one of some operation. -/
theorem performAll_justifies (w : Workload) (ops : List Operation) :
    (w.performAll ops).Justifies w.guard fun before name => ∃ op ∈ ops, op.AimsAt before name := by
  have hlasting (ops : List Operation) :
      Lasting fun before name => ∃ op ∈ ops, op.AimsAt before name := by
    rintro before before' name hsub ⟨op, hop, haims⟩
    exact ⟨op, hop, op.aimsAt_lasting before before' name hsub haims⟩
  induction ops with
  | nil => exact justifies_pure _
  | cons op rest ih =>
    have hfirst : (w.perform op).Justifies w.guard fun before name =>
        ∃ op' ∈ op :: rest, op'.AimsAt before name :=
      (w.perform_justifies op).weaken fun before name haims => ⟨op, List.mem_cons_self, haims⟩
    refine hfirst.bind (hlasting (op :: rest)) fun _ => ih.weaken fun before name h => ?_
    obtain ⟨op', hop', haims⟩ := h
    exact ⟨op', List.mem_cons_of_mem op hop', haims⟩

end Workload

/-- Against any world, an attempt to take out a member reads the inventory first. An inventory that
cannot be read, or that leaves fewer nodes than the guard demands, ends the attempt there; else it
dials the nodes that are left, in order. So in every sequence of operations, what comes before a
removal ends with a guarded attempt, and the removal goes over a connection to one of the nodes that
are left. -/
theorem removals_stand_behind_guard {σ : Type} (world : World σ) (s : Situation σ)
    (w : Workload) :
    (∀ known name,
      nodesWithout known name = (known.filter fun n => ¬ n.toList <:+: name.toList) ∧
        ((known.filter (· ≠ name)).length < w.guard.minimum →
          (nodesWithout known name).length < w.guard.minimum)) ∧
    (∀ name, ∃ answer rest,
      ((w.removeMember name).run world s).trace = ⟨.nodes, answer⟩ :: rest ∧
        match answer with
        | .error failure =>
          rest = [] ∧ ((w.removeMember name).run world s).value = .error (.inventory failure)
        | .ok known =>
          ((nodesWithout known name).length < w.guard.minimum →
            rest = [] ∧ ((w.removeMember name).run world s).value =
              .error (.belowMinimum w.guard.minimum (nodesWithout known name).length)) ∧
          (w.guard.minimum ≤ (nodesWithout known name).length →
            dialed rest <+: (nodesWithout known name).map etcdEndpoint)) ∧
    ∀ ops, RemovesOnly
      (Justified w.guard fun before name => ∃ op ∈ ops, op.AimsAt before name)
      ((w.performAll ops).run world s).trace := by
  refine ⟨fun known name => ⟨nodesWithout_eq_filter known name, fun hfew => ?_⟩, fun name => ?_,
    fun ops => (w.performAll_justifies ops).run world s⟩
  · exact Nat.lt_of_le_of_lt (nodesWithout_sublist known name).length_le hfew
  · exact (Workload.removeMember_yields_iff.1 (yields_run world (w.removeMember name) s)).opening

end QuorumKeeper
