import QuorumKeeper.Proofs.Runs
import QuorumKeeper.Store.Remote
import QuorumKeeper.Workload

/-!
# A fleet after its cancellation

Once the client's work is cancelled, no program changes the fleet any more: nothing is dialed and no
server is called (`Fleet.respects_freezes`). Every dial and every call answers that it was
cancelled. `Fleet.StopsWith` names the value that a program gives then, wherever it starts, and
passes along `bind`; from single requests it is carried to the searches and from there to the
operations, which differ only in what they check before they dial.

`cancelled_fleet_stays` puts both together, at every moment of any run on a cancelled fleet.
-/

set_option autoImplicit false

namespace QuorumKeeper

open Program ClientSearch QuorumGuard

variable {ι α β : Type}

/-- A cancelled fleet is the same in both situations. -/
def Freezes (s s' : Situation (ι × Fleet)) : Prop :=
  s.state.2.cancelled = true → s'.state.2 = s.state.2

/-- A cancelled fleet stays cancelled. -/
theorem Freezes.cancelled {s s' : Situation (ι × Fleet)} (h : Freezes s s')
    (hs : s.state.2.cancelled = true) : s'.state.2.cancelled = true := by
  rw [h hs]
  exact hs

instance : Std.Refl (Freezes (ι := ι)) where
  refl _ _ := rfl

instance : IsTrans (Situation (ι × Fleet)) Freezes where
  trans _ _ _ h h' hs := (h' (h.cancelled hs)).trans (h hs)

namespace Fleet

/-- The world of a fleet that is reached over a route, and a source of node names. -/
def worldWith (route : Route) (read : ι → Except InventoryFailure (List String) × ι) :
    World (ι × Fleet) :=
  (store route).worldWith read

variable {route : Route} {read : ι → Except InventoryFailure (List String) × ι}

/-- Nobody connects to a cancelled fleet. -/
theorem create_cancelled {f : Fleet} (hf : f.cancelled = true) (endpoint : String) :
    create route endpoint f = (.error .cancelled, f) := by
  rw [create, if_pos hf]

/-- Nobody calls a cancelled fleet. -/
theorem call_cancelled {f : Fleet} (hf : f.cancelled = true) (endpoint : String) (c : ServerCall) :
    call endpoint c f = (.error .cancelled, f) := by
  rw [call, if_pos hf]

section Answers

variable {s : Situation (ι × Fleet)} (hs : s.state.2.cancelled = true)

include hs

theorem answer_create (endpoint : String) :
    (worldWith route read).answer s (.create endpoint) = (.error .cancelled, s) := by
  simp [World.answer, worldWith, Store.worldWith, store, create_cancelled hs]

theorem answer_list (client : Client) :
    (worldWith route read).answer s (.list client) = (.error .cancelled, s) := by
  simp [World.answer, worldWith, Store.worldWith, store, call_cancelled hs]

theorem answer_remove (client : Client) (id : UInt64) :
    (worldWith route read).answer s (.remove client id) = (.error .cancelled, s) := by
  simp [World.answer, worldWith, Store.worldWith, store, call_cancelled hs]

theorem answer_move (client : Client) (id : UInt64) :
    (worldWith route read).answer s (.move client id) = (.error .cancelled, s) := by
  simp [World.answer, worldWith, Store.worldWith, store, call_cancelled hs]

end Answers

/-- No single request changes a cancelled fleet. -/
theorem respects_freezes : (worldWith route read).Respects Freezes := by
  intro s q hs
  cases q with
  | nodes => rfl
  | create endpoint => rw [answer_create hs]
  | list client => rw [answer_list hs]
  | remove client id => rw [answer_remove hs]
  | move client id => rw [answer_move hs]
  | drop client => rfl

/-! ## Values on a cancelled fleet -/

/-- Wherever a cancelled fleet stands, the program gives this value. -/
def StopsWith (route : Route) (read : ι → Except InventoryFailure (List String) × ι)
    (p : Program α) (v : α) : Prop :=
  ∀ s : Situation (ι × Fleet), s.state.2.cancelled = true →
    (p.run (worldWith route read) s).value = v

namespace StopsWith

variable {p : Program α} {f : α → Program β} {a : α} {b : β}

theorem pure (a : α) : StopsWith route read (Pure.pure a) a := by
  intro s hs
  rfl

/-- A cancelled fleet is still cancelled where the second part begins. -/
theorem bind (hp : StopsWith route read p a) (hf : StopsWith route read (f a) b) :
    StopsWith route read (p >>= f) b := by
  intro s hs
  rw [run_bind, hp s hs]
  exact hf _ ((respects_freezes.run p s).cancelled hs)

/-- What a single request is answered wherever a cancelled fleet stands. -/
theorem request {q : Request} {a : q.Answer}
    (h : ∀ s : Situation (ι × Fleet), s.state.2.cancelled = true →
      (worldWith route read).answer s q = (a, s)) :
    StopsWith route read (Program.request q) a := by
  intro s hs
  rw [run_request, h s hs]

end StopsWith

theorem create_stops (endpoint : String) :
    StopsWith route read (Program.create endpoint) (.error .cancelled) :=
  .request fun _ hs => answer_create hs endpoint

theorem list_stops (client : Client) :
    StopsWith route read (Program.list client) (.error .cancelled) :=
  .request fun _ hs => answer_list hs client

theorem remove_stops (client : Client) (id : UInt64) :
    StopsWith route read (Program.remove client id) (.error .cancelled) :=
  .request fun _ hs => answer_remove hs client id

theorem move_stops (client : Client) (id : UInt64) :
    StopsWith route read (Program.move client id) (.error .cancelled) :=
  .request fun _ hs => answer_move hs client id

/-! ## Searches -/

/-- The error of a search over these nodes on a cancelled fleet: it is refused without nodes, and
otherwise its first dial is cancelled. -/
def searchError (search : String) (nodes : List String) : ClientError :=
  if nodes = [] then noCandidates search else .cancelled

/-- The first node is dialed and no other. -/
theorem tryEach_stops (node : String) (rest : List String) (failures : List ClientError) :
    StopsWith route read (tryEach (node :: rest) failures) (.error .cancelled) :=
  .bind (create_stops _) (.pure _)

/-- A search among nodes stops at its first dial. -/
theorem firstAvailable_stops (nodes : List String) :
    StopsWith route read (firstAvailable nodes)
      (.error (searchError "for_first_available_node" nodes)) := by
  cases nodes with
  | nil => exact .pure _
  | cons node rest => exact tryEach_stops node rest []

theorem probe_stops (via : String) (nodes : List String) :
    StopsWith route read (probe via nodes) (.fatal .cancelled) :=
  .bind (firstAvailable_stops [via]) (.pure _)

/-- A search for the leader stops at its first candidate. -/
theorem probeEach_stops (nodes : List String) (via : String) (rest : List String)
    (failures : List ClientError) :
    StopsWith route read (probeEach nodes (via :: rest) failures) (.error .cancelled) :=
  .bind (probe_stops via nodes) (.pure _)

/-- A search for the leader stops at its first candidate, or has none. -/
theorem leaderClient_stops (nodes : List String) :
    StopsWith route read (leaderClient nodes) (.error (searchError "for_leader" nodes)) := by
  cases nodes with
  | nil => exact .pure _
  | cons node rest => exact probeEach_stops (node :: rest) node rest []

/-! ## Operations -/

/-- The error of an operation whose search failed. -/
def noClient (e : ClientError) : OperationError :=
  .client "failed to create etcd client" e

/-- Without a client nothing is done. -/
theorem withClient_stops {connect : Program (Except ClientError Client)} {e : ClientError}
    (h : StopsWith route read connect (.error e))
    (use : Client → Program (Except OperationError α)) :
    StopsWith route read (Workload.withClient connect use) (.error (noClient e)) :=
  .bind h (.pure _)

/-- A node is not skipped when the dial is cancelled. -/
theorem pruneVia_stops (w : Workload) (nodes : List String) (via : String) (r : Report) :
    StopsWith route read (w.pruneVia nodes via r)
      (.stop (r.fail (.client Workload.reconcileContext .cancelled))) :=
  .bind (firstAvailable_stops [via]) (.pure _)

/-- The report of a reconciliation that was cancelled before it could do anything. -/
def cancelledReport : Report where
  errors := [.client Workload.reconcileContext .cancelled]

/-- A reconciliation of a cancelled fleet reports the cancellation alone. -/
theorem reconcile_stops {w : Workload} (haccess : w.hasAccess = true) {nodes : List String}
    (hne : nodes ≠ []) : StopsWith route read (w.reconcile nodes) cancelledReport := by
  obtain ⟨node, rest, rfl⟩ := List.exists_cons_of_ne_nil hne
  rw [Workload.reconcile, if_pos haccess]
  refine .bind (a := cancelledReport) ?_ (.pure _)
  exact .bind (pruneVia_stops w (node :: rest) node {}) (.pure _)

/-! ### Operations that read the inventory first -/

section Inventory

variable {w : Workload} {s : Situation (ι × Fleet)}

/-- An inventory that cannot be read is reported so, cancelled or not. -/
theorem inventory_unread {failure : InventoryFailure}
    (hread : (read s.state.1).1 = .error failure) :
    (Workload.controlPlaneNodes.run (worldWith route read) s).value =
      .error (.inventory failure) := by
  have hnodes : (Program.nodes.run (worldWith route read) s).value = .error failure := hread
  rw [Workload.controlPlaneNodes, run_bind, hnodes]
  rfl

theorem inventory_known {known : List String} (hread : (read s.state.1).1 = .ok known) :
    (Workload.controlPlaneNodes.run (worldWith route read) s).value = .ok known := by
  have hnodes : (Program.nodes.run (worldWith route read) s).value = .ok known := hread
  rw [Workload.controlPlaneNodes, run_bind, hnodes]
  rfl

/-- The inventory is read as usual, and what comes after it finds the fleet cancelled. -/
theorem run_inventory (hs : s.state.2.cancelled = true) {answer : Except OperationError (List String)}
    (hanswer : (Workload.controlPlaneNodes.run (worldWith route read) s).value = answer)
    {f : Except OperationError (List String) → Program β} {b : β}
    (h : StopsWith route read (f answer) b) :
    ((Workload.controlPlaneNodes >>= f).run (worldWith route read) s).value = b := by
  rw [run_bind, hanswer]
  -- reading the inventory is a request like any other, and none ends a cancellation
  exact h _ ((respects_freezes.run _ s).cancelled hs)

theorem removeMember_unread (hs : s.state.2.cancelled = true) {failure : InventoryFailure}
    (hread : (read s.state.1).1 = .error failure) (name : String) :
    ((w.removeMember name).run (worldWith route read) s).value = .error (.inventory failure) :=
  run_inventory hs (inventory_unread hread) (.pure _)

/-- The refusal of the guard comes before the cancellation. -/
theorem removeMember_refused (hs : s.state.2.cancelled = true) {known : List String}
    (hread : (read s.state.1).1 = .ok known) {name : String}
    (hfew : (nodesWithout known name).length < w.guard.minimum) :
    ((w.removeMember name).run (worldWith route read) s).value =
      .error (.belowMinimum w.guard.minimum (nodesWithout known name).length) := by
  refine run_inventory hs (inventory_known hread) ?_
  simp only [remaining_eq_error_iff.2 ⟨hfew, rfl⟩]
  exact .pure _

/-- A permitted removal stops where it looks for a client. -/
theorem removeMember_stops (hs : s.state.2.cancelled = true) (haccess : w.hasAccess = true)
    {known : List String} (hread : (read s.state.1).1 = .ok known) {name : String}
    (henough : w.guard.minimum ≤ (nodesWithout known name).length) :
    ((w.removeMember name).run (worldWith route read) s).value =
      .error (noClient (searchError "for_first_available_node" (nodesWithout known name))) := by
  refine run_inventory hs (inventory_known hread) ?_
  simp only [remaining_eq_ok_iff.2 ⟨henough, rfl⟩, haccess, if_true]
  exact withClient_stops (firstAvailable_stops _) _

theorem withLeader_unread (hs : s.state.2.cancelled = true) {failure : InventoryFailure}
    (hread : (read s.state.1).1 = .error failure)
    (use : Client → Program (Except OperationError α)) :
    ((Workload.withLeader use).run (worldWith route read) s).value =
      .error (.inventory failure) :=
  run_inventory hs (inventory_unread hread) (.pure _)

theorem withLeader_stops (hs : s.state.2.cancelled = true) {known : List String}
    (hread : (read s.state.1).1 = .ok known)
    (use : Client → Program (Except OperationError α)) :
    ((Workload.withLeader use).run (worldWith route read) s).value =
      .error (noClient (searchError "for_leader" known)) :=
  run_inventory hs (inventory_known hread) (withClient_stops (leaderClient_stops known) use)

end Inventory

/-- With a node on either side, leadership is handed over by way of the leader. -/
theorem forwardLeadership_eq_withLeader {w : Workload} (haccess : w.hasAccess = true)
    {machine candidate : Option Machine} (hmachine : (nodeOf machine).isSome)
    (hcandidate : (nodeOf candidate).isSome) :
    ∃ outgoing incoming, w.forwardLeadership machine candidate =
      Workload.withLeader (Workload.moveLeader outgoing incoming) := by
  obtain ⟨outgoing, houtgoing⟩ := Option.isSome_iff_exists.1 hmachine
  obtain ⟨incoming, hincoming⟩ := Option.isSome_iff_exists.1 hcandidate
  obtain ⟨c, rfl, hnode⟩ := Option.bind_eq_some_iff.1 hincoming
  refine ⟨outgoing, incoming, ?_⟩
  simp only [Workload.forwardLeadership, houtgoing, hnode, haccess, if_true]

/-! ## Every operation at once -/

/-- What calls, searches and operations give on a cancelled fleet. Connections answer alike whether
they were opened before or never. The inventory is read and the guard asked as usual; whatever gets
as far as etcd ends as cancelled. -/
structure Stopped (route : Route) (read : ι → Except InventoryFailure (List String) × ι)
    (w : Workload) (s : Situation (ι × Fleet)) : Prop where
  calls : ∀ client : Client,
    ((Program.list client).run (worldWith route read) s).value = .error .cancelled ∧
    (∀ id, ((Program.remove client id).run (worldWith route read) s).value = .error .cancelled) ∧
    ∀ id, ((Program.move client id).run (worldWith route read) s).value = .error .cancelled
  searches : ∀ nodes : List String,
    ((firstAvailable nodes).run (worldWith route read) s).value =
      .error (searchError "for_first_available_node" nodes) ∧
    ((leaderClient nodes).run (worldWith route read) s).value =
      .error (searchError "for_leader" nodes)
  removal_unread : ∀ failure, (read s.state.1).1 = .error failure → ∀ name,
    ((w.removeMember name).run (worldWith route read) s).value = .error (.inventory failure)
  removal_refused : ∀ known name, (read s.state.1).1 = .ok known →
    (nodesWithout known name).length < w.guard.minimum →
    ((w.removeMember name).run (worldWith route read) s).value =
      .error (.belowMinimum w.guard.minimum (nodesWithout known name).length)
  removal_cancelled : ∀ known name, (read s.state.1).1 = .ok known →
    w.guard.minimum ≤ (nodesWithout known name).length →
    ((w.removeMember name).run (worldWith route read) s).value =
      .error (noClient (searchError "for_first_available_node" (nodesWithout known name)))
  names_unread : ∀ failure, (read s.state.1).1 = .error failure →
    (w.memberNames.run (worldWith route read) s).value = .error (.inventory failure)
  names_cancelled : ∀ known, (read s.state.1).1 = .ok known →
    (w.memberNames.run (worldWith route read) s).value =
      .error (noClient (searchError "for_leader" known))
  handover_unread : ∀ failure, (read s.state.1).1 = .error failure →
    ∀ machine candidate, (nodeOf machine).isSome → (nodeOf candidate).isSome →
    ((w.forwardLeadership machine candidate).run (worldWith route read) s).value =
      .error (.inventory failure)
  handover_cancelled : ∀ known, (read s.state.1).1 = .ok known →
    ∀ machine candidate, (nodeOf machine).isSome → (nodeOf candidate).isSome →
    ((w.forwardLeadership machine candidate).run (worldWith route read) s).value =
      .error (noClient (searchError "for_leader" known))
  reconciliation : ∀ nodes : List String, nodes ≠ [] →
    ((w.reconcile nodes).run (worldWith route read) s).value = cancelledReport

/-- A cancelled fleet stops everything that is done with access to etcd. -/
theorem stopped {w : Workload} (haccess : w.hasAccess = true) {s : Situation (ι × Fleet)}
    (hs : s.state.2.cancelled = true) : Stopped route read w s where
  calls client :=
    ⟨list_stops client s hs, fun id => remove_stops client id s hs,
      fun id => move_stops client id s hs⟩
  searches nodes := ⟨firstAvailable_stops nodes s hs, leaderClient_stops nodes s hs⟩
  removal_unread failure hread name := removeMember_unread hs hread name
  removal_refused known name hread hfew := removeMember_refused hs hread hfew
  removal_cancelled known name hread henough := removeMember_stops hs haccess hread henough
  names_unread failure hread := by
    rw [Workload.memberNames, if_pos haccess]
    exact withLeader_unread hs hread _
  names_cancelled known hread := by
    rw [Workload.memberNames, if_pos haccess]
    exact withLeader_stops hs hread _
  handover_unread failure hread machine candidate hmachine hcandidate := by
    obtain ⟨outgoing, incoming, heq⟩ := forwardLeadership_eq_withLeader haccess hmachine hcandidate
    rw [heq]
    exact withLeader_unread hs hread _
  handover_cancelled known hread machine candidate hmachine hcandidate := by
    obtain ⟨outgoing, incoming, heq⟩ := forwardLeadership_eq_withLeader haccess hmachine hcandidate
    rw [heq]
    exact withLeader_stops hs hread _
  reconciliation nodes hne := reconcile_stops haccess hne s hs

end Fleet

/-- From any situation in which the fleet is cancelled and through any run, the fleet stays as it
is, and at each moment of it every call, search and operation stops. -/
theorem cancelled_fleet_stays (route : Route)
    (read : ι → Except InventoryFailure (List String) × ι) {w : Workload}
    (haccess : w.hasAccess = true) (p : Program α) {s x : Situation (ι × Fleet)}
    (hs : s.state.2.cancelled = true) (hx : x ∈ p.visited (Fleet.worldWith route read) s) :
    x.state.2 = s.state.2 ∧ Fleet.Stopped route read w x := by
  have hstill : Freezes s x := (Fleet.respects_freezes.between p hx).1
  exact ⟨hstill hs, Fleet.stopped haccess (hstill.cancelled hs)⟩

/-- A fleet of two members that was cancelled when two connections had been opened. -/
def interrupted : Situation (Inventory × Fleet) where
  serial := 2
  state := (⟨["cp-1", "cp-2"], none⟩, Fleet.cancel {
    servers := [{ node := "cp-1" }, { node := "cp-2" }]
    members := [{ id := 1, name := "etcd-cp-1" }, { id := 2, name := "etcd-cp-2" }]
    leader := 1
    dials := ["etcd-cp-1", "etcd-cp-2"] })

/-- What is done after the interrupt: a removal, and a handover over a connection from before. -/
def afterInterrupt : Outcome (Inventory × Fleet) (Except ClientError Unit) :=
  (do
    let _ ← (Workload.mk true ⟨1⟩).removeMember "cp-1"
    Program.move ⟨0, "etcd-cp-1", 1⟩ 2).run
      (Fleet.worldWith ⟨.dns "", .isolated, etcdPort⟩ fun inv : Inventory => (inv.read, inv))
      interrupted

/-- Neither of the two has changed anything, and a reconciliation would not either. -/
theorem interrupted_fleet_stays :
    (Workload.mk true ⟨1⟩).hasAccess = true ∧ interrupted.state.2.cancelled = true ∧
      afterInterrupt.after.state.2 = interrupted.state.2 ∧
      Fleet.Stopped ⟨.dns "", .isolated, etcdPort⟩ (fun inv : Inventory => (inv.read, inv))
        ⟨true, ⟨1⟩⟩ afterInterrupt.after :=
  ⟨rfl, rfl, cancelled_fleet_stays _ _ rfl _ rfl (after_mem_visited _ _ _)⟩

end QuorumKeeper
