import QuorumKeeper.Proofs.ClusterTraces
import QuorumKeeper.Proofs.Handovers

/-!
# Operations that fail

An operation that removes one member or moves leadership makes one change at most, and it makes it
last: every failure comes before the change or in place of it. `Program.FailsQuietly` says so about
the traces, whatever the answers are, and the replay of a trace turns it into a statement about
clusters in memory (`FailsQuietly.core_eq`). A removal that succeeds has either found nobody under
the name or taken out the first member under it, and done nothing else (`removal_outcome`).
-/

set_option autoImplicit false

namespace QuorumKeeper

open Program Trace Member

/-- Whenever the program ends with an error, it has changed nothing. -/
def Program.FailsQuietly {α : Type} (p : Program (Except OperationError α)) : Prop :=
  ∀ t e, p.Yields t (.error e) → Quiet t

namespace Workload

variable {w : Workload} {t : List Exchange} {e : OperationError}

/-! ## Failures come before the change or in place of it -/

/-- A removal by name that fails has changed nothing. -/
theorem NamedRemoval.quiet_of_error {name : String} {client : Client}
    (h : NamedRemoval name client t (.error e)) : Quiet t := by
  -- the member that is found and removed is no case here, since that ends without an error
  cases h with
  | unlisted e => simp [Exchange.isChange]
  | failed first e => simp [Exchange.isChange]

/-- An attempt that fails has changed nothing. -/
theorem Attempt.quiet_of_error {name : String} (h : Attempt w name t (.error e)) : Quiet t := by
  cases h with
  | unread failure => simp [Exchange.isChange]
  | refused few => simp [Exchange.isChange]
  | unconnected enough access search =>
    simp [Exchange.isChange, ClientSearch.firstAvailable_quiet search]
  | connected enough access search use =>
    simp [Exchange.isChange, ClientSearch.firstAvailable_quiet search, use.quiet_of_error]

/-- A move that fails has changed nothing. -/
theorem LeaderMove.quiet_of_error {outgoing incoming : String} {client : Client}
    (h : LeaderMove outgoing incoming client t (.error e)) : Quiet t := by
  cases h with
  | unlisted e => simp [Exchange.isChange]
  | absent leads unhosted => simp [Exchange.isChange]
  | failed leads heir e => simp [Exchange.isChange]

/-- A use of the leader's connection that fails quietly does so with the search before it. -/
theorem Led.quiet_of_error {α : Type}
    {Uses : Client → List Exchange → Except OperationError α → Prop}
    (h : Led Uses t (.error e)) (huses : ∀ client t, Uses client t (.error e) → Quiet t) :
    Quiet t := by
  cases h with
  | unread failure => simp [Exchange.isChange]
  | leaderless search => simp [Exchange.isChange, ClientSearch.leaderClient_quiet search]
  | connected search use =>
    simp [Exchange.isChange, ClientSearch.leaderClient_quiet search, huses _ _ use]

/-- Taking a member out changes nothing when it fails. -/
theorem removeMember_failsQuietly (w : Workload) (name : String) :
    (w.removeMember name).FailsQuietly := by
  intro t e h
  exact (removeMember_yields_iff.1 h).quiet_of_error

/-- Taking a machine's member out changes nothing when it fails. -/
theorem removeForMachine_failsQuietly (w : Workload) (machine : Option Machine) :
    (w.removeForMachine machine).FailsQuietly := by
  unfold removeForMachine
  split
  · intro t e h
    cases h.2
  · exact w.removeMember_failsQuietly _

/-- Handing leadership over changes nothing when it fails. -/
theorem forwardLeadership_failsQuietly (w : Workload) (machine candidate : Option Machine) :
    (w.forwardLeadership machine candidate).FailsQuietly := by
  intro t e h
  cases forwardLeadership_yields_iff.1 h with
  | missing leaves missing => exact quiet_nil
  | withoutNode leaves present unhosted => exact quiet_nil
  | begun leaves comes access led =>
    apply led.quiet_of_error
    intro client t use
    exact use.quiet_of_error

/-- Listing the names changes nothing, whether it fails or not. -/
theorem memberNames_failsQuietly (w : Workload) : w.memberNames.FailsQuietly := by
  intro t e h
  exact (ensures_iff_yields.1 w.memberNames_isCareful t _ h).quiet

end Workload

/-! ## On a cluster in memory -/

namespace Cluster

open Workload

/-- If the outcome is an error, the cluster is as it was at the start, but for its record of
connections. -/
def UnchangedOnError {ι α : Type} (s : Situation (ι × Cluster))
    (o : Outcome (ι × Cluster) (Except OperationError α)) : Prop :=
  ∀ e, o.value = .error e → o.after.state.2.core = s.state.2.core

/-- A program that fails quietly leaves a cluster in memory as it was when it fails. -/
theorem unchangedOnError {ι α : Type} (read : ι → Except InventoryFailure (List String) × ι)
    {p : Program (Except OperationError α)} (h : p.FailsQuietly) (s : Situation (ι × Cluster)) :
    UnchangedOnError s (p.run (worldWith read) s) := by
  intro e he
  have hyields := yields_run (worldWith read) p s
  rw [he] at hyields
  exact (replays_run read p s).core_eq (h _ e hyields)

/-- What a removal that succeeds leaves of a cluster: there was nobody under the name, or the first
member under it is gone. -/
theorem removal_outcome {w : Workload} {name : String} {t : List Exchange} {c c' : Cluster}
    (haccess : w.hasAccess = true) (h : Attempt w name t (.ok ())) (hreplay : Replays c t c') :
    ((∀ m ∈ c.members, ¬ name.toList <:+: m.name.toList) ∧ c' = c) ∨
      ∃ m, Hosted name c.members m ∧ c' = c.without m.id := by
  cases h with
  | idle enough access =>
    rw [haccess] at access
    cases access
  | connected enough access search use =>
    have huse := hreplay.of_use (ClientSearch.firstAvailable_quiet search)
    cases use with
    | absent none =>
      obtain ⟨rfl, hrest⟩ := huse.of_listing
      exact Or.inl ⟨named?_eq_none_iff_unhosted.1 none, replays_nil_iff.1 hrest⟩
    | removed first =>
      obtain ⟨rfl, hrest⟩ := huse.of_listing
      exact Or.inr ⟨_, named?_eq_some_iff_hosted.1 first, hrest.of_removal⟩

end Cluster

open Cluster

/-- Whatever the node names, the guard and the faults are, an operation on a cluster in memory that
ends with an error leaves members, leader and both records as they were. A removal that succeeds
changes nothing if there is nobody under the name, and else it takes out what has the id of the
first member under the name, records that id, and changes nothing else. -/
theorem failed_operations_change_nothing {ι : Type}
    (read : ι → Except InventoryFailure (List String) × ι) (w : Workload)
    (s : Situation (ι × Cluster)) :
    (∀ name, UnchangedOnError s ((w.removeMember name).run (worldWith read) s)) ∧
    (∀ machine, UnchangedOnError s ((w.removeForMachine machine).run (worldWith read) s)) ∧
    (∀ machine candidate,
      UnchangedOnError s ((w.forwardLeadership machine candidate).run (worldWith read) s)) ∧
    UnchangedOnError s (w.memberNames.run (worldWith read) s) ∧
    ∀ name, w.hasAccess = true → ((w.removeMember name).run (worldWith read) s).value = .ok () →
      ((∀ m ∈ s.state.2.members, ¬ name.toList <:+: m.name.toList) ∧
        ((w.removeMember name).run (worldWith read) s).after.state.2.core = s.state.2.core) ∨
      ∃ m, Hosted name s.state.2.members m ∧
        ((w.removeMember name).run (worldWith read) s).after.state.2.core =
          s.state.2.core.without m.id := by
  refine ⟨fun name => ?_, fun machine => ?_, fun machine candidate => ?_, ?_, ?_⟩
  · exact unchangedOnError read (w.removeMember_failsQuietly name) s
  · exact unchangedOnError read (w.removeForMachine_failsQuietly machine) s
  · exact unchangedOnError read (w.forwardLeadership_failsQuietly machine candidate) s
  · exact unchangedOnError read w.memberNames_failsQuietly s
  · intro name haccess hok
    have hyields := yields_run (worldWith read) (w.removeMember name) s
    rw [hok] at hyields
    exact removal_outcome haccess (Workload.removeMember_yields_iff.1 hyields)
      (replays_run read (w.removeMember name) s)

end QuorumKeeper
