import QuorumKeeper.Proofs.Conduct

/-!
# Cancellation

A cancelled answer makes a standing cancelled, nothing else does, and it stays so
(`Standing.Follows.cancelled`); from there on connections are closed and nothing else is asked
(`Standing.Follows.only_closes`). Together with the errors that a value shows at its standing this
is `Outcome.HeedsCancellation`: a cancellation ends the operation, comes last among its errors, and
is never made up.
-/

set_option autoImplicit false

namespace QuorumKeeper

open Program

/-- The operation stops at a cancelled answer: after that, connections are closed and nothing else
is asked. Such an answer makes the last error a cancellation, and no earlier one; without it no
error is a cancellation. -/
structure Outcome.HeedsCancellation {σ α ε : Type} (o : Outcome σ α) (isCancelled : ε → Bool)
    (errors : α → List ε) : Prop where
  stops : ∀ before x after, o.trace = before ++ x :: after → x.isCancelled = true →
    ∀ y ∈ after, ∃ client, y.request = .drop client
  shows : (∃ x ∈ o.trace, x.isCancelled = true) → CutShort isCancelled (errors o.value)
  honest : (∀ x ∈ o.trace, x.isCancelled = false) → Calm isCancelled (errors o.value)

namespace Standing

variable {s s' : Standing} {x : Exchange} {t : List Exchange}

/-- A standing becomes cancelled by a cancelled answer, and stays so. -/
theorem Step.cancelled (h : Step s x s') : s'.cancelled = (s.cancelled || x.isCancelled) := by
  cases h with
  | read answer => rfl
  | opened endpoint client => rfl
  | missed endpoint e => rfl
  | called through => rfl
  | closed client cancelled => exact (Bool.or_false cancelled).symm

/-- At a cancelled standing only the connection that is held can be closed. -/
theorem Step.closes (h : Step s x s') (hs : s.cancelled = true) :
    ∃ client, x.request = .drop client := by
  cases h with
  | read answer => cases hs
  | opened endpoint client => cases hs
  | missed endpoint e => cases hs
  | called through => cases hs
  | closed client cancelled => exact ⟨client, rfl⟩

/-- A standing is cancelled once an exchange was. -/
theorem Follows.cancelled (h : Follows s t s') :
    s'.cancelled = (s.cancelled || t.any Exchange.isCancelled) := by
  induction h with
  | nil s => exact (Bool.or_false s.cancelled).symm
  | cons first rest ih => rw [ih, first.cancelled, List.any_cons, Bool.or_assoc]

/-- After a cancellation connections are closed, and nothing else happens. -/
theorem Follows.only_closes (h : Follows s t s') (hs : s.cancelled = true) :
    ∀ y ∈ t, ∃ client, y.request = .drop client := by
  induction h with
  | nil s =>
    intro y hy
    cases hy
  | cons first rest ih =>
    intro y hy
    rcases List.mem_cons.1 hy with rfl | hy
    · exact first.closes hs
    · refine ih ?_ y hy
      rw [first.cancelled, hs, Bool.true_or]

/-- Proper conduct and a value that shows its standing heed a cancellation. -/
theorem Follows.heedsCancellation {σ α ε : Type} {o : Outcome σ α} {isCancelled : ε → Bool}
    {errors : α → List ε} (h : Follows {} o.trace s')
    (hshown : s'.ShownBy isCancelled (errors o.value)) :
    o.HeedsCancellation isCancelled errors where
  stops := by
    intro before x after heq hx
    rw [heq] at h
    obtain ⟨s₁, hbefore, hafter⟩ := follows_append.1 h
    cases hafter with
    | cons first rest =>
      apply rest.only_closes
      rw [first.cancelled, hx, Bool.or_true]
  shows := by
    rintro ⟨x, hmem, hx⟩
    have hcancelled : s'.cancelled = true := by
      rw [h.cancelled, Bool.false_or]
      exact List.any_eq_true.2 ⟨x, hmem, hx⟩
    rwa [ShownBy, if_pos hcancelled] at hshown
  honest := by
    intro hnone
    have hcalm : s'.cancelled = false := by
      rw [h.cancelled, Bool.false_or, List.any_eq_false]
      intro x hmem
      simp [hnone x hmem]
    rwa [ShownBy, if_neg (by simp [hcalm])] at hshown

end Standing

open Standing

/-- A run of a well-conducted program heeds cancellation. -/
theorem Program.Conducts.heeds {α ε : Type} {p : Program α} {isCancelled : ε → Bool}
    {errors : α → List ε} (h : p.Conducts {} fun v s => s.ShownBy isCancelled (errors v))
    {σ : Type} (world : World σ) (s : Situation σ) :
    (p.run world s).HeedsCancellation isCancelled errors := by
  obtain ⟨s', hfollows, hshown⟩ := h.run world s
  exact hfollows.heedsCancellation hshown

theorem Program.Conducts.search_shown {p : Program (Except ClientError Client)}
    (h : p.Conducts {} fun v s => s = .ofSearch v) :
    p.Conducts {} fun v s => s.ShownBy ClientError.isCancelled (errorsOf v) := by
  apply h.mono
  intro v s hs
  rw [hs]
  exact ofSearch_shownBy v

theorem Program.Conducts.result_shown {α : Type} {p : Program (Except OperationError α)}
    (h : p.Conducts {} fun v s => s = .ofResult none v) :
    p.Conducts {} fun v s => s.ShownBy OperationError.isCancelled (errorsOf v) := by
  apply h.mono
  intro v s hs
  rw [hs]
  exact ofResult_shownBy none v

/-- Against any world, the searches and the operations heed a cancellation. -/
theorem cancellation_ends_operation {σ : Type} (world : World σ) (s : Situation σ) (w : Workload) :
    (∀ nodes, ((ClientSearch.firstAvailable nodes).run world s).HeedsCancellation
      ClientError.isCancelled errorsOf) ∧
    (∀ nodes, ((ClientSearch.leaderClient nodes).run world s).HeedsCancellation
      ClientError.isCancelled errorsOf) ∧
    (∀ nodes, ((w.reconcile nodes).run world s).HeedsCancellation
      OperationError.isCancelled Report.errors) ∧
    (∀ name, ((w.removeMember name).run world s).HeedsCancellation
      OperationError.isCancelled errorsOf) ∧
    (∀ machine, ((w.removeForMachine machine).run world s).HeedsCancellation
      OperationError.isCancelled errorsOf) ∧
    (∀ machine candidate, ((w.forwardLeadership machine candidate).run world s).HeedsCancellation
      OperationError.isCancelled errorsOf) ∧
    (w.memberNames.run world s).HeedsCancellation OperationError.isCancelled errorsOf := by
  refine ⟨fun nodes => ?_, fun nodes => ?_, fun nodes => ?_, fun name => ?_, fun machine => ?_,
    fun machine candidate => ?_, ?_⟩
  · exact (ClientSearch.firstAvailable_conducts nodes).search_shown.heeds world s
  · exact (ClientSearch.leaderClient_conducts nodes).search_shown.heeds world s
  · exact ((w.reconcile_conducts nodes).mono fun r s hs => hs.2).heeds world s
  · exact (w.removeMember_conducts name).result_shown.heeds world s
  · exact (w.removeForMachine_conducts machine).result_shown.heeds world s
  · exact (w.forwardLeadership_conducts machine candidate).result_shown.heeds world s
  · exact w.memberNames_conducts.result_shown.heeds world s

end QuorumKeeper
