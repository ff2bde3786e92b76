import QuorumKeeper.Error.Operation
import QuorumKeeper.Text.Substring

/-!
# The quorum guard

Before a member is removed, the guard works out which control plane nodes would remain and refuses
the removal when they are too few.
-/

set_option autoImplicit false

namespace QuorumKeeper

/-- The least number of control plane nodes that must remain after a removal. -/
structure QuorumGuard where
  minimum : Nat := 1
  deriving DecidableEq, Repr, Inhabited

namespace QuorumGuard

/-- The nodes whose names do not stand inside the target, which may be the name of a node or of a
member. -/
def nodesWithout (nodes : List String) (target : String) : List String :=
  nodes.filter fun n => !Text.occurs n target

/-- A name stands inside itself, so the target is never among the nodes that are left. -/
theorem nodesWithout_sublist (nodes : List String) (target : String) :
    (nodesWithout nodes target).Sublist (nodes.filter (· ≠ target)) := by
  have hsame : nodesWithout (nodes.filter (· ≠ target)) target = nodesWithout nodes target := by
    rw [nodesWithout, nodesWithout, List.filter_filter]
    refine List.filter_congr fun n _ => ?_
    by_cases hn : n = target
    · simp [hn, Text.occurs_self]
    · simp [hn]
  rw [← hsame]
  exact List.filter_sublist

/-- The nodes left once the target is gone, or a refusal if they are fewer than the minimum. -/
def remaining (guard : QuorumGuard) (nodes : List String) (target : String) :
    Except OperationError (List String) :=
  let left := nodesWithout nodes target
  if left.length < guard.minimum then .error (.belowMinimum guard.minimum left.length)
  else .ok left

theorem remaining_eq_error_iff {guard : QuorumGuard} {nodes : List String} {target : String}
    {e : OperationError} :
    guard.remaining nodes target = .error e ↔
      (nodesWithout nodes target).length < guard.minimum ∧
        e = .belowMinimum guard.minimum (nodesWithout nodes target).length := by
  simp only [remaining]
  split
  · rename_i hfew
    simp [hfew, eq_comm]
  · rename_i henough
    simp [henough]

theorem remaining_eq_ok_iff {guard : QuorumGuard} {nodes left : List String} {target : String} :
    guard.remaining nodes target = .ok left ↔
      guard.minimum ≤ (nodesWithout nodes target).length ∧ left = nodesWithout nodes target := by
  simp only [remaining]
  split
  · rename_i hfew
    simp [Nat.not_le.2 hfew]
  · rename_i henough
    simp [Nat.not_lt.1 henough, eq_comm]

/-- A refusal is no cancellation. -/
theorem remaining_not_cancelled {guard : QuorumGuard} {nodes : List String} {target : String}
    {e : OperationError} (h : guard.remaining nodes target = .error e) : e.isCancelled = false := by
  obtain ⟨-, rfl⟩ := remaining_eq_error_iff.1 h
  rfl

end QuorumGuard

end QuorumKeeper
