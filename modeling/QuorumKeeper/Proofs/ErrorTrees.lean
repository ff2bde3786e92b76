import QuorumKeeper.Workload

/-!
# Trees of errors

An error may collect others: a search collects what went wrong with each candidate, a reconciliation
what went wrong with each member, and an error of an operation may wrap a tree of client errors. So
there are two layers of trees, of any depth and width, and `Includes` says which client errors stand
in them.

The tests for a cancellation search such a tree as a whole: they find one exactly where the tree
includes one (`ClientError.isCancelled_iff_includes`, `OperationError.isCancelled_iff_includes`).
Each way of collecting errors therefore passes cancellations on from every place
(`PassesCancellationsOn`), and no order of collected errors, at whatever depth, makes a difference
(`ClientError.Reordered`, `OperationError.Reordered`).
-/

set_option autoImplicit false

namespace QuorumKeeper

/-! ## What stands in a tree -/

/-- The error is the other one, or holds it somewhere below. -/
inductive ClientError.Includes : ClientError → ClientError → Prop where
  | self (e : ClientError) : Includes e e
  | nested {whole part e : ClientError} (direct : part ∈ whole.children)
      (inside : Includes part e) : Includes whole e

/-- The error of a call that holds the other one stands somewhere in the failure. -/
inductive OperationError.Includes : OperationError → ClientError → Prop where
  | client {context : String} {source e : ClientError} (inside : source.Includes e) :
      Includes (.client context source) e
  | several {failures : List OperationError} {failure : OperationError} {e : ClientError}
      (direct : failure ∈ failures) (inside : Includes failure e) :
      Includes (.several failures) e

namespace ClientError

theorem sizeOf_lt_of_mem_children {whole part : ClientError} (h : part ∈ whole.children) :
    sizeOf part < sizeOf whole := by
  cases whole with
  | unreachable context errors =>
    have hlt : sizeOf part < sizeOf errors := List.sizeOf_lt_of_mem h
    rw [unreachable.sizeOf_spec]
    omega
  | inconsistent errors =>
    have hlt : sizeOf part < sizeOf errors := List.sizeOf_lt_of_mem h
    rw [inconsistent.sizeOf_spec]
    omega
  | _ => cases h

/-- Induction over a tree: a property that an error has once all those that it collects have it
holds of every error. -/
@[elab_as_elim]
theorem tree_induction {motive : ClientError → Prop}
    (collects : ∀ whole, (∀ part ∈ whole.children, motive part) → motive whole)
    (e : ClientError) : motive e :=
  collects e fun part _ => tree_induction collects part
termination_by sizeOf e
decreasing_by exact sizeOf_lt_of_mem_children ‹_›

/-- An error tells of a cancellation if it is one, or if one of those that it collects does. -/
theorem isCancelled_iff {e : ClientError} :
    e.isCancelled = true ↔ e = cancelled ∨ ∃ part ∈ e.children, part.isCancelled = true := by
  cases e with
  | unreachable context errors =>
    simp only [isCancelled, anyCancelled_eq_any, List.any_eq_true, children, reduceCtorEq, false_or]
  | inconsistent errors =>
    simp only [isCancelled, anyCancelled_eq_any, List.any_eq_true, children, reduceCtorEq, false_or]
  | _ => simp [isCancelled, children]

/-- A tree that tells of a cancellation does so from any depth of another tree. -/
theorem isCancelled_of_includes {whole part : ClientError} (h : whole.Includes part)
    (hpart : part.isCancelled = true) : whole.isCancelled = true := by
  induction h with
  | self e => exact hpart
  | nested direct _ ih => exact isCancelled_iff.2 (Or.inr ⟨_, direct, ih hpart⟩)

/-- An error counts as a cancellation exactly when it includes one. -/
theorem isCancelled_iff_includes (e : ClientError) :
    e.isCancelled = true ↔ e.Includes cancelled := by
  constructor
  · intro h
    induction e using tree_induction with
    | collects whole ih =>
      -- the cancellation is the root, or stands in a part that tells of it
      rcases isCancelled_iff.1 h with rfl | ⟨part, hpart, hcancelled⟩
      · exact .self cancelled
      · exact .nested hpart (ih part hpart hcancelled)
  · intro h
    exact isCancelled_of_includes h rfl

end ClientError

namespace OperationError

/-- The errors that stand directly below an error of an operation. -/
def children : OperationError → List OperationError
  | several errors => errors
  | _ => []

theorem sizeOf_lt_of_mem_children {whole part : OperationError} (h : part ∈ whole.children) :
    sizeOf part < sizeOf whole := by
  cases whole with
  | several errors =>
    have hlt : sizeOf part < sizeOf errors := List.sizeOf_lt_of_mem h
    rw [several.sizeOf_spec]
    omega
  | _ => cases h

/-- Induction over the upper layer of a tree, down to the errors that collect none. -/
@[elab_as_elim]
theorem tree_induction {motive : OperationError → Prop}
    (collects : ∀ whole, (∀ part ∈ whole.children, motive part) → motive whole)
    (e : OperationError) : motive e :=
  collects e fun part _ => tree_induction collects part
termination_by sizeOf e
decreasing_by exact sizeOf_lt_of_mem_children ‹_›

theorem includes_of_mem_children {whole part : OperationError} {e : ClientError}
    (h : part ∈ whole.children) (inside : part.Includes e) : whole.Includes e := by
  cases whole with
  | several errors => exact .several h inside
  | _ => cases h

/-- An error tells of a cancellation if the client error that it wraps does, or one of those that it
collects. -/
theorem isCancelled_iff {e : OperationError} :
    e.isCancelled = true ↔
      (∃ context source, e = client context source ∧ source.isCancelled = true) ∨
        ∃ part ∈ e.children, part.isCancelled = true := by
  cases e with
  | client context source =>
    constructor
    · intro h
      exact Or.inl ⟨context, source, rfl, h⟩
    · rintro (⟨_, _, heq, hsource⟩ | ⟨part, hpart, -⟩)
      · cases heq
        exact hsource
      · cases hpart
  | several errors => simp [isCancelled, anyCancelled_eq_any, children]
  | _ => simp [isCancelled, children]

/-- An operation error counts as a cancellation if an included client error does. -/
theorem isCancelled_of_includes {e : OperationError} {source : ClientError} (h : e.Includes source)
    (hsource : source.isCancelled = true) : e.isCancelled = true := by
  induction h with
  | client inside => exact ClientError.isCancelled_of_includes inside hsource
  | several direct _ ih => exact isCancelled_iff.2 (Or.inr ⟨_, direct, ih hsource⟩)

theorem isCancelled_iff_includes (e : OperationError) :
    e.isCancelled = true ↔ e.Includes .cancelled := by
  constructor
  · intro h
    induction e using tree_induction with
    | collects whole ih =>
      rcases isCancelled_iff.1 h with ⟨context, source, rfl, hsource⟩ | ⟨part, hpart, hcancelled⟩
      · -- here the upper layer ends, and the tree of client errors is searched
        exact .client (source.isCancelled_iff_includes.1 hsource)
      · exact includes_of_mem_children hpart (ih part hpart hcancelled)
  · intro h
    exact isCancelled_of_includes h rfl

end OperationError

/-! ## Collecting errors -/

/-- A way of collecting errors passes cancellations on: it neither hides nor invents one, whatever
the place of an error and in every order. -/
structure PassesCancellationsOn {ε δ : Type} (isCancelled : ε → Bool) (found : δ → Bool)
    (collect : List ε → δ) : Prop where
  empty : found (collect []) = false
  anywhere : ∀ before e after, found (collect (before ++ e :: after)) =
    (isCancelled e || found (collect (before ++ after)))
  unordered : ∀ errors errors', errors.Perm errors' →
    found (collect errors) = found (collect errors')

section Collecting

variable {ε δ : Type} {isCancelled : ε → Bool} {found : δ → Bool} {collect : List ε → δ}

/-- A collection that is searched entry by entry passes cancellations on. -/
theorem passesCancellationsOn_of_any
    (h : ∀ errors, found (collect errors) = errors.any isCancelled) :
    PassesCancellationsOn isCancelled found collect where
  empty := h []
  anywhere := by
    intro before e after
    rw [h, h, List.any_append, List.any_cons, List.any_append, Bool.or_left_comm]
  unordered := by
    intro errors errors' horder
    rw [h, h, horder.any_eq]

end Collecting

/-- Collecting failures keeps their cancellations. -/
theorem ClientError.unreachable_passesOn (context : String) :
    PassesCancellationsOn isCancelled isCancelled (unreachable context) :=
  passesCancellationsOn_of_any anyCancelled_eq_any

theorem ClientError.inconsistent_passesOn :
    PassesCancellationsOn isCancelled isCancelled inconsistent :=
  passesCancellationsOn_of_any anyCancelled_eq_any

/-- Putting several errors together keeps their cancellations. -/
theorem OperationError.several_passesOn :
    PassesCancellationsOn isCancelled isCancelled several :=
  passesCancellationsOn_of_any anyCancelled_eq_any

/-- The error that a report is turned into tells of the cancellations that were reported. -/
theorem Report.error?_passesOn (removed : List String) :
    PassesCancellationsOn OperationError.isCancelled (Option.any OperationError.isCancelled)
      (fun errors => (Report.mk removed errors).error?) := by
  apply passesCancellationsOn_of_any
  intro errors
  cases errors with
  | nil => rfl
  | cons e rest => exact OperationError.anyCancelled_eq_any (e :: rest)

/-! ## Orders at every depth -/

/-- Two trees of client errors that differ in the order of what is collected, at whatever depth. -/
inductive ClientError.Reordered : ClientError → ClientError → Prop where
  | refl (e : ClientError) : Reordered e e
  | unreachable (context : String) {errors errors' : List ClientError}
      (order : errors.Perm errors') :
      Reordered (.unreachable context errors) (.unreachable context errors')
  | inconsistent {errors errors' : List ClientError} (order : errors.Perm errors') :
      Reordered (.inconsistent errors) (.inconsistent errors')
  | insideUnreachable (context : String) (before after : List ClientError) {e e' : ClientError}
      (inside : Reordered e e') :
      Reordered (.unreachable context (before ++ e :: after))
        (.unreachable context (before ++ e' :: after))
  | insideInconsistent (before after : List ClientError) {e e' : ClientError}
      (inside : Reordered e e') :
      Reordered (.inconsistent (before ++ e :: after)) (.inconsistent (before ++ e' :: after))
  | trans {e e' e'' : ClientError} (first : Reordered e e') (second : Reordered e' e'') :
      Reordered e e''

/-- Two trees of errors that differ in the order of what is collected, in either layer and at
whatever depth. -/
inductive OperationError.Reordered : OperationError → OperationError → Prop where
  | refl (e : OperationError) : Reordered e e
  | client (context : String) {source source' : ClientError} (inside : source.Reordered source') :
      Reordered (.client context source) (.client context source')
  | several {errors errors' : List OperationError} (order : errors.Perm errors') :
      Reordered (.several errors) (.several errors')
  | insideSeveral (before after : List OperationError) {e e' : OperationError}
      (inside : Reordered e e') :
      Reordered (.several (before ++ e :: after)) (.several (before ++ e' :: after))
  | trans {e e' e'' : OperationError} (first : Reordered e e') (second : Reordered e' e'') :
      Reordered e e''

/-- The order of the parts does not matter to the verdict. -/
theorem ClientError.Reordered.isCancelled_eq {e e' : ClientError} (h : e.Reordered e') :
    e.isCancelled = e'.isCancelled := by
  induction h with
  | refl e => rfl
  | unreachable context order => exact (unreachable_passesOn context).unordered _ _ order
  | inconsistent order => exact inconsistent_passesOn.unordered _ _ order
  | insideUnreachable context before after _ ih =>
    rw [(unreachable_passesOn context).anywhere, ih, (unreachable_passesOn context).anywhere]
  | insideInconsistent before after _ ih =>
    rw [inconsistent_passesOn.anywhere, ih, inconsistent_passesOn.anywhere]
  | trans _ _ ih ih' => exact ih.trans ih'

/-- The order of the parts does not matter to the verdict. -/
theorem OperationError.Reordered.isCancelled_eq {e e' : OperationError} (h : e.Reordered e') :
    e.isCancelled = e'.isCancelled := by
  induction h with
  | refl e => rfl
  | client context inside => exact inside.isCancelled_eq
  | several order => exact several_passesOn.unordered _ _ order
  | insideSeveral before after _ ih =>
    rw [several_passesOn.anywhere, ih, several_passesOn.anywhere]
  | trans _ _ ih ih' => exact ih.trans ih'

/-- Cancellations are found in trees of errors: where they are, whatever wraps or collects them, and
in every order. -/
structure FindsCancellations : Prop where
  client : ∀ e : ClientError, e.isCancelled = true ↔ e.Includes .cancelled
  operation : ∀ e : OperationError, e.isCancelled = true ↔ e.Includes .cancelled
  wrapped : ∀ context source,
    (OperationError.client context source).isCancelled = source.isCancelled
  unreachable : ∀ context, PassesCancellationsOn ClientError.isCancelled ClientError.isCancelled
    (ClientError.unreachable context)
  inconsistent : PassesCancellationsOn ClientError.isCancelled ClientError.isCancelled
    ClientError.inconsistent
  several : PassesCancellationsOn OperationError.isCancelled OperationError.isCancelled
    OperationError.several
  report : ∀ removed, PassesCancellationsOn OperationError.isCancelled
    (Option.any OperationError.isCancelled) fun errors => (Report.mk removed errors).error?
  clientReordered : ∀ e e' : ClientError, e.Reordered e' → e.isCancelled = e'.isCancelled
  operationReordered : ∀ e e' : OperationError, e.Reordered e' → e.isCancelled = e'.isCancelled

/-- A tree of errors tells of a cancellation exactly if it includes one, in both layers. So neither
the wrapping of a client error, nor any way of collecting errors, nor the error that a report is
turned into hides or invents a cancellation, and the order in which errors are collected is of no
account, at whatever depth. -/
theorem cancellation_found_in_any_tree : FindsCancellations where
  client := ClientError.isCancelled_iff_includes
  operation := OperationError.isCancelled_iff_includes
  wrapped _ _ := rfl
  unreachable := ClientError.unreachable_passesOn
  inconsistent := ClientError.inconsistent_passesOn
  several := OperationError.several_passesOn
  report := Report.error?_passesOn
  clientReordered _ _ h := h.isCancelled_eq
  operationReordered _ _ h := h.isCancelled_eq

/-- A search for the leader that missed one node and then met these errors. -/
def troubledSearch (errors : List ClientError) : OperationError :=
  .client "failed to create etcd client" (.unreachable "could not reach the leader"
    [.connect "etcd-cp-1" "connection refused", .inconsistent errors])

theorem cancellation_found_in_either_order :
    let failures := [.memberNotFound "cp-9", troubledSearch [.leaderNotMember 7, .cancelled]]
    let turned := [troubledSearch [.cancelled, .leaderNotMember 7], .memberNotFound "cp-9"]
    (OperationError.several failures).Reordered (.several turned) ∧
      (OperationError.several turned).isCancelled = true := by
  intro failures turned
  have hinside : (troubledSearch [.leaderNotMember 7, .cancelled]).Reordered
      (troubledSearch [.cancelled, .leaderNotMember 7]) :=
    .client _ (.insideUnreachable _ [.connect "etcd-cp-1" "connection refused"] []
      (.inconsistent (List.Perm.swap _ _ _)))
  have horder : (OperationError.several failures).Reordered (.several turned) :=
    .trans (.insideSeveral [.memberNotFound "cp-9"] [] hinside)
      (.several (List.Perm.swap _ _ _))
  refine ⟨horder, ?_⟩
  rw [← cancellation_found_in_any_tree.operationReordered _ _ horder]
  rfl

end QuorumKeeper
