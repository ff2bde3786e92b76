import QuorumKeeper.Proofs.Runs
import QuorumKeeper.ClientSearch

/-!
# Searches through candidates

Both searches try their candidates one after the other: a candidate settles the search, or it is
passed over with an error that is recorded, and when all were passed over the errors make the
result. `Searched` is that description, with what it means to pass over a candidate and to be
settled by one as parameters, and `searched_iff` derives it from the two equations of the loop.

`firstAvailable_yields_iff` is the case of the search for the first available node, where one dial
decides about a candidate. It says what the behaviours of the search are, no more and no less. What
a candidate behind the deciding one would have answered is therefore of no account
(`first_available_follows_contract`).
-/

set_option autoImplicit false

namespace QuorumKeeper.ClientSearch

open Program

/-- A candidate that was passed over: what was exchanged and the error that was recorded. -/
structure Passed (Skips : String → List Exchange → ClientError → Prop) where
  node : String
  trace : List Exchange
  error : ClientError
  skipped : Skips node trace error

/-- The candidates were tried in order, with these exchanges and this result: one of them settled
the search, and those after it were left alone; or all of them were passed over, once each. -/
inductive Searched (Skips : String → List Exchange → ClientError → Prop)
    (Settles : String → List Exchange → Except ClientError Client → Prop)
    (verdict : List ClientError → ClientError) (nodes : List String) :
    List Exchange → Except ClientError Client → Prop where
  | settled (passed : List (Passed Skips)) (node : String) (left : List String)
      (order : nodes = passed.map Passed.node ++ node :: left) {t : List Exchange}
      {v : Except ClientError Client} (last : Settles node t v) :
      Searched Skips Settles verdict nodes (passed.flatMap Passed.trace ++ t) v
  | exhausted (passed : List (Passed Skips)) (order : nodes = passed.map Passed.node) :
      Searched Skips Settles verdict nodes (passed.flatMap Passed.trace)
        (.error (verdict (passed.map Passed.error)))

section Loop

variable {Skips : String → List Exchange → ClientError → Prop}
  {Settles : String → List Exchange → Except ClientError Client → Prop}
  {verdict : List ClientError → ClientError}
  {loop : List String → List ClientError → Program (Except ClientError Client)}

/-- The loop after some failures: the errors of the candidates come after them. -/
theorem loop_yields_iff (hnil : ∀ failures, loop [] failures = pure (.error (verdict failures)))
    (hcons : ∀ node rest failures t v, (loop (node :: rest) failures).Yields t v ↔
      Settles node t v ∨ ∃ e t₁ t₂, t = t₁ ++ t₂ ∧ Skips node t₁ e ∧
        (loop rest (failures ++ [e])).Yields t₂ v)
    {nodes : List String} {failures : List ClientError} {t : List Exchange}
    {v : Except ClientError Client} :
    (loop nodes failures).Yields t v ↔
      (∃ (passed : List (Passed Skips)) (node : String) (left : List String) (t' : List Exchange),
        nodes = passed.map Passed.node ++ node :: left ∧ t = passed.flatMap Passed.trace ++ t' ∧
          Settles node t' v) ∨
      ∃ passed : List (Passed Skips), nodes = passed.map Passed.node ∧
        t = passed.flatMap Passed.trace ∧
          v = .error (verdict (failures ++ passed.map Passed.error)) := by
  -- every round adds a failure, so this is shown for any failures to start with
  induction nodes generalizing failures t with
  | nil =>
    rw [hnil, yields_pure]
    constructor
    · rintro ⟨rfl, rfl⟩
      exact Or.inr ⟨[], rfl, rfl, by simp⟩
    · rintro (⟨passed, node, left, t', order, -, -⟩ | ⟨passed, order, rfl, rfl⟩)
      · simp at order
      · obtain rfl := List.map_eq_nil_iff.1 order.symm
        exact ⟨rfl, by simp⟩
  | cons node rest ih =>
    rw [hcons]
    constructor
    · rintro (h | ⟨e, t₁, t₂, rfl, hskip, h⟩)
      · exact Or.inl ⟨[], node, rest, t, rfl, rfl, h⟩
      · rcases ih.1 h with ⟨passed, last, left, t', rfl, rfl, hlast⟩ | ⟨passed, rfl, rfl, rfl⟩
        · refine Or.inl ⟨⟨node, t₁, e, hskip⟩ :: passed, last, left, t', rfl, ?_, hlast⟩
          simp
        · refine Or.inr ⟨⟨node, t₁, e, hskip⟩ :: passed, rfl, rfl, ?_⟩
          simp
    · rintro (⟨passed, last, left, t', order, rfl, hlast⟩ | ⟨passed, order, rfl, rfl⟩)
      · cases passed with
        | nil =>
          obtain ⟨rfl, rfl⟩ := List.cons.inj order
          exact Or.inl hlast
        | cons p passed =>
          obtain ⟨rfl, rfl⟩ := List.cons.inj order
          have hjoined : (p :: passed).flatMap Passed.trace ++ t' =
              p.trace ++ (passed.flatMap Passed.trace ++ t') := by
            rw [List.flatMap_cons, List.append_assoc]
          refine Or.inr ⟨p.error, p.trace, _, hjoined, p.skipped, ?_⟩
          exact ih.2 (Or.inl ⟨passed, last, left, t', rfl, rfl, hlast⟩)
      · cases passed with
        | nil => cases order
        | cons p passed =>
          obtain ⟨rfl, rfl⟩ := List.cons.inj order
          refine Or.inr ⟨p.error, p.trace, _, List.flatMap_cons, p.skipped, ?_⟩
          exact ih.2 (Or.inr ⟨passed, rfl, rfl, by simp⟩)

/-- A loop that starts without failures is a search through the candidates. -/
theorem searched_iff (hnil : ∀ failures, loop [] failures = pure (.error (verdict failures)))
    (hcons : ∀ node rest failures t v, (loop (node :: rest) failures).Yields t v ↔
      Settles node t v ∨ ∃ e t₁ t₂, t = t₁ ++ t₂ ∧ Skips node t₁ e ∧
        (loop rest (failures ++ [e])).Yields t₂ v)
    {nodes : List String} {t : List Exchange} {v : Except ClientError Client} :
    (loop nodes []).Yields t v ↔ Searched Skips Settles verdict nodes t v := by
  rw [loop_yields_iff hnil hcons]
  constructor
  · rintro (⟨passed, node, left, t', order, rfl, last⟩ | ⟨passed, order, rfl, rfl⟩)
    · exact .settled passed node left order last
    · exact .exhausted passed order
  · intro h
    cases h with
    | settled passed node left order last =>
      exact Or.inl ⟨passed, node, left, _, order, rfl, last⟩
    | exhausted passed order => exact Or.inr ⟨passed, order, rfl, rfl⟩

end Loop

/-! ## The first available node -/

/-- The node is dialed in vain. -/
inductive Misses (node : String) : List Exchange → ClientError → Prop where
  | dial {e : ClientError} (not_cancelled : e.isCancelled = false) :
      Misses node [⟨.create (etcdEndpoint node), .error e⟩] e

/-- The node is dialed, and the answer is a connection or a cancellation. -/
inductive Answers (node : String) : List Exchange → Except ClientError Client → Prop where
  | connected (client : Client) :
      Answers node [⟨.create (etcdEndpoint node), .ok client⟩] (.ok client)
  | cancelled {e : ClientError} (cancelled : e.isCancelled = true) :
      Answers node [⟨.create (etcdEndpoint node), .error e⟩] (.error e)

/-- A search for the first available of the nodes makes these exchanges and gives this result. -/
def Dialed (nodes : List String) : List Exchange → Except ClientError Client → Prop :=
  Searched Misses Answers (.unreachable noNodeReachable) nodes

/-- The first candidate answers the search, or it is missed and the rest are tried. -/
theorem tryEach_cons_yields_iff (node : String) (rest : List String) (failures : List ClientError)
    (t : List Exchange) (v : Except ClientError Client) :
    (tryEach (node :: rest) failures).Yields t v ↔
      Answers node t v ∨ ∃ e t₁ t₂, t = t₁ ++ t₂ ∧ Misses node t₁ e ∧
        (tryEach rest (failures ++ [e])).Yields t₂ v := by
  rw [tryEach, create, yields_request_bind]
  constructor
  · rintro ⟨answer, t', rfl, h⟩
    cases answer with
    | ok client =>
      obtain ⟨rfl, rfl⟩ := h
      exact Or.inl (.connected client)
    | error e =>
      cases he : e.isCancelled with
      | true =>
        simp only [he] at h
        obtain ⟨rfl, rfl⟩ := h
        exact Or.inl (.cancelled he)
      | false =>
        simp only [he] at h
        exact Or.inr ⟨e, _, t', rfl, .dial he, h⟩
  · rintro (h | ⟨e, t₁, t₂, rfl, hmiss, h⟩)
    · cases h with
      | connected client => exact ⟨.ok client, [], rfl, rfl, rfl⟩
      | @cancelled e he =>
        refine ⟨.error e, [], rfl, ?_⟩
        simp only [he]
        exact ⟨rfl, rfl⟩
    · cases hmiss with
      | dial he =>
        refine ⟨.error e, t₂, rfl, ?_⟩
        simp only [he]
        exact h

/-- A search among candidates dials them in order. -/
theorem firstAvailable_yields_iff {nodes : List String} {t : List Exchange}
    {v : Except ClientError Client} (hnodes : nodes ≠ []) :
    (firstAvailable nodes).Yields t v ↔ Dialed nodes t v := by
  have hsome : nodes.isEmpty = false := by simpa using hnodes
  simp only [firstAvailable, hsome, Bool.false_eq_true, if_false]
  exact searched_iff (fun failures => rfl) tryEach_cons_yields_iff

/-- Among one node the search is a single dial, whose failure is reported as that of a search. -/
theorem dialed_single_iff {node : String} {t : List Exchange} {v : Except ClientError Client} :
    Dialed [node] t v ↔ Answers node t v ∨
      ∃ e, Misses node t e ∧ v = .error (.unreachable noNodeReachable [e]) := by
  constructor
  · intro h
    cases h with
    | settled passed last left order hlast =>
      cases passed with
      | nil =>
        obtain ⟨rfl, -⟩ := List.cons.inj order
        exact Or.inl hlast
      | cons p passed => simp at order
    | exhausted passed order =>
      obtain ⟨p, rfl, rfl⟩ := List.map_eq_singleton_iff.1 order.symm
      exact Or.inr ⟨p.error, by simpa using p.skipped, rfl⟩
  · rintro (h | ⟨e, hmiss, rfl⟩)
    · exact .settled [] node [] rfl h
    · have hall : Dialed [node] ([⟨node, t, e, hmiss⟩].flatMap Passed.trace) _ :=
        .exhausted _ rfl
      simpa using hall

/-- A search with one candidate answers, or collects the one failure. -/
theorem firstAvailable_single_yields_iff {node : String} {t : List Exchange}
    {v : Except ClientError Client} :
    (firstAvailable [node]).Yields t v ↔ Answers node t v ∨
      ∃ e, Misses node t e ∧ v = .error (.unreachable noNodeReachable [e]) := by
  rw [firstAvailable_yields_iff (List.cons_ne_nil node []), dialed_single_iff]

section Single

variable (node : String)

theorem single_yields_connected (client : Client) :
    (firstAvailable [node]).Yields [⟨.create (etcdEndpoint node), .ok client⟩] (.ok client) :=
  firstAvailable_single_yields_iff.2 (Or.inl (.connected client))

/-- A cancelled dial ends the search with that cancellation. -/
theorem single_yields_cancelled {e : ClientError} (he : e.isCancelled = true) :
    (firstAvailable [node]).Yields [⟨.create (etcdEndpoint node), .error e⟩] (.error e) :=
  firstAvailable_single_yields_iff.2 (Or.inl (.cancelled he))

theorem single_yields_missed {e : ClientError} (he : e.isCancelled = false) :
    (firstAvailable [node]).Yields [⟨.create (etcdEndpoint node), .error e⟩]
      (.error (.unreachable noNodeReachable [e])) :=
  firstAvailable_single_yields_iff.2 (Or.inr ⟨e, .dial he, rfl⟩)

end Single

end QuorumKeeper.ClientSearch

namespace QuorumKeeper

open Program ClientSearch

/-- Against any world, a search among no nodes is a mistake of the caller and makes no request.
Among one or more nodes its exchanges follow the contract, and the contract leaves its result no
choice. A second world that answers the dials of a run in the same way gives the same run and
result, whatever it would have answered later. -/
theorem first_available_follows_contract {σ σ' : Type} (world : World σ) (world' : World σ')
    (s : Situation σ) (s' : Situation σ') (nodes : List String) :
    (nodes = [] → (firstAvailable nodes).run world s = ⟨.error (.invalidArgument
      "for_first_available_node can't be called with an empty list of nodes"), s, [], []⟩) ∧
    (nodes ≠ [] → ∀ v, Dialed nodes ((firstAvailable nodes).run world s).trace v ↔
      ((firstAvailable nodes).run world s).value = v) ∧
    (world'.exchanges s' (((firstAvailable nodes).run world s).trace.map Exchange.request) =
        ((firstAvailable nodes).run world s).trace →
      ((firstAvailable nodes).run world' s').trace = ((firstAvailable nodes).run world s).trace ∧
        ((firstAvailable nodes).run world' s').value =
          ((firstAvailable nodes).run world s).value) := by
  have hyields := yields_run world (firstAvailable nodes) s
  refine ⟨?_, fun hnodes v => ?_, fun hsame => ?_⟩
  · rintro rfl
    rfl
  · constructor
    · -- two behaviours with the same exchanges give the same value
      intro h
      exact hyields.unique ((firstAvailable_yields_iff hnodes).2 h)
    · rintro rfl
      exact (firstAvailable_yields_iff hnodes).1 hyields
  · exact hyields.run_eq world' hsame

end QuorumKeeper
