import QuorumKeeper.Proofs.Attempts
import QuorumKeeper.Proofs.LeaderSearch
import QuorumKeeper.Proofs.LiveMembership

/-!
# What the report of a reconciliation accounts for

A reconciliation goes through the nodes in order, and through the members as each node lists them.
`Attempted` says which attempts are made on a list of names: all of them in order, or those up to
and including the first one that was cancelled. `Turn` says what comes of one node, and `Round`
what comes of the nodes together: the exchanges, the attempts that were made, and how it ended.

`reconcile_yields_iff` says that the behaviours of a reconciliation are the rounds, no more and no
less, and that its report is the account of the attempts. `Report.account` goes through them once;
its names and its errors are computed apart from each other (`account_removed`, `account_errors`).
-/

set_option autoImplicit false

namespace QuorumKeeper

open Program ClientSearch

namespace Workload

/-- An attempt to take out a member that was made: the member's name, what was exchanged and what
the attempt answered. -/
structure Tried (w : Workload) where
  name : String
  trace : List Exchange
  answer : Except OperationError Unit
  made : Attempt w name trace answer

/-- How a part of a reconciliation ends: what comes after it may begin, an attempt was cancelled, or
the dial or the listing of a node was cancelled with an error of its own. -/
inductive Ending where
  | onward
  | cutShort
  | unasked (e : ClientError)

variable {w : Workload}

namespace Tried

/-- The error of a failed attempt. -/
def error? (a : Tried w) : Option OperationError :=
  match a.answer with
  | .ok _ => none
  | .error e => some e

/-- The attempt failed because of a cancellation. -/
def isCancelled (a : Tried w) : Bool :=
  a.error?.any OperationError.isCancelled

end Tried

namespace Ending

/-- The error that an ending adds to those of the attempts. -/
def errors : Ending → List OperationError
  | onward => []
  | cutShort => []
  | unasked e => [.client reconcileContext e]

/-- Whether reconciliation goes on after a part with this ending. -/
def progress (ending : Ending) (r : Report) : Progress :=
  match ending with
  | onward => .goOn r
  | cutShort => .stop r
  | unasked e => .stop (r.fail (.client reconcileContext e))

end Ending

/-- Members were attempted under the names in order, up to and including the first attempt that was
cancelled. -/
inductive Attempted (w : Workload) : List String → List (Tried w) → Ending → Prop where
  | none : Attempted w [] [] .onward
  | cancelled {name : String} {names : List String} {a : Tried w} (named : a.name = name)
      (cancelled : a.isCancelled = true) : Attempted w (name :: names) [a] .cutShort
  | next {name : String} {names : List String} {a : Tried w} (named : a.name = name)
      (calm : a.isCancelled = false) {later : List (Tried w)} {ending : Ending}
      (rest : Attempted w names later ending) : Attempted w (name :: names) (a :: later) ending

/-- One node's turn: what is exchanged, the attempts that are made at the stale members listed, and
how it ends. A node that cannot be dialed or listed has no attempts, and no error unless it was
cancelled. -/
inductive Turn (w : Workload) (nodes : List String) (via : String) :
    List Exchange → List (Tried w) → Ending → Prop where
  | undialed {e : ClientError} (not_cancelled : e.isCancelled = false) :
      Turn w nodes via [⟨.create (etcdEndpoint via), .error e⟩] [] .onward
  | unlisted (client : Client) {e : ClientError} (not_cancelled : e.isCancelled = false) :
      Turn w nodes via (asked via client (.error e)) [] .onward
  | dialCancelled {e : ClientError} (cancelled : e.isCancelled = true) :
      Turn w nodes via [⟨.create (etcdEndpoint via), .error e⟩] [] (.unasked e)
  | listCancelled (client : Client) {e : ClientError} (cancelled : e.isCancelled = true) :
      Turn w nodes via (asked via client (.error e)) [] (.unasked e)
  | listed (client : Client) {members : List Member} {tried : List (Tried w)} {ending : Ending}
      (attempted : Attempted w ((members.filter fun m => Stale nodes m).map Member.name) tried
        ending) :
      Turn w nodes via (asked via client (.ok members) ++ tried.flatMap Tried.trace) tried ending

/-- The turns of some nodes, one after the other for as long as they end well. -/
inductive Round (w : Workload) (nodes : List String) :
    List String → List Exchange → List (Tried w) → Ending → Prop where
  | done : Round w nodes [] [] [] .onward
  | stopped {via : String} {rest : List String} {t : List Exchange} {tried : List (Tried w)}
      {ending : Ending} (turn : Turn w nodes via t tried ending) (early : ending ≠ .onward) :
      Round w nodes (via :: rest) t tried ending
  | next {via : String} {rest : List String} {t t' : List Exchange} {tried later : List (Tried w)}
      {ending : Ending} (turn : Turn w nodes via t tried .onward)
      (others : Round w nodes rest t' later ending) :
      Round w nodes (via :: rest) (t ++ t') (tried ++ later) ending

end Workload

open Workload

/-! ## The account of the attempts -/

namespace Report

variable {w : Workload}

/-- The report with one more attempt. -/
def add (r : Report) (a : Tried w) : Report :=
  (r.attempt a.name).answered a.answer

/-- The report with some more attempts. -/
def account (r : Report) (tried : List (Tried w)) : Report :=
  tried.foldl add r

/-- Attempts are taken into a report one after the other. -/
theorem account_append (r : Report) (tried later : List (Tried w)) :
    r.account (tried ++ later) = (r.account tried).account later :=
  List.foldl_append

/-- An attempt adds its error, if it has one. -/
theorem add_errors (r : Report) (a : Tried w) : (r.add a).errors = r.errors ++ a.error?.toList := by
  rw [add, Tried.error?]
  cases a.answer with
  | ok u => simp [answered, attempt_errors]
  | error e => simp [answered, fail, attempt_errors]

/-- Every attempted name is noted where it first occurs, whatever came of the attempt. -/
theorem account_removed {r : Report} {seen : List String} (h : r.removed = seen.eraseDups)
    (tried : List (Tried w)) :
    (r.account tried).removed = (seen ++ tried.map Tried.name).eraseDups := by
  induction tried generalizing r seen with
  | nil => rw [List.map_nil, List.append_nil]; exact h
  | cons a later ih =>
    have hadd : (r.add a).removed = (seen ++ [a.name]).eraseDups := by
      rw [add, answered_removed]
      exact attempt_removed h a.name
    rw [List.map_cons, List.append_cons]
    exact ih hadd

/-- A name is reported once, however often it is attempted. -/
theorem attempt_nodup {r : Report} (h : r.removed.Nodup) (name : String) :
    (r.attempt name).removed.Nodup := by
  unfold attempt
  split
  · exact h
  · rename_i hnew
    have hnew : name ∉ r.removed := fun hin => hnew (List.contains_iff_mem.2 hin)
    show (r.removed ++ [name]).Nodup
    rw [← List.concat_eq_append]
    exact (List.nodup_concat _ _).2 ⟨hnew, h⟩

/-- No name is noted twice. -/
theorem account_nodup {r : Report} (h : r.removed.Nodup) (tried : List (Tried w)) :
    (r.account tried).removed.Nodup := by
  induction tried generalizing r with
  | nil => exact h
  | cons a later ih =>
    refine ih (r := r.add a) ?_
    rw [add, answered_removed]
    exact attempt_nodup h a.name

/-- Every failed attempt adds its error, in order. -/
theorem account_errors (r : Report) (tried : List (Tried w)) :
    (r.account tried).errors = r.errors ++ tried.filterMap Tried.error? := by
  induction tried generalizing r with
  | nil => exact (List.append_nil r.errors).symm
  | cons a later ih =>
    have hrest := ih (r.add a)
    rw [add_errors] at hrest
    rw [account, List.foldl_cons, ← account, hrest, List.filterMap_cons, List.append_assoc]
    cases a.error? with
    | none => rfl
    | some e => rfl

end Report

/-! ## Behaviours -/

namespace Workload

variable {w : Workload} {nodes : List String} {r : Report} {t : List Exchange}

/-- A stale member is attempted, and the rest of the list follows unless that was cancelled. -/
theorem pruneListed_stale_yields_iff {m : Member} (hstale : isStale nodes m = true)
    {rest : List Member} {v : Progress} :
    (pruneListed w nodes (m :: rest) r).Yields t v ↔
      ∃ a : Tried w, a.name = m.name ∧ ∃ t', t = a.trace ++ t' ∧
        (a.isCancelled = true ∧ t' = [] ∧ v = .stop (r.add a) ∨
          a.isCancelled = false ∧ (pruneListed w nodes rest (r.add a)).Yields t' v) := by
  rw [pruneListed, if_pos hstale, yields_bind]
  constructor
  · rintro ⟨t₁, answer, t₂, rfl, hremove, h⟩
    refine ⟨⟨m.name, t₁, answer, removeMember_yields_iff.1 hremove⟩, rfl, t₂, rfl, ?_⟩
    cases answer with
    | ok u => exact Or.inr ⟨rfl, h⟩
    | error e =>
      have h := yields_report_bind.1 h
      cases he : e.isCancelled with
      | true =>
        simp only [he] at h
        obtain ⟨rfl, rfl⟩ := h
        exact Or.inl ⟨he, rfl, rfl⟩
      | false =>
        simp only [he] at h
        exact Or.inr ⟨he, h⟩
  · rintro ⟨⟨name, t₁, answer, made⟩, rfl, t₂, rfl, h⟩
    refine ⟨t₁, answer, t₂, rfl, removeMember_yields_iff.2 made, ?_⟩
    cases answer with
    | ok u =>
      obtain ⟨⟨⟩, -⟩ | ⟨-, h⟩ := h
      exact h
    | error e =>
      apply yields_report_bind.2
      obtain ⟨he, rfl, rfl⟩ | ⟨he, h⟩ := h
      · have he : e.isCancelled = true := he
        simp only [he]
        exact ⟨rfl, rfl⟩
      · have he : e.isCancelled = false := he
        simp only [he]
        exact h

/-- Members that are not stale are passed over. -/
theorem pruneListed_live {m : Member} (hlive : isStale nodes m = false) (rest : List Member) :
    pruneListed w nodes (m :: rest) r = pruneListed w nodes rest r := by
  rw [pruneListed, if_neg (by simp [hlive])]

/-- Going through a list attempts its stale members, and gives the account of the attempts. -/
theorem pruneListed_yields_iff {members : List Member} {v : Progress} :
    (pruneListed w nodes members r).Yields t v ↔
      ∃ tried ending, Attempted w ((members.filter fun m => Stale nodes m).map Member.name) tried
        ending ∧ t = tried.flatMap Tried.trace ∧ v = ending.progress (r.account tried) := by
  -- every attempt goes into the report, so this is shown for any report to start with
  induction members generalizing r t with
  | nil =>
    constructor
    · rintro ⟨rfl, rfl⟩
      exact ⟨[], .onward, .none, rfl, rfl⟩
    · rintro ⟨tried, ending, h, rfl, rfl⟩
      cases h with
      | none => exact ⟨rfl, rfl⟩
  | cons m rest ih =>
    by_cases hstale : Stale nodes m
    · have hstale' : isStale nodes m = true := by simp [isStale_eq_decide, hstale]
      rw [pruneListed_stale_yields_iff hstale', List.filter_cons_of_pos (by simp [hstale]),
        List.map_cons]
      constructor
      · rintro ⟨a, hname, t', rfl, ⟨hcancelled, rfl, rfl⟩ | ⟨hcalm, h⟩⟩
        · exact ⟨[a], .cutShort, .cancelled hname hcancelled, by simp, rfl⟩
        · obtain ⟨later, ending, hrest, rfl, rfl⟩ := ih.1 h
          exact ⟨a :: later, ending, .next hname hcalm hrest, rfl, rfl⟩
      · rintro ⟨tried, ending, h, rfl, rfl⟩
        cases h with
        | @cancelled _ _ a named cancelled =>
          exact ⟨a, named, [], by simp, Or.inl ⟨cancelled, rfl, rfl⟩⟩
        | @next _ _ a named calm later _ hrest =>
          exact ⟨a, named, _, rfl, Or.inr ⟨calm, ih.2 ⟨later, ending, hrest, rfl, rfl⟩⟩⟩
    · have hlive : isStale nodes m = false := by simp [isStale_eq_decide, hstale]
      rw [pruneListed_live hlive, List.filter_cons_of_neg (by simp [hstale])]
      exact ih

/-- A node's turn follows from what its dial and its listing are answered. -/
theorem turn_of_pruneVia {via : String} {v : Progress}
    (hvia : (pruneVia w nodes via r).Yields t v) :
    ∃ tried ending, Turn w nodes via t tried ending ∧ v = ending.progress (r.account tried) := by
  obtain ⟨t₁, found, t₂, rfl, hdial, hfound⟩ := yields_bind.1 hvia
  -- a node is dialed by a search among itself alone, which wraps the error of a failed dial
  rw [firstAvailable_single_yields_iff] at hdial
  rcases hdial with hdial | ⟨e, hmiss, rfl⟩
  · cases hdial with
    | connected client =>
      obtain ⟨listed, t₃, rfl, h⟩ := yields_request_bind.1 hfound
      cases listed with
      | error e =>
        cases he : e.isCancelled with
        | true =>
          simp only [he] at h
          obtain ⟨u, t₄, rfl, rfl, rfl⟩ := h
          exact ⟨[], _, .listCancelled client he, rfl⟩
        | false =>
          simp only [he] at h
          obtain ⟨u, t₄, rfl, rfl, rfl⟩ := yields_report_bind.1 h
          exact ⟨[], _, .unlisted client he, rfl⟩
      | ok members =>
        obtain ⟨u, t₄, rfl, h⟩ := h
        obtain ⟨tried, ending, hattempted, rfl, rfl⟩ := pruneListed_yields_iff.1 h
        exact ⟨tried, ending, .listed client hattempted, rfl⟩
    | @cancelled e he =>
      simp only [he] at hfound
      obtain ⟨rfl, rfl⟩ := hfound
      exact ⟨[], _, .dialCancelled he, rfl⟩
  · cases hmiss with
    | dial he =>
      simp only [unreachable_not_cancelled he] at hfound
      obtain ⟨rfl, rfl⟩ := yields_report_bind.1 hfound
      exact ⟨[], _, .undialed he, rfl⟩

/-- Every turn is a behaviour of asking one node. -/
theorem pruneVia_yields_of_turn {via : String} {tried : List (Tried w)} {ending : Ending}
    (h : Turn w nodes via t tried ending) :
    (pruneVia w nodes via r).Yields t (ending.progress (r.account tried)) := by
  have hdial := single_yields_connected via
  apply yields_bind.2
  cases h with
  | @undialed e he =>
    refine ⟨_, _, [], (List.append_nil _).symm, single_yields_missed via he, ?_⟩
    simp only [unreachable_not_cancelled he]
    exact yields_report_bind.2 ⟨rfl, rfl⟩
  | @dialCancelled e he =>
    refine ⟨_, _, [], (List.append_nil _).symm, single_yields_cancelled via he, ?_⟩
    simp only [he]
    exact ⟨rfl, rfl⟩
  | @unlisted client e he =>
    refine ⟨[_], _, _, rfl, hdial client, yields_request_bind.2 ⟨.error e, _, rfl, ?_⟩⟩
    simp only [he]
    exact yields_report_bind.2 ⟨(), [], rfl, rfl, rfl⟩
  | @listCancelled client e he =>
    refine ⟨[_], _, _, rfl, hdial client, yields_request_bind.2 ⟨.error e, _, rfl, ?_⟩⟩
    simp only [he]
    exact ⟨(), [], rfl, rfl, rfl⟩
  | @listed client members tried ending hattempted =>
    refine ⟨[_], _, _, rfl, hdial client, yields_request_bind.2 ⟨.ok members, _, rfl, ?_⟩⟩
    exact ⟨(), _, rfl, pruneListed_yields_iff.2 ⟨tried, ending, hattempted, rfl, rfl⟩⟩

/-- Asking one node behaves as its turn, with the report of the attempts made in it. -/
theorem pruneVia_yields_iff {via : String} {v : Progress} :
    (pruneVia w nodes via r).Yields t v ↔
      ∃ tried ending, Turn w nodes via t tried ending ∧ v = ending.progress (r.account tried) := by
  constructor
  · exact turn_of_pruneVia
  · rintro ⟨tried, ending, h, rfl⟩
    exact pruneVia_yields_of_turn h

/-- The report that an ending makes of the account of the attempts. -/
def Ending.close (ending : Ending) (r : Report) : Report :=
  { r with errors := r.errors ++ ending.errors }

theorem Ending.close_onward (r : Report) : Ending.onward.close r = r := by
  simp [close, errors]

theorem Ending.close_cutShort (r : Report) : Ending.cutShort.close r = r := by
  simp [close, errors]

/-- The next node has its turn after one that ended as done. -/
theorem Ending.progress_onward_iff {ending : Ending} {r r' : Report} :
    ending.progress r = .goOn r' ↔ ending = .onward ∧ r' = r := by
  cases ending with
  | onward => simp [progress, eq_comm]
  | cutShort => simp [progress]
  | unasked e => simp [progress]

/-- The round ends after a turn that was cut short or cancelled. -/
theorem Ending.progress_stop_iff {ending : Ending} {r r' : Report} :
    ending.progress r = .stop r' ↔ ending ≠ .onward ∧ r' = ending.close r := by
  cases ending with
  | onward => simp [progress]
  | cutShort => simp [progress, close_cutShort, eq_comm]
  | unasked e => simp [progress, close, errors, Report.fail, eq_comm]

/-- Asking several nodes behaves as a round of turns. -/
theorem pruneEach_yields_iff {vias : List String} {r' : Report} :
    (pruneEach w nodes vias r).Yields t r' ↔
      ∃ tried ending, Round w nodes vias t tried ending ∧ r' = ending.close (r.account tried) := by
  induction vias generalizing r t with
  | nil =>
    constructor
    · rintro ⟨rfl, rfl⟩
      exact ⟨[], .onward, .done, (Ending.close_onward _).symm⟩
    · rintro ⟨tried, ending, h, rfl⟩
      cases h with
      | done => exact ⟨rfl, Ending.close_onward _⟩
  | cons via rest ih =>
    rw [pruneEach, yields_bind]
    constructor
    · rintro ⟨t₁, progress, t₂, rfl, hvia, h⟩
      obtain ⟨tried, ending, hturn, hprogress⟩ := pruneVia_yields_iff.1 hvia
      cases progress with
      | stop r₁ =>
        obtain ⟨rfl, rfl⟩ := h
        obtain ⟨hearly, rfl⟩ := Ending.progress_stop_iff.1 hprogress.symm
        rw [List.append_nil]
        exact ⟨tried, ending, .stopped hturn hearly, rfl⟩
      | goOn r₁ =>
        obtain ⟨rfl, rfl⟩ := Ending.progress_onward_iff.1 hprogress.symm
        obtain ⟨later, ending, hround, rfl⟩ := ih.1 h
        rw [← Report.account_append]
        exact ⟨tried ++ later, ending, .next hturn hround, rfl⟩
    · rintro ⟨tried, ending, h, rfl⟩
      cases h with
      | stopped hturn hearly =>
        refine ⟨t, .stop _, [], (List.append_nil t).symm, ?_, rfl, rfl⟩
        refine pruneVia_yields_iff.2 ⟨tried, ending, hturn, ?_⟩
        exact (Ending.progress_stop_iff.2 ⟨hearly, rfl⟩).symm
      | @next _ _ t₁ t₂ tried later ending hturn hround =>
        refine ⟨t₁, .goOn _, t₂, rfl, pruneVia_yields_iff.2 ⟨tried, .onward, hturn, rfl⟩, ?_⟩
        refine ih.2 ⟨later, ending, hround, ?_⟩
        rw [Report.account_append]

/-- Telling about the removals at the end is no exchange. -/
theorem reconcile_yields_iff_pruneEach (haccess : w.hasAccess = true) {r : Report} :
    (w.reconcile nodes).Yields t r ↔ (pruneEach w nodes nodes {}).Yields t r := by
  have htold (r₁ : Report) (t₂ : List Exchange) :
      (if !r₁.removed.isEmpty then do
        report (reconciled r₁)
        return r₁
      else return r₁ : Program Report).Yields t₂ r ↔ t₂ = [] ∧ r = r₁ := by
    split
    · exact yields_report_bind
    · exact yields_pure
  rw [reconcile, if_pos haccess, yields_bind]
  constructor
  · rintro ⟨t₁, r₁, t₂, rfl, hround, h⟩
    obtain ⟨rfl, rfl⟩ := (htold r₁ t₂).1 h
    rwa [List.append_nil]
  · intro h
    exact ⟨t, r, [], (List.append_nil t).symm, h, (htold r []).2 ⟨rfl, rfl⟩⟩

/-- A reconciliation behaves as a round over its nodes, or as none without access to etcd. -/
theorem reconcile_yields_iff {r : Report} :
    (w.reconcile nodes).Yields t r ↔
      ∃ tried ending, Round w nodes (if w.hasAccess then nodes else []) t tried ending ∧
        r = ending.close (Report.account {} tried) := by
  cases haccess : w.hasAccess with
  | false =>
    have hidle : w.reconcile nodes = pruneEach w nodes [] {} := by
      simp only [reconcile, haccess]
      rfl
    rw [hidle]
    exact pruneEach_yields_iff
  | true => exact (reconcile_yields_iff_pruneEach haccess).trans pruneEach_yields_iff

/-- What the report says about the attempts that were made and how the reconciliation ended. Every
attempted name stands where it first occurs, whatever came of the attempt; there is one error for
each failed attempt, and one more if the dial or the listing of a node was cancelled. -/
structure Accounts (r : Report) (tried : List (Tried w)) (ending : Ending) : Prop where
  removed : r.removed = (tried.map Tried.name).eraseDups
  distinct : r.removed.Nodup
  noted : ∀ a ∈ tried, a.name ∈ r.removed
  errors : r.errors = tried.filterMap Tried.error? ++ ending.errors

/-- The properties of an account determine the report. -/
theorem accounts_iff {r : Report} {tried : List (Tried w)} {ending : Ending} :
    Accounts r tried ending ↔ r = ending.close (Report.account {} tried) := by
  have hnone : ({} : Report).removed = ([] : List String).eraseDups := rfl
  have hremoved := Report.account_removed hnone tried
  have herrors := Report.account_errors {} tried
  rw [List.nil_append] at hremoved herrors
  constructor
  · -- the names and the errors are all there is to a report
    intro h
    obtain ⟨removed, errors⟩ := r
    have hr : removed = _ := h.removed
    have he : errors = _ := h.errors
    rw [hr, he, Ending.close, hremoved, herrors]
  · rintro rfl
    refine ⟨hremoved, Report.account_nodup List.nodup_nil tried, fun a ha => ?_, ?_⟩
    · show a.name ∈ (Report.account {} tried).removed
      rw [hremoved]
      exact List.mem_eraseDups.2 (List.mem_map_of_mem ha)
    · rw [Ending.close, herrors]

end Workload

/-- Against any world, the exchanges of a reconciliation are a round over its nodes, whose attempts
and ending its report accounts for; and no other report accounts for them. -/
theorem report_accounts_for_attempts {σ : Type} (world : World σ) (s : Situation σ) (w : Workload)
    (nodes : List String) (r : Report) :
    (∃ tried ending, Round w nodes (if w.hasAccess then nodes else [])
        ((w.reconcile nodes).run world s).trace tried ending ∧ Accounts r tried ending) ↔
      ((w.reconcile nodes).run world s).value = r := by
  have hyields := yields_run world (w.reconcile nodes) s
  simp only [accounts_iff, ← reconcile_yields_iff]
  constructor
  · -- two behaviours with the same exchanges give the same report
    intro h
    exact hyields.unique h
  · rintro rfl
    exact hyields

end QuorumKeeper
