import QuorumKeeper.Program
import Mathlib.Order.Defs.Unbundled

/-!
# Laws of runs

The run of one program after another is the one run followed by the other (`run_bind`), and the
connections of a run are told apart by their serial numbers (`opened_nodup`). Further views of a
program are defined here.

`Ensures` is a statement about a program alone: whatever the answers are, the exchanges and the
value have a given property. It splits along `bind` (`ensures_bind`), and it says something about
the run against any world (`Ensures.run`). `Yields` says of one trace and one value that some
answers lead there, and a world that gives these answers runs the program in this way
(`Yields.run_eq`). `Trace.Always` speaks about every exchange of a trace together with those before
it.

`visited` lists the situations that a run passes through. A preorder that every single answer of a
world respects lies between the start of a run, any visited situation and the end
(`World.Respects.between`).
-/

set_option autoImplicit false

namespace QuorumKeeper

variable {σ α β : Type}

namespace Program

@[simp] theorem run_pure (w : World σ) (a : α) (s : Situation σ) :
    (pure a : Program α).run w s = ⟨a, s, [], []⟩ := rfl

@[simp] theorem run_report (w : World σ) (e : Event) (s : Situation σ) :
    (report e).run w s = ⟨(), s, [], [e]⟩ := rfl

@[simp] theorem run_request (w : World σ) (q : Request) (s : Situation σ) :
    (request q).run w s =
      ⟨(w.answer s q).1, (w.answer s q).2, [⟨q, (w.answer s q).1⟩], []⟩ := rfl

/-- A sequence runs one part after the other and joins what they leave behind. -/
theorem run_bind (w : World σ) (p : Program α) (f : α → Program β) (s : Situation σ) :
    (p >>= f).run w s =
      ⟨((f (p.run w s).value).run w (p.run w s).after).value,
        ((f (p.run w s).value).run w (p.run w s).after).after,
        (p.run w s).trace ++ ((f (p.run w s).value).run w (p.run w s).after).trace,
        (p.run w s).log ++ ((f (p.run w s).value).run w (p.run w s).after).log⟩ := by
  show (p.bind f).run w s = _
  induction p generalizing s with
  | done a => rfl
  | note e next ih => simp [Program.bind, run, ih]
  | ask q next ih => simp [Program.bind, run, ih]

/-! ## Properties of all traces -/

/-- Whatever the answers are, the exchanges and the value have the property. -/
def Ensures : Program α → (List Exchange → α → Prop) → Prop
  | done a, P => P [] a
  | note _ next, P => next.Ensures P
  | ask q next, P => ∀ a, (next a).Ensures fun t v => P (⟨q, a⟩ :: t) v

/-- What a program ensures, it ensures in any weaker form. -/
theorem Ensures.mono {p : Program α} {P Q : List Exchange → α → Prop} (h : p.Ensures P)
    (himp : ∀ t v, P t v → Q t v) : p.Ensures Q := by
  induction p generalizing P Q with
  | done a => exact himp [] a h
  | note e next ih => exact ih h himp
  | ask q next ih => exact fun a => ih a (h a) fun t v => himp (⟨q, a⟩ :: t) v

/-- The traces of a sequence are the traces of the two parts, joined. -/
theorem ensures_bind (p : Program α) (f : α → Program β) (P : List Exchange → β → Prop) :
    (p >>= f).Ensures P ↔ p.Ensures fun t a => (f a).Ensures fun t' b => P (t ++ t') b := by
  show (p.bind f).Ensures P ↔ _
  induction p generalizing P with
  | done a => rfl
  | note e next ih => exact ih P
  | ask q next ih =>
    constructor
    · intro h a
      exact (ih a _).1 (h a)
    · intro h a
      exact (ih a _).2 (h a)

/-- What holds of all traces holds of the trace of a run against any world. -/
theorem Ensures.run {p : Program α} {P : List Exchange → α → Prop} (h : p.Ensures P) (w : World σ)
    (s : Situation σ) : P (p.run w s).trace (p.run w s).value := by
  induction p generalizing P s with
  | done a => exact h
  | note e next ih => exact ih h s
  | ask q next ih => exact ih _ (h _) _

/-! ## Single behaviours -/

/-- With suitable answers the program makes these exchanges and gives this value. -/
def Yields : Program α → List Exchange → α → Prop
  | done a, t, v => t = [] ∧ v = a
  | note _ next, t, v => next.Yields t v
  | ask q next, t, v => ∃ a t', t = ⟨q, a⟩ :: t' ∧ (next a).Yields t' v

/-- What a run shows, the program yields. -/
theorem yields_run (w : World σ) (p : Program α) (s : Situation σ) :
    p.Yields (p.run w s).trace (p.run w s).value := by
  induction p generalizing s with
  | done a => exact ⟨rfl, rfl⟩
  | note e next ih => exact ih s
  | ask q next ih => exact ⟨_, _, rfl, ih _ _⟩

/-- The exchanges decide the value. -/
theorem Yields.unique {p : Program α} {t : List Exchange} {v v' : α} (h : p.Yields t v)
    (h' : p.Yields t v') : v = v' := by
  induction p generalizing t with
  | done a => exact h.2.trans h'.2.symm
  | note e next ih => exact ih h h'
  | ask q next ih =>
    obtain ⟨a, t₁, rfl, h⟩ := h
    obtain ⟨a', t₂, heq, h'⟩ := h'
    cases heq
    exact ih a h h'

/-- After the same exchanges a program makes the same request, whatever it is answered. -/
theorem Yields.same_request {p : Program α} {before after later : List Exchange} {x : Exchange}
    {v v' : α} (h : p.Yields (before ++ x :: after) v) (h' : p.Yields (before ++ later) v') :
    ∃ answer rest, later = ⟨x.request, answer⟩ :: rest := by
  induction p generalizing before with
  | done a => simpa using h.1
  | note e next ih => exact ih h h'
  | ask q next ih =>
    obtain ⟨a, t, heq, h⟩ := h
    obtain ⟨a', t', heq', h'⟩ := h'
    cases before with
    | nil =>
      obtain ⟨rfl, rfl⟩ := List.cons.inj heq
      exact ⟨a', t', heq'⟩
    | cons y before =>
      obtain ⟨rfl, rfl⟩ := List.cons.inj heq
      obtain ⟨hsame, rfl⟩ := List.cons.inj heq'
      cases hsame
      exact ih a h h'

/-- A program ensures what holds of everything it yields. -/
theorem ensures_iff_yields {p : Program α} {P : List Exchange → α → Prop} :
    p.Ensures P ↔ ∀ t v, p.Yields t v → P t v := by
  induction p generalizing P with
  | done a =>
    constructor
    · rintro h t v ⟨rfl, rfl⟩
      exact h
    · intro h
      exact h [] a ⟨rfl, rfl⟩
  | note e next ih => exact ih
  | ask q next ih =>
    constructor
    · rintro h t v ⟨a, t', rfl, hnext⟩
      exact (ih a).1 (h a) t' v hnext
    · intro h a
      refine (ih a).2 fun t v hnext => ?_
      exact h (⟨q, a⟩ :: t) v ⟨a, t, rfl, hnext⟩

theorem yields_pure {a v : α} {t : List Exchange} :
    (pure a : Program α).Yields t v ↔ t = [] ∧ v = a :=
  Iff.rfl

/-- A behaviour of a sequence is a behaviour of the first part and one of the second. -/
theorem yields_bind {p : Program α} {f : α → Program β} {t : List Exchange} {v : β} :
    (p >>= f).Yields t v ↔ ∃ t₁ a t₂, t = t₁ ++ t₂ ∧ p.Yields t₁ a ∧ (f a).Yields t₂ v := by
  show (p.bind f).Yields t v ↔ _
  induction p generalizing t with
  | done a =>
    constructor
    · intro h
      exact ⟨[], a, t, rfl, ⟨rfl, rfl⟩, h⟩
    · rintro ⟨t₁, a', t₂, rfl, ⟨rfl, rfl⟩, h⟩
      exact h
  | note e next ih => exact ih
  | ask q next ih =>
    constructor
    · rintro ⟨a, t', rfl, h⟩
      obtain ⟨t₁, b, t₂, rfl, h₁, h₂⟩ := (ih a).1 h
      exact ⟨⟨q, a⟩ :: t₁, b, t₂, rfl, ⟨a, t₁, rfl, h₁⟩, h₂⟩
    · rintro ⟨t₁, b, t₂, rfl, ⟨a, t', rfl, h₁⟩, h₂⟩
      exact ⟨a, t' ++ t₂, rfl, (ih a).2 ⟨t', b, t₂, rfl, h₁, h₂⟩⟩

/-- A request goes first, whatever its answer, and the continuation follows. -/
theorem yields_request_bind {q : Request} {f : q.Answer → Program β} {t : List Exchange} {v : β} :
    (request q >>= f).Yields t v ↔ ∃ a t', t = ⟨q, a⟩ :: t' ∧ (f a).Yields t' v :=
  Iff.rfl

theorem yields_report_bind {e : Event} {f : Unit → Program β} {t : List Exchange} {v : β} :
    (report e >>= f).Yields t v ↔ (f ()).Yields t v :=
  Iff.rfl

end Program

/-! ## Runs with the same answers -/

/-- What a world exchanges when it is asked these requests one after the other. -/
def World.exchanges (w : World σ) : Situation σ → List Request → List Exchange
  | _, [] => []
  | s, q :: rest => ⟨q, (w.answer s q).1⟩ :: w.exchanges (w.answer s q).2 rest

/-- A world that answers the requests of a behaviour as they were answered there runs the program in
this way. -/
theorem Program.Yields.run_eq {p : Program α} {t : List Exchange} {v : α} (h : p.Yields t v)
    (w : World σ) {s : Situation σ} (hsame : w.exchanges s (t.map Exchange.request) = t) :
    (p.run w s).trace = t ∧ (p.run w s).value = v := by
  induction p generalizing s t with
  | done a =>
    obtain ⟨rfl, rfl⟩ := h
    exact ⟨rfl, rfl⟩
  | note e next ih => exact ih h hsame
  | ask q next ih =>
    obtain ⟨a, t', rfl, h⟩ := h
    rw [List.map_cons, World.exchanges] at hsame
    obtain ⟨hfirst, hrest⟩ := List.cons.inj hsame
    -- the first answer is the same, so the program goes on in the same way
    obtain rfl : (w.answer s q).1 = a := by simpa using hfirst
    obtain ⟨htrace, hvalue⟩ := ih _ h hrest
    exact ⟨congrArg _ htrace, hvalue⟩

/-! ## Exchanges and what came before them -/

namespace Trace

/-- Every exchange of the trace stands in the relation to the exchanges before it. -/
def Always (P : List Exchange → Exchange → Prop) (t : List Exchange) : Prop :=
  ∀ before x after, t = before ++ x :: after → P before x

variable {P : List Exchange → Exchange → Prop} {t t' : List Exchange}

theorem always_nil : Always P [] := by
  intro before x after h
  simp at h

/-- A step is judged on its own, the later ones with it behind them. -/
theorem always_cons {x : Exchange} :
    Always P (x :: t) ↔ P [] x ∧ Always (fun before y => P (x :: before) y) t := by
  constructor
  · intro h
    exact ⟨h [] x t rfl, fun before y after heq => h (x :: before) y after (by simp [heq])⟩
  · rintro ⟨hx, ht⟩ before y after heq
    cases before with
    | nil =>
      obtain ⟨rfl, rfl⟩ := List.cons.inj heq
      exact hx
    | cons z before =>
      obtain ⟨rfl, rfl⟩ := List.cons.inj heq
      exact ht before y after rfl

/-- A second part is judged with the first behind it. -/
theorem always_append :
    Always P (t ++ t') ↔ Always P t ∧ Always (fun before x => P (t ++ before) x) t' := by
  induction t generalizing P with
  | nil => exact ⟨fun h => ⟨always_nil, h⟩, fun h => h.2⟩
  | cons x rest ih => simp only [List.cons_append, always_cons, ih, and_assoc]

end Trace

/-! ## The connections of a run -/

/-- The connection that the exchange opens, if it opens one. -/
def Exchange.opened? : Exchange → Option Client
  | ⟨.create _, .ok client⟩ => some client
  | _ => none

/-- The connections that a trace opens, in order. -/
def Trace.opened (t : List Exchange) : List Client :=
  t.filterMap Exchange.opened?

namespace Program

/-- A connection gets the next serial number, and no serial number is used again. -/
theorem answer_serial (w : World σ) (s : Situation σ) (q : Request) :
    (Exchange.opened? ⟨q, (w.answer s q).1⟩ = none ∧
        s.serial ≤ (w.answer s q).2.serial) ∨
      ∃ client, Exchange.opened? ⟨q, (w.answer s q).1⟩ = some client ∧
        client.serial = s.serial ∧ (w.answer s q).2.serial = s.serial + 1 := by
  cases q with
  | create endpoint =>
    cases hc : w.create endpoint s.state with
    | mk answer state =>
      cases answer with
      | error e =>
        simp only [World.answer, hc]
        exact Or.inl ⟨rfl, Nat.le_refl _⟩
      | ok leader =>
        simp only [World.answer, hc]
        exact Or.inr ⟨⟨s.serial, endpoint, leader⟩, rfl, rfl, trivial⟩
  | nodes => exact Or.inl ⟨rfl, Nat.le_refl _⟩
  | list client => exact Or.inl ⟨rfl, Nat.le_refl _⟩
  | remove client id => exact Or.inl ⟨rfl, Nat.le_refl _⟩
  | move client id => exact Or.inl ⟨rfl, Nat.le_refl _⟩
  | drop client => exact Or.inl ⟨rfl, Nat.le_refl _⟩

/-- Connections get serial numbers in the order in which they are opened. -/
theorem opened_increasing (w : World σ) (p : Program α) (s : Situation σ) :
    (∀ client ∈ Trace.opened (p.run w s).trace, s.serial ≤ client.serial) ∧
      (Trace.opened (p.run w s).trace).Pairwise fun a b => a.serial < b.serial := by
  induction p generalizing s with
  | done a => exact ⟨by simp [Trace.opened, run], List.Pairwise.nil⟩
  | note e next ih => exact ih s
  | ask q next ih =>
    obtain ⟨hfrom, hincreasing⟩ := ih (w.answer s q).1 (w.answer s q).2
    rw [run, Trace.opened, List.filterMap_cons]
    rcases answer_serial w s q with ⟨hnone, hle⟩ | ⟨client, hsome, hserial, hnext⟩
    · rw [hnone]
      exact ⟨fun c hc => Nat.le_trans hle (hfrom c hc), hincreasing⟩
    · rw [hsome]
      -- the rest of the run starts from the next number, so its connections come later
      rw [hnext] at hfrom
      refine ⟨fun c hc => ?_, List.Pairwise.cons (fun c hc => ?_) hincreasing⟩
      · rcases List.mem_cons.1 hc with rfl | hc
        · exact Nat.le_of_eq hserial.symm
        · exact Nat.le_of_succ_le (hfrom c hc)
      · rw [hserial]
        exact hfrom c hc

/-- No two connections of a run are the same. -/
theorem opened_nodup (w : World σ) (p : Program α) (s : Situation σ) :
    (Trace.opened (p.run w s).trace).Nodup := by
  refine (opened_increasing w p s).2.imp fun {a b} hlt heq => ?_
  rw [heq] at hlt
  exact Nat.lt_irrefl _ hlt

/-! ## The situations of a run -/

/-- The situations that a run passes through: its start and the situation after every answer. -/
def visited (w : World σ) : Program α → Situation σ → List (Situation σ)
  | done _, s => [s]
  | note _ next, s => next.visited w s
  | ask q next, s => s :: (next (w.answer s q).1).visited w (w.answer s q).2

/-- A run visits the situation it ends in. -/
theorem after_mem_visited (w : World σ) (p : Program α) (s : Situation σ) :
    (p.run w s).after ∈ p.visited w s := by
  induction p generalizing s with
  | done a => exact List.mem_singleton_self s
  | note e next ih => exact ih s
  | ask q next ih => exact List.mem_cons_of_mem _ (ih _ _)

end Program

/-- Every answer of the world leads to a situation that the relation allows. -/
def World.Respects (w : World σ) (R : Situation σ → Situation σ → Prop) : Prop :=
  ∀ s q, R s (w.answer s q).2

namespace World.Respects

variable {w : World σ} {R : Situation σ → Situation σ → Prop}

/-- A preorder that single answers respect leads from the start of a run to its end. -/
theorem run [Std.Refl R] [IsTrans (Situation σ) R] (h : w.Respects R) (p : Program α)
    (s : Situation σ) : R s (p.run w s).after := by
  induction p generalizing s with
  | done a => exact refl_of R s
  | note e next ih => exact ih s
  | ask q next ih => exact trans_of R (h s q) (ih _ _)

/-- A visited situation lies between the start and the end of its run. -/
theorem between [Std.Refl R] [IsTrans (Situation σ) R] (h : w.Respects R) (p : Program α)
    {s x : Situation σ} (hx : x ∈ p.visited w s) : R s x ∧ R x (p.run w s).after := by
  induction p generalizing s with
  | done a =>
    obtain rfl := List.mem_singleton.1 hx
    exact ⟨refl_of R x, refl_of R x⟩
  | note e next ih => exact ih hx
  | ask q next ih =>
    rcases List.mem_cons.1 hx with rfl | hx
    · exact ⟨refl_of R x, h.run (Program.ask q next) x⟩
    · obtain ⟨hs, he⟩ := ih _ hx
      exact ⟨trans_of R (h s q) hs, he⟩

end World.Respects

end QuorumKeeper
