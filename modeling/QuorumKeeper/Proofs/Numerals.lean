import QuorumKeeper.Text.Numeral
import Mathlib.Algebra.Ring.Int.Defs
import Mathlib.Algebra.Ring.Nat
import Mathlib.Data.List.TakeWhile

/-!
# Reading back written numbers

The digits that a number is written with, in decimal and in base sixteen, have that number as their
value. Readers take digits as long as there are any, so all they need to know about what follows is
that it does not start with one more (`Stops`).
-/

set_option autoImplicit false

namespace QuorumKeeper.Text

/-- The text does not start with a character of the class. -/
def Stops (p : Char → Bool) (s : List Char) : Prop :=
  ∀ c ∈ s.head?, p c = false

theorem stops_nil (p : Char → Bool) : Stops p [] := by
  intro c hc
  cases hc

theorem stops_cons {p : Char → Bool} {c : Char} {s : List Char} :
    Stops p (c :: s) ↔ p c = false := by
  simp [Stops]

/-- A class that holds of one character and not of another tells them apart. -/
theorem ne_of_class {p : Char → Bool} {c d : Char} (hc : p c = true) (hd : p d = false) :
    c ≠ d := by
  rintro rfl
  rw [hc] at hd
  cases hd

/-- A run of characters of the class, up to where it stops. -/
theorem span_run {p : Char → Bool} {run more : List Char} (hrun : ∀ c ∈ run, p c = true)
    (hmore : Stops p more) :
    (run ++ more).takeWhile p = run ∧ (run ++ more).dropWhile p = more := by
  rw [List.takeWhile_append_of_pos hrun, List.dropWhile_append_of_pos hrun]
  cases more with
  | nil => simp
  | cons c more =>
    have hc : p c = false := stops_cons.1 hmore
    simp [hc]

/-! ## Decimal digits -/

/-- Decimals are made of digits. -/
theorem isDigit_of_mem_decimal {n : Nat} {c : Char} (h : c ∈ Nat.toDigits 10 n) :
    c.isDigit = true :=
  Nat.isDigit_of_mem_toDigits (by decide) (by decide) h

/-- A number's decimal digits have its value. -/
theorem valueOf_decimal (n : Nat) : valueOf (Nat.toDigits 10 n) = n := by
  have hvalue : valueOf (Nat.toDigits 10 n) = Nat.ofDigitChars 10 (Nat.toDigits 10 n) 0 :=
    Nat.ofDigitChars_eq_foldl.symm
  rw [hvalue, Nat.ofDigitChars_toDigits (by decide) (by decide)]

/-- Only zero is written with a zero in front. -/
theorem eq_zero_of_decimal {n : Nat} {rest : List Char} (h : Nat.toDigits 10 n = '0' :: rest) :
    n = 0 := by
  induction n using Nat.strong_induction_on generalizing rest with
  | _ n ih =>
    by_cases hsmall : n < 10
    · rw [Nat.toDigits_of_lt_base hsmall] at h
      exact Nat.digitChar_eq_zero.1 (List.cons.inj h).1
    · rw [Nat.toDigits_of_base_le (by decide) (by omega)] at h
      obtain ⟨d, ds, hds⟩ := List.exists_cons_of_ne_nil (Nat.toDigits_ne_nil (n := n / 10) (b := 10))
      rw [hds, List.cons_append] at h
      have hzero : n / 10 = 0 := ih (n / 10) (by omega) (hds.trans (by rw [(List.cons.inj h).1]))
      omega

theorem decimal_zero : Nat.toDigits 10 0 = ['0'] :=
  rfl

/-- The first digit of a number, and the digits behind it. -/
theorem exists_decimal (n : Nat) : ∃ d ds, Nat.toDigits 10 n = d :: ds ∧ d.isDigit = true := by
  obtain ⟨d, ds, h⟩ := List.exists_cons_of_ne_nil (Nat.toDigits_ne_nil (n := n) (b := 10))
  exact ⟨d, ds, h, isDigit_of_mem_decimal (h ▸ List.mem_cons_self)⟩

/-! ## Digits in base sixteen -/

theorem hexDigit?_digitChar : ∀ d < 16, hexDigit? (Nat.digitChar d) = some d := by
  decide

theorem hexDigit?_of_isDigit {c : Char} (h : c.isDigit = true) : (hexDigit? c).isSome = true := by
  rw [hexDigit?, if_pos h]
  rfl

theorem isSome_hexDigit?_of_mem {n : Nat} {c : Char} (h : c ∈ Nat.toDigits 16 n) :
    (hexDigit? c).isSome = true := by
  induction n using Nat.strong_induction_on with
  | _ n ih =>
    by_cases hsmall : n < 16
    · rw [Nat.toDigits_of_lt_base hsmall, List.mem_singleton] at h
      rw [h, hexDigit?_digitChar n hsmall]
      rfl
    · rw [Nat.toDigits_of_base_le (by decide) (by omega), List.mem_append,
        List.mem_singleton] at h
      rcases h with h | rfl
      · exact ih (n / 16) (by omega) h
      · rw [hexDigit?_digitChar (n % 16) (Nat.mod_lt n (by decide))]
        rfl

/-- The value of digits in base sixteen, read from the first to the last. -/
theorem foldl_hex (n : Nat) :
    (Nat.toDigits 16 n).foldl (fun n c => 16 * n + (hexDigit? c).getD 0) 0 = n := by
  induction n using Nat.strong_induction_on with
  | _ n ih =>
    by_cases hsmall : n < 16
    · rw [Nat.toDigits_of_lt_base hsmall]
      simp [hexDigit?_digitChar n hsmall]
    · rw [Nat.toDigits_of_base_le (by decide) (by omega), List.foldl_append, ih (n / 16) (by omega)]
      simp only [List.foldl_cons, List.foldl_nil,
        hexDigit?_digitChar (n % 16) (Nat.mod_lt n (by decide)), Option.getD_some]
      omega

end QuorumKeeper.Text
