import QuorumKeeper.Duration
import QuorumKeeper.Proofs.Numerals
import Mathlib.Data.List.Induction
import Mathlib.Data.Nat.Digits.Defs

/-!
# Texts of durations

The grammar of the durations in a configuration, and the reader's agreement with it. `Spells` says
of a text that it is laid out as a duration: blanks, at most one plus sign, decimal digits, a
suffix, blanks. `Amounts` gives the seconds and nanoseconds that a number comes to with each suffix,
with the bound of its unit. The reader takes exactly these texts to exactly these durations
(`parse?_exactly_spelled`).

The number is the sum of its digits by place (`placeValue`), while the reader multiplies as it goes.
The reader takes the unit from the end of the text first, letter by letter; that it never takes a
letter too many or too few is `splitUnit_of_denotes`.
-/

set_option autoImplicit false

namespace QuorumKeeper

namespace Text

/-! ## Blanks at both ends -/

theorem isBlank_of_isDigit {c : Char} (h : c.isDigit = true) : isBlank c = false := by
  simp only [Char.isDigit, Bool.and_eq_true, decide_eq_true_eq] at h
  have hlow : 48 ≤ c.toNat := h.1
  have hhigh : c.toNat ≤ 57 := h.2
  unfold isBlank
  simp only [Bool.or_eq_false_iff, Bool.and_eq_false_imp, decide_eq_true_eq, decide_eq_false_iff_not,
    beq_eq_false_iff_ne]
  omega

/-- What is cut off at the two ends belongs to the class, and the rest neither starts nor ends with
a character of it. -/
theorem exists_trimBy (p : Char → Bool) (s : List Char) :
    ∃ front back, s = front ++ trimBy p s ++ back ∧ ∀ c ∈ front ++ back, p c = true := by
  have hfront : s = s.takeWhile p ++ s.dropWhile p := List.takeWhile_append_dropWhile.symm
  have hback : (s.dropWhile p).reverse =
      (s.dropWhile p).reverse.takeWhile p ++ (s.dropWhile p).reverse.dropWhile p :=
    List.takeWhile_append_dropWhile.symm
  refine ⟨s.takeWhile p, ((s.dropWhile p).reverse.takeWhile p).reverse, ?_, fun c hc => ?_⟩
  · rw [trimBy, List.append_assoc, ← List.reverse_append, ← hback, List.reverse_reverse, ← hfront]
  · rcases List.mem_append.1 hc with hc | hc
    · exact List.mem_takeWhile_imp hc
    · exact List.mem_takeWhile_imp (List.mem_reverse.1 hc)

/-- A text without characters of the class is what is left when the class is cut off around it. -/
theorem trimBy_layout {p : Char → Bool} {front core back : List Char}
    (hends : ∀ c ∈ front ++ back, p c = true) (hcore : ∀ c ∈ core, p c = false)
    (hne : core ≠ []) : trimBy p (front ++ core ++ back) = core := by
  rw [List.forall_mem_append] at hends
  obtain ⟨c, cs, rfl⟩ := List.exists_cons_of_ne_nil hne
  have hdropped : (front ++ (c :: cs) ++ back).dropWhile p = c :: cs ++ back := by
    rw [List.append_assoc]
    exact (span_run hends.1 (stops_cons.2 (hcore c List.mem_cons_self))).2
  have hlast : Stops p (c :: cs).reverse := fun d hd =>
    hcore d (List.mem_reverse.1 (List.mem_of_mem_head? hd))
  rw [trimBy, hdropped, List.reverse_append,
    (span_run (fun d hd => hends.2 d (List.mem_reverse.1 hd)) hlast).2, List.reverse_reverse]

/-! ## Values of digits -/

/-- The sum of decimal digits, each with the weight of its place. -/
def placeValue (digits : List Char) : Nat :=
  Nat.ofDigits 10 (digits.reverse.map digitValue)

/-- A further digit moves the others up one place. -/
theorem placeValue_concat (digits : List Char) (c : Char) :
    placeValue (digits ++ [c]) = 10 * placeValue digits + digitValue c := by
  rw [placeValue, List.reverse_append, List.reverse_singleton, List.singleton_append, List.map_cons,
    Nat.ofDigits_cons, Nat.add_comm]
  rfl

/-- Reading digits from the left gives their place value. -/
theorem valueOf_eq_placeValue (digits : List Char) : valueOf digits = placeValue digits := by
  induction digits using List.reverseRecOn with
  | nil => rfl
  | append_singleton digits c ih =>
    rw [placeValue_concat, ← ih]
    simp only [valueOf, List.foldl_append, List.foldl_cons, List.foldl_nil]

/-- Exactly the nonempty digit strings are numbers, at their place value. -/
theorem natural?_eq_some_iff {s : List Char} {n : Nat} :
    natural? s = some n ↔ s ≠ [] ∧ (∀ c ∈ s, c.isDigit = true) ∧ n = placeValue s := by
  unfold natural?
  split
  · rename_i hbad
    simp only [Bool.or_eq_true, List.isEmpty_iff, Bool.not_eq_true', List.all_eq_false] at hbad
    constructor
    · intro h
      cases h
    · rintro ⟨hne, hdigits, -⟩
      rcases hbad with hempty | ⟨c, hc, hnot⟩
      · exact absurd hempty hne
      · exact absurd (hdigits c hc) hnot
  · rename_i hgood
    simp only [Bool.or_eq_true, List.isEmpty_iff, Bool.not_eq_true', not_or, Bool.not_eq_false,
      List.all_eq_true] at hgood
    rw [Option.some.injEq, valueOf_eq_placeValue, eq_comm]
    exact ⟨fun h => ⟨hgood.1, hgood.2, h⟩, fun h => h.2.2⟩

end Text

namespace Duration

open Text

/-! ## The grammar -/

/-- What a number comes to with a suffix behind it. -/
inductive Amounts (n : Nat) (d : Duration) : String → Prop where
  | seconds {suffix : String} (unit : suffix = "" ∨ suffix = "s") (whole : d.seconds = n)
      (rest : d.nanos = 0) : Amounts n d suffix
  | millis (whole : d.seconds = n / 1000) (rest : d.nanos = n % 1000 * 10 ^ 6) : Amounts n d "ms"
  | minutes (fits : 60 * n ≤ 2 ^ 64 - 1) (whole : d.seconds = 60 * n) (rest : d.nanos = 0) :
      Amounts n d "m"

/-- The text is laid out as a duration and comes to this one. -/
inductive Spells (text : String) (d : Duration) : Prop where
  | layout {front sign digits back : List Char} {suffix : String}
      (parts : text.toList = front ++ (sign ++ digits ++ suffix.toList) ++ back)
      (blanks : ∀ c ∈ front ++ back, isBlank c = true) (signed : sign = [] ∨ sign = ['+'])
      (written : digits ≠ []) (decimal : ∀ c ∈ digits, c.isDigit = true)
      (fits : placeValue digits ≤ 2 ^ 64 - 1) (amount : Amounts (placeValue digits) d suffix) :
      Spells text d

/-! ## The reader -/

theorem eq_of_parts {d d' : Duration} (hseconds : d.seconds = d'.seconds)
    (hnanos : d.nanos = d'.nanos) : d = d' := by
  cases d
  cases d'
  cases hseconds
  cases hnanos
  rfl

theorem maxCount_eq : maxCount = 2 ^ 64 - 1 := by
  rw [maxCount, Nat.pow_eq]

/-- Stripping takes off exactly the last character. -/
theorem stripLast?_eq_some_iff {c : Char} {cs rest : List Char} :
    stripLast? c cs = some rest ↔ cs = rest ++ [c] := by
  unfold stripLast?
  split
  · rename_i hlast
    obtain ⟨front, rfl⟩ := List.getLast?_eq_some_iff.1 hlast
    simp
  · rename_i hlast
    refine iff_of_false nofun ?_
    rintro rfl
    exact hlast (by simp)

theorem stripLast?_concat (c : Char) (rest : List Char) : stripLast? c (rest ++ [c]) = some rest :=
  stripLast?_eq_some_iff.2 rfl

/-- Only the last character of a text is stripped. -/
theorem stripLast?_of_ne {c d : Char} (h : d ≠ c) (rest : List Char) :
    stripLast? c (rest ++ [d]) = none := by
  rw [stripLast?, if_neg (by simp [h])]

/-- The unit that a suffix stands for. -/
inductive Denotes : String → Unit → Prop where
  | second {suffix : String} (spelled : suffix = "" ∨ suffix = "s") : Denotes suffix .second
  | milli : Denotes "ms" .milli
  | minute : Denotes "m" .minute

/-- What comes before the unit at the end of a text is the text without the suffix of that unit. -/
theorem denotes_of_splitUnit {cs number : List Char} {unit : Unit}
    (h : splitUnit cs = (unit, number)) :
    ∃ suffix : String, cs = number ++ suffix.toList ∧ Denotes suffix unit := by
  unfold splitUnit at h
  split at h
  · rename_i rest hs
    obtain rfl := stripLast?_eq_some_iff.1 hs
    split at h
    · rename_i rest' hm
      obtain rfl := stripLast?_eq_some_iff.1 hm
      cases h
      exact ⟨"ms", by simp, .milli⟩
    · cases h
      exact ⟨"s", rfl, .second (Or.inr rfl)⟩
  · split at h
    · rename_i rest hm
      obtain rfl := stripLast?_eq_some_iff.1 hm
      cases h
      exact ⟨"m", rfl, .minute⟩
    · cases h
      exact ⟨"", by simp, .second (Or.inl rfl)⟩

/-- Behind a digit, each suffix is taken for what it denotes: the `s` of `ms` does not leave an `m`
to the number, and neither letter is taken from a number without a unit. -/
theorem splitUnit_of_denotes {front : List Char} {digit : Char} {suffix : String} {unit : Unit}
    (hdigit : digit.isDigit = true) (h : Denotes suffix unit) :
    splitUnit (front ++ [digit] ++ suffix.toList) = (unit, front ++ [digit]) := by
  have hs : stripLast? 's' (front ++ [digit]) = none := stripLast?_of_ne (ne_of_class hdigit rfl) _
  have hm : stripLast? 'm' (front ++ [digit]) = none := stripLast?_of_ne (ne_of_class hdigit rfl) _
  unfold splitUnit
  cases h with
  | second spelled =>
    rcases spelled with rfl | rfl
    · simp only [String.toList_empty, List.append_nil, hs, hm]
    · rw [show "s".toList = ['s'] from rfl, stripLast?_concat]
      simp only [hm]
  | milli =>
    rw [show front ++ [digit] ++ "ms".toList = front ++ [digit] ++ ['m'] ++ ['s'] by simp,
      stripLast?_concat]
    simp only [stripLast?_concat]
  | minute =>
    rw [show "m".toList = ['m'] from rfl, stripLast?_of_ne (by decide) (front ++ [digit]),
      stripLast?_concat]

/-- What a number comes to with a suffix is what its unit makes of it. -/
theorem amounts_iff {n : Nat} {d : Duration} {suffix : String} :
    Amounts n d suffix ↔ ∃ unit, Denotes suffix unit ∧ unit.times? n = some d := by
  constructor
  · intro h
    cases h with
    | seconds unit whole rest =>
      exact ⟨.second, .second unit, congrArg some (eq_of_parts whole.symm rest.symm)⟩
    | millis whole rest =>
      exact ⟨.milli, .milli, congrArg some (eq_of_parts whole.symm rest.symm)⟩
    | minutes fits whole rest =>
      refine ⟨.minute, .minute, ?_⟩
      rw [Unit.times?, if_pos (maxCount_eq ▸ fits)]
      exact congrArg some (eq_of_parts whole.symm rest.symm)
  · rintro ⟨unit, hdenotes, htimes⟩
    cases hdenotes with
    | second spelled =>
      cases htimes
      exact .seconds spelled rfl rfl
    | milli =>
      cases htimes
      exact .millis rfl rfl
    | minute =>
      rw [Unit.times?] at htimes
      obtain ⟨hfits, hsame⟩ := Option.ite_none_right_eq_some.1 htimes
      cases hsame
      exact .minutes (maxCount_eq ▸ hfits) rfl rfl

/-- One leading plus sign makes no difference. -/
theorem boundedNatural?_plus (bound : Nat) (s : List Char) :
    boundedNatural? bound ('+' :: s) = (natural? s).filter (· ≤ bound) := by
  rw [boundedNatural?]
  cases natural? s with
  | none => rfl
  | some n => simp [Option.filter]

theorem boundedNatural?_of_ne {s : List Char} (bound : Nat) (h : s.head? ≠ some '+') :
    boundedNatural? bound s = (natural? s).filter (· ≤ bound) := by
  unfold boundedNatural?
  split
  · exact absurd rfl h
  · dsimp only
    cases natural? s with
    | none => rfl
    | some n => simp [Option.filter]

/-- A number at most the bound is written with digits, behind one plus sign at most. -/
theorem boundedNatural?_eq_some_iff {bound n : Nat} {s : List Char} :
    boundedNatural? bound s = some n ↔ ∃ sign digits, s = sign ++ digits ∧
      (sign = [] ∨ sign = ['+']) ∧ natural? digits = some n ∧ n ≤ bound := by
  constructor
  · intro h
    by_cases hplus : s.head? = some '+'
    · obtain ⟨digits, rfl⟩ := List.head?_eq_some_iff.1 hplus
      rw [boundedNatural?_plus, Option.filter_eq_some_iff, decide_eq_true_eq] at h
      exact ⟨['+'], digits, rfl, Or.inr rfl, h⟩
    · rw [boundedNatural?_of_ne bound hplus, Option.filter_eq_some_iff, decide_eq_true_eq] at h
      exact ⟨[], s, rfl, Or.inl rfl, h⟩
  · rintro ⟨sign, digits, rfl, rfl | rfl, hread, hfits⟩
    · -- digits start with no sign
      obtain ⟨hne, hdecimal, -⟩ := natural?_eq_some_iff.1 hread
      obtain ⟨c, cs, rfl⟩ := List.exists_cons_of_ne_nil hne
      have hfirst : (c :: cs).head? ≠ some '+' := by
        simpa using ne_of_class (hdecimal c List.mem_cons_self) rfl
      rw [List.nil_append, boundedNatural?_of_ne bound hfirst, hread]
      simp [hfits]
    · rw [List.singleton_append, boundedNatural?_plus, hread]
      simp [hfits]

/-- A text is read as a duration exactly if a unit at its end and a number before that give it. -/
theorem parse?_eq_some_iff {text : String} {d : Duration} :
    parse? text = some d ↔ ∃ unit number n, splitUnit (trim text.toList) = (unit, number) ∧
      boundedNatural? maxCount number = some n ∧ unit.times? n = some d := by
  unfold parse?
  cases splitUnit (trim text.toList) with
  | mk unit number =>
    simp only [Option.bind_eq_some_iff, Prod.mk.injEq]
    constructor
    · rintro ⟨n, hnumber, htimes⟩
      exact ⟨unit, number, n, ⟨rfl, rfl⟩, hnumber, htimes⟩
    · rintro ⟨_, _, n, ⟨rfl, rfl⟩, hnumber, htimes⟩
      exact ⟨n, hnumber, htimes⟩

/-- No character of a suffix is a blank. -/
theorem Denotes.solid {suffix : String} {unit : Unit} (h : Denotes suffix unit) :
    ∀ c ∈ suffix.toList, isBlank c = false := by
  cases h with
  | second spelled => rcases spelled with rfl | rfl <;> simp [isBlank]
  | milli => simp [isBlank]
  | minute => simp [isBlank]

/-- What parses is spelled as the format says. -/
theorem spells_of_parse? {text : String} {d : Duration} (h : parse? text = some d) :
    Spells text d := by
  obtain ⟨unit, number, n, hsplit, hnumber, htimes⟩ := parse?_eq_some_iff.1 h
  obtain ⟨suffix, hcore, hdenotes⟩ := denotes_of_splitUnit hsplit
  obtain ⟨sign, digits, rfl, hsigned, hread, hfits⟩ := boundedNatural?_eq_some_iff.1 hnumber
  obtain ⟨hwritten, hdecimal, rfl⟩ := natural?_eq_some_iff.1 hread
  obtain ⟨front, back, htext, hblanks⟩ := exists_trimBy isBlank text.toList
  refine .layout ?_ hblanks hsigned hwritten hdecimal (maxCount_eq ▸ hfits)
    (amounts_iff.2 ⟨unit, hdenotes, htimes⟩)
  rw [← hcore]
  exact htext

/-- What is spelled as the format says parses to its duration. -/
theorem Spells.parse?_eq {text : String} {d : Duration} (h : Spells text d) :
    parse? text = some d := by
  obtain ⟨parts, blanks, signed, written, decimal, fits, amount⟩ := h
  rename_i front sign digits back suffix
  obtain ⟨unit, hdenotes, htimes⟩ := amounts_iff.1 amount
  have hcore : ∀ c ∈ sign ++ digits ++ suffix.toList, isBlank c = false := by
    simp only [List.forall_mem_append]
    refine ⟨⟨?_, fun c hc => isBlank_of_isDigit (decimal c hc)⟩, hdenotes.solid⟩
    rcases signed with rfl | rfl <;> simp [isBlank]
  have htrim : trim text.toList = sign ++ digits ++ suffix.toList := by
    rw [trim, parts]
    exact trimBy_layout blanks hcore (by simp [written])
  -- the number ends in a digit, so the letters behind it are the unit
  have hsplit : splitUnit (trim text.toList) = (unit, sign ++ digits) := by
    obtain ⟨more, last, rfl⟩ := (List.eq_nil_or_concat digits).resolve_left written
    rw [List.concat_eq_append] at decimal htrim ⊢
    rw [htrim, ← List.append_assoc]
    exact splitUnit_of_denotes (decimal last (by simp)) hdenotes
  exact parse?_eq_some_iff.2 ⟨unit, sign ++ digits, placeValue digits, hsplit,
    boundedNatural?_eq_some_iff.2 ⟨sign, digits, rfl, signed,
      natural?_eq_some_iff.2 ⟨written, decimal, rfl⟩, maxCount_eq ▸ fits⟩, htimes⟩

/-- A text is read as a duration exactly if it is laid out as that duration, and it is refused
exactly if it is laid out as none. -/
theorem parse?_exactly_spelled (text : String) :
    (∀ d, parse? text = some d ↔ Spells text d) ∧
      (parse? text = none ↔ ∀ d, ¬ Spells text d) := by
  have hiff : ∀ d, parse? text = some d ↔ Spells text d :=
    fun d => ⟨spells_of_parse?, Spells.parse?_eq⟩
  refine ⟨hiff, ?_⟩
  rw [Option.eq_none_iff_forall_ne_some]
  exact forall_congr' fun d => not_congr (hiff d)

end Duration

end QuorumKeeper
