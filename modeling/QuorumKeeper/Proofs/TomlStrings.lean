import QuorumKeeper.Toml.Quoted
import QuorumKeeper.Proofs.Numerals

/-!
# Reading back written strings and keys

Whatever way the writer chooses, the reader gives the string back (`readString_writeString`), and
likewise for a part of a key (`readKeyPart_writeKeyPart`). A character that needs an escape is read
back from it; a run of quotes at the end of a string over several lines is told from the closing
quotes by its length, which is why no further quote may follow.
-/

set_option autoImplicit false

namespace QuorumKeeper.Toml

open Text (Stops ne_of_class stops_cons span_run)

/-! ## Characters -/

theorem isText_of_needsCode {c : Char} (h : needsCode c = false) (hline : c ≠ '\n') :
    isText c = true := by
  simp only [needsCode, isText, Bool.and_eq_false_iff, Bool.or_eq_true, Bool.or_eq_false_iff,
    decide_eq_true_eq, decide_eq_false_iff_not, Bool.and_eq_true, bne_iff_ne, ne_eq,
    bne_eq_false_iff_eq, Char.not_lt] at h ⊢
  rcases h with (htab | hend) | ⟨hlow, hdel⟩
  · exact .inl htab
  · exact absurd hend hline
  · exact .inr ⟨hlow, hdel⟩

theorem not_line_of_isText {c : Char} (h : isText c = true) : c ≠ '\n' ∧ c ≠ '\r' :=
  ⟨ne_of_class h rfl, ne_of_class h rfl⟩

/-- The characters that need a code are the control characters, which the numbers below 128 have. -/
theorem toNat_lt_of_needsCode {c : Char} (h : needsCode c = true) : c.toNat < 128 := by
  simp only [needsCode, Bool.and_eq_true, Bool.or_eq_true, decide_eq_true_eq] at h
  rcases h.2 with hlow | rfl
  · exact Nat.lt_of_lt_of_le (Char.lt_def.1 hlow) (by decide)
  · decide

theorem unicode?_hexUpper_ascii : ∀ n < 128,
    (Text.hexUpper 4 n).length = 4 ∧ unicode? (Text.hexUpper 4 n) = some (Char.ofNat n) := by
  decide +kernel

/-- A coded character is written with four digits, which stand for it. -/
theorem exists_hexUpper {c : Char} (h : needsCode c = true) :
    ∃ i j k l, Text.hexUpper 4 c.toNat = [i, j, k, l] ∧ unicode? [i, j, k, l] = some c := by
  obtain ⟨hlength, hcode⟩ := unicode?_hexUpper_ascii c.toNat (toNat_lt_of_needsCode h)
  rw [Char.ofNat_toNat] at hcode
  generalize Text.hexUpper 4 c.toNat = digits at hlength hcode
  match digits, hlength with
  | [i, j, k, l], _ => exact ⟨i, j, k, l, rfl, hcode⟩

theorem not_code_of_escaped? {e c : Char} (h : escaped? e = some c) : e ≠ 'u' ∧ e ≠ 'U' := by
  constructor <;> (rintro rfl; cases h)

/-- The ways a character is written between double quotes. -/
inductive Written (multi : Bool) (quotes : Nat) (c : Char) : List Char → Prop where
  | escape {e : Char} (h : escaped? e = some c) : Written multi quotes c ['\\', e]
  | code {i j k l : Char} (h : unicode? [i, j, k, l] = some c) :
      Written multi quotes c ['\\', 'u', i, j, k, l]
  | line (hmulti : multi = true) (hc : c = '\n') : Written multi quotes c ['\n']
  | quote (hmulti : multi = true) (hquotes : quotes < 2) (hc : c = '"') :
      Written multi quotes c ['"']
  | plain (htext : isText c = true) (hquote : c ≠ '"') (hslash : c ≠ '\\') :
      Written multi quotes c [c]

/-- A character is written in one of the ways that read back. -/
theorem written_writeBasicChar (multi : Bool) (quotes : Nat) (c : Char) :
    Written multi quotes c (writeBasicChar multi quotes c) := by
  rw [writeBasicChar]
  split
  · exact .escape (by simp_all [escaped?])
  split
  · exact .escape (by simp_all [escaped?])
  split
  · rename_i hc
    split
    · rename_i hmulti
      exact .line hmulti hc
    · exact .escape (by simp_all [escaped?])
  rename_i hline
  split
  · exact .escape (by simp_all [escaped?])
  split
  · exact .escape (by simp_all [escaped?])
  split
  · rename_i hc
    split
    · rename_i hraw
      obtain ⟨hmulti, hquotes⟩ := Bool.and_eq_true_iff.1 hraw
      exact .quote hmulti (of_decide_eq_true hquotes) hc
    · exact .escape (by simp_all [escaped?])
  rename_i hquote
  split
  · exact .escape (by simp_all [escaped?])
  rename_i hslash
  split
  · rename_i hcode
    obtain ⟨i, j, k, l, hdigits, hvalue⟩ := exists_hexUpper hcode
    rw [hdigits]
    exact .code hvalue
  · rename_i hcode
    exact .plain (isText_of_needsCode (Bool.eq_false_iff.2 hcode) hline) hquote hslash

/-! ## One line -/

/-- A written character reads back. -/
theorem readBasic_char {quotes : Nat} {c : Char} {cs : List Char}
    (h : Written false quotes c cs) (rest : List Char) :
    readBasic (cs ++ rest) = consRead c (readBasic rest) := by
  cases h with
  | @escape e he =>
    obtain ⟨hlower, hupper⟩ := not_code_of_escaped? he
    show readBasic ('\\' :: e :: rest) = _
    rw [readBasic, he]
    · rfl
    · simp [hlower]
    · simp [hupper]
  | code hcode =>
    show readBasic ('\\' :: 'u' :: _ :: _ :: _ :: _ :: rest) = _
    rw [readBasic, hcode]
    rfl
  | line hmulti => cases hmulti
  | quote hmulti => cases hmulti
  | plain htext hquote hslash =>
    show readBasic (c :: rest) = _
    rw [readBasic, if_pos (by simp [htext, hslash])]
    · exact hquote
    all_goals simp [hslash]

/-- Written characters read back up to the closing quote. -/
theorem readBasic_chars (quotes : Nat) (s more : List Char) :
    readBasic (writeBasicChars false quotes s ++ '"' :: more) = some (s, more) := by
  induction s generalizing quotes with
  | nil =>
    show readBasic ('"' :: more) = _
    rw [readBasic]
  | cons c s ih =>
    rw [writeBasicChars, List.append_assoc, readBasic_char (written_writeBasicChar _ _ _), ih]
    rfl

/-- Literal text reads back up to the closing quote. -/
theorem readLiteral_text {s : List Char} (htext : ∀ c ∈ s, isText c = true) (hquote : '\'' ∉ s)
    (more : List Char) : readLiteral (s ++ '\'' :: more) = some (s, more) := by
  induction s with
  | nil =>
    show readLiteral ('\'' :: more) = _
    rw [readLiteral]
  | cons c s ih =>
    obtain ⟨hc, hs⟩ := List.forall_mem_cons.1 htext
    rw [List.mem_cons, not_or] at hquote
    rw [List.cons_append, readLiteral, if_pos hc, ih hs hquote.2]
    · rfl
    · exact fun heq => hquote.1 heq.symm

/-! ## Several lines -/

theorem closeRun_none {q : Char} {more : List Char} (h : Stops (· == q) more) :
    closeRun q more = ([], more) := by
  match more, h with
  | [], _ => rfl
  | [a], h =>
    have ha : a ≠ q := by simpa using stops_cons.1 h
    simp [closeRun, ha]
  | a :: b :: more, h =>
    have ha : a ≠ q := by simpa using stops_cons.1 h
    simp [closeRun, ha]

theorem closeRun_one {q : Char} {more : List Char} (h : Stops (· == q) more) :
    closeRun q (q :: more) = ([q], more) := by
  cases more with
  | nil => simp [closeRun]
  | cons a more => simpa [closeRun] using stops_cons.1 h

theorem closeRun_two (q : Char) (more : List Char) :
    closeRun q (q :: q :: more) = ([q, q], more) := by
  simp [closeRun]

/-- A written character reads back over several lines. -/
theorem readMultiBasic_char {quotes : Nat} {c : Char} {cs rest : List Char}
    (h : Written true quotes c cs) (hrest : cs = ['"'] → ∀ more, rest ≠ '"' :: '"' :: more) :
    readMultiBasic false (cs ++ rest) = consRead c (readMultiBasic false rest) := by
  cases h with
  | @escape e he =>
    obtain ⟨hlower, hupper⟩ := not_code_of_escaped? he
    show readMultiBasic false ('\\' :: e :: rest) = _
    rw [readMultiBasic, he]
    · simp [hlower]
    · simp [hupper]
  | code hcode =>
    show readMultiBasic false ('\\' :: 'u' :: _ :: _ :: _ :: _ :: rest) = _
    rw [readMultiBasic, hcode]
    rfl
  | line _ hc =>
    rw [hc]
    show readMultiBasic false ('\n' :: rest) = _
    rw [readMultiBasic]
  | quote _ _ hc =>
    rw [hc]
    show readMultiBasic false ('"' :: rest) = _
    rw [readMultiBasic]
    · rfl
    · exact fun more _ heq => hrest rfl more heq
    all_goals simp
  | plain htext hquote hslash =>
    obtain ⟨hend, hreturn⟩ := not_line_of_isText htext
    show readMultiBasic false (c :: rest) = _
    rw [readMultiBasic]
    · simp [htext, hslash]
    all_goals simp [hquote, hend, hreturn, hslash]

/-- The number of quotes that stand raw just before the next character. -/
def quotesAfter (multi : Bool) (quotes : Nat) (c : Char) : Nat :=
  if c = '"' then if multi && quotes < 2 then quotes + 1 else 0 else 0

theorem writeBasicChars_cons (multi : Bool) (quotes : Nat) (c : Char) (s : List Char) :
    writeBasicChars multi quotes (c :: s) =
      writeBasicChar multi quotes c ++ writeBasicChars multi (quotesAfter multi quotes c) s :=
  rfl

/-- What starts with a quote is a raw quote, or nothing but the closing quotes. -/
theorem eq_quote_of_head {multi : Bool} {quotes : Nat} {s more tail : List Char}
    (h : writeBasicChars multi quotes s ++ '"' :: more = '"' :: tail) :
    s = [] ∧ tail = more ∨ ∃ rest, s = '"' :: rest ∧ multi = true ∧ quotes < 2 ∧
      writeBasicChars multi (quotes + 1) rest ++ '"' :: more = tail := by
  cases s with
  | nil => exact .inl ⟨rfl, (List.cons.inj h).2.symm⟩
  | cons c s =>
    rw [writeBasicChars_cons, List.append_assoc] at h
    have hc := written_writeBasicChar multi quotes c
    generalize writeBasicChar multi quotes c = cs at h hc
    cases hc with
    | quote hmulti hquotes hc =>
      obtain ⟨-, htail⟩ := List.cons.inj h
      rw [quotesAfter, if_pos hc, if_pos (by simp [hmulti, hquotes])] at htail
      exact .inr ⟨s, by rw [hc], hmulti, hquotes, htail⟩
    | plain _ hquote _ => exact absurd (List.cons.inj h).1 hquote
    | _ => exact absurd (List.cons.inj h).1 (by decide)

/-- Written characters read back over several lines up to the closing quotes. -/
theorem readMultiBasic_chars (quotes : Nat) (s : List Char) {more : List Char}
    (h : Stops (· == '"') more) :
    readMultiBasic false (writeBasicChars true quotes s ++ '"' :: '"' :: '"' :: more) =
      some (s, more) := by
  induction s generalizing quotes with
  | nil =>
    show readMultiBasic false ('"' :: '"' :: '"' :: more) = _
    rw [readMultiBasic, closeRun_none h]
  | cons c s ih =>
    rw [writeBasicChars_cons, List.append_assoc]
    have hc := written_writeBasicChar true quotes c
    generalize writeBasicChar true quotes c = cs at hc
    -- three quotes in a row are the end only, where up to two of the string stand before them
    by_cases hrest : cs = ['"'] → ∀ tail,
        writeBasicChars true (quotesAfter true quotes c) s ++ '"' :: '"' :: '"' :: more ≠
          '"' :: '"' :: tail
    · rw [readMultiBasic_char hc hrest, ih]
      rfl
    · simp only [Classical.not_imp, not_forall, ne_eq, not_not] at hrest
      obtain ⟨rfl, tail, htail⟩ := hrest
      cases hc with
      | plain _ hquote _ => exact absurd rfl hquote
      | quote _ hquotes hc =>
        subst hc
        have hafter : quotesAfter true quotes '"' = quotes + 1 := by simp [quotesAfter, hquotes]
        rw [hafter] at htail ⊢
        rcases eq_quote_of_head htail with ⟨rfl, -⟩ | ⟨rest, rfl, -, hsecond, hthird⟩
        · show readMultiBasic false ('"' :: '"' :: '"' :: '"' :: more) = _
          rw [readMultiBasic, closeRun_one h]
        · obtain rfl : quotes = 0 := by omega
          rcases eq_quote_of_head hthird with ⟨rfl, -⟩ | ⟨-, -, -, hfourth, -⟩
          · show readMultiBasic false ('"' :: '"' :: '"' :: '"' :: '"' :: more) = _
            rw [readMultiBasic, closeRun_two]
          · omega

theorem le_longestRun (q : Char) (current : Nat) (s : List Char) :
    current ≤ longestRun q current s := by
  induction s generalizing current with
  | nil => exact Nat.le_refl _
  | cons c s ih =>
    rw [longestRun]
    split
    · exact Nat.le_trans (Nat.le_succ current) (ih (current + 1))
    · exact Nat.le_max_left _ _

/-- Where no run of quotes is longer than two, two quotes in a row behind another one are those of
the end, or one of the string and one of the end. -/
theorem eq_of_run {q : Char} {current : Nat} (hcurrent : 1 ≤ current) {s more tail : List Char}
    (hrun : longestRun q current s ≤ 2) (h : s ++ q :: q :: q :: more = q :: q :: tail) :
    s = [] ∨ s = [q] := by
  match s, h with
  | [], _ => exact .inl rfl
  | [a], h => exact .inr (by rw [(List.cons.inj h).1])
  | a :: b :: s, h =>
    obtain ⟨rfl, hrest⟩ := List.cons.inj h
    obtain ⟨rfl, -⟩ := List.cons.inj hrest
    rw [longestRun, if_pos rfl, longestRun, if_pos rfl] at hrun
    have hle := le_longestRun b (current + 1 + 1) s
    omega

theorem readMultiLiteral_char {c : Char} {rest : List Char} (hc : isText c = true ∨ c = '\n')
    (hrest : c = '\'' → ∀ more, rest ≠ '\'' :: '\'' :: more) :
    readMultiLiteral (c :: rest) = consRead c (readMultiLiteral rest) := by
  rcases hc with htext | rfl
  · obtain ⟨hend, hreturn⟩ := not_line_of_isText htext
    rw [readMultiLiteral, if_pos htext]
    · exact fun more hquote heq => hrest hquote more heq
    · simp [hreturn]
    · exact hend
  · rw [readMultiLiteral]

/-- Literal text reads back over several lines up to the closing quotes. -/
theorem readMultiLiteral_text {current : Nat} {s more : List Char}
    (htext : ∀ c ∈ s, isText c = true ∨ c = '\n') (hrun : longestRun '\'' current s ≤ 2)
    (h : Stops (· == '\'') more) :
    readMultiLiteral (s ++ '\'' :: '\'' :: '\'' :: more) = some (s, more) := by
  induction s generalizing current with
  | nil =>
    show readMultiLiteral ('\'' :: '\'' :: '\'' :: more) = _
    rw [readMultiLiteral, closeRun_none h]
  | cons c s ih =>
    obtain ⟨hc, hs⟩ := List.forall_mem_cons.1 htext
    rw [List.cons_append]
    by_cases hrest : c = '\'' → ∀ tail, s ++ '\'' :: '\'' :: '\'' :: more ≠ '\'' :: '\'' :: tail
    · rw [readMultiLiteral_char hc hrest]
      rw [longestRun] at hrun
      split at hrun
      · rw [ih hs hrun]
        rfl
      · rw [ih hs (Nat.le_trans (Nat.le_max_right _ _) hrun)]
        rfl
    · -- this quote ends the string, alone or with one more of it
      simp only [Classical.not_imp, not_forall, ne_eq, not_not] at hrest
      obtain ⟨rfl, tail, htail⟩ := hrest
      rw [longestRun, if_pos rfl] at hrun
      rcases eq_of_run (Nat.le_add_left 1 current) hrun htail with rfl | rfl
      · show readMultiLiteral ('\'' :: '\'' :: '\'' :: '\'' :: more) = _
        rw [readMultiLiteral, closeRun_one h]
      · show readMultiLiteral ('\'' :: '\'' :: '\'' :: '\'' :: '\'' :: more) = _
        rw [readMultiLiteral, closeRun_two]

/-! ## Strings of any kind -/

/-- The character is a quote of either kind. -/
def isQuote (c : Char) : Bool :=
  c == '"' || c == '\''

theorem eq_of_isQuote {q : Char} (h : isQuote q = true) : q = '"' ∨ q = '\'' := by
  simpa [isQuote] using h

theorem Stops.of_isQuote {q : Char} (hq : isQuote q = true) {s : List Char} (h : Stops isQuote s) :
    Stops (· == q) s := by
  intro c hc
  exact beq_eq_false_iff_ne.2 (ne_of_class hq (h c hc)).symm

theorem skipNewline_cons {c : Char} (hend : c ≠ '\n') (hreturn : c ≠ '\r') (rest : List Char) :
    skipNewline (c :: rest) = c :: rest := by
  have hnone : newline? (c :: rest) = none := by
    rw [newline?]
    · simp [hend]
    · simp [hreturn]
  rw [skipNewline, hnone]
  rfl

/-- The line end behind the opening quotes is not a part of the string. -/
theorem skipNewline_opening {s shown : List Char}
    (h : '\n' ∉ s → skipNewline shown = shown) : skipNewline (opening s ++ shown) = shown := by
  rw [opening]
  split
  · rfl
  · rename_i hline
    exact h (by simpa using hline)

/-- A basic string reads back. -/
theorem readString_writeBasic (s : List Char) {more : List Char} (h : Stops isQuote more) :
    readString (writeBasic s ++ more) = some (s, more) := by
  have htext : writeBasic s ++ more = '"' :: (writeBasicChars false 0 s ++ '"' :: more) := by
    simp [writeBasic]
  rw [htext, readString]
  · exact readBasic_chars 0 s more
  · -- only with a quote behind it could an empty string be taken for three quotes
    intro rest heq
    rcases eq_quote_of_head heq with ⟨-, htail⟩ | ⟨-, -, hmulti, -⟩
    · have hquote : isQuote '"' = false := h '"' (by rw [← htail]; rfl)
      cases hquote
    · cases hmulti

/-- A literal string reads back. -/
theorem readString_writeLiteral {s : List Char} (htext : ∀ c ∈ s, isText c = true)
    (hquote : '\'' ∉ s) {more : List Char} (h : Stops isQuote more) :
    readString (writeLiteral s ++ more) = some (s, more) := by
  have hwritten : writeLiteral s ++ more = '\'' :: (s ++ '\'' :: more) := by
    simp [writeLiteral]
  rw [hwritten, readString]
  · exact readLiteral_text htext hquote more
  · -- the same for the other quote, which the string does not hold either
    intro rest heq
    cases s with
    | nil =>
      have hq : isQuote '\'' = false := h '\'' (by rw [(List.cons.inj heq).2]; rfl)
      cases hq
    | cons c s =>
      obtain rfl : c = '\'' := (List.cons.inj heq).1
      exact hquote List.mem_cons_self

/-- A basic string over several lines reads back. -/
theorem readString_writeMultiBasic (s : List Char) {more : List Char} (h : Stops isQuote more) :
    readString (writeMultiBasic s ++ more) = some (s, more) := by
  have hwritten : writeMultiBasic s ++ more = '"' :: '"' :: '"' ::
      (opening s ++ (writeBasicChars true 0 s ++ '"' :: '"' :: '"' :: more)) := by
    simp [writeMultiBasic]
  rw [hwritten, readString, skipNewline_opening]
  · exact readMultiBasic_chars 0 s (Stops.of_isQuote rfl h)
  · intro hline
    cases s with
    | nil => rfl
    | cons c s =>
      rw [writeBasicChars_cons, List.append_assoc]
      have hc := written_writeBasicChar true 0 c
      generalize writeBasicChar true 0 c = cs at hc
      cases hc with
      | line _ hc => exact absurd (hc ▸ List.mem_cons_self) hline
      | plain htext _ _ =>
        obtain ⟨hend, hreturn⟩ := not_line_of_isText htext
        exact skipNewline_cons hend hreturn _
      | _ => rfl

/-- A literal string over several lines reads back. -/
theorem readString_writeMultiLiteral {s : List Char}
    (htext : ∀ c ∈ s, isText c = true ∨ c = '\n') (hrun : longestRun '\'' 0 s ≤ 2)
    {more : List Char} (h : Stops isQuote more) :
    readString (writeMultiLiteral s ++ more) = some (s, more) := by
  have hwritten : writeMultiLiteral s ++ more = '\'' :: '\'' :: '\'' ::
      (opening s ++ (s ++ '\'' :: '\'' :: '\'' :: more)) := by
    simp [writeMultiLiteral]
  rw [hwritten, readString, skipNewline_opening]
  · exact readMultiLiteral_text htext hrun (Stops.of_isQuote rfl h)
  · intro hline
    cases s with
    | nil => rfl
    | cons c s =>
      rcases htext c List.mem_cons_self with hc | rfl
      · obtain ⟨hend, hreturn⟩ := not_line_of_isText hc
        exact skipNewline_cons hend hreturn _
      · exact absurd List.mem_cons_self hline

/-- A written string is read back, unless one more quote follows it. -/
theorem readString_writeString (s : List Char) {more : List Char} (h : Stops isQuote more) :
    readString (writeString s ++ more) = some (s, more) := by
  have hshown : s.any needsCode = false → ∀ c ∈ s, isText c = true ∨ c = '\n' := by
    intro hcoded c hc
    by_cases hline : c = '\n'
    · exact .inr hline
    · have hneeds : needsCode c = false := by simpa using List.any_eq_false.1 hcoded c hc
      exact .inl (isText_of_needsCode hneeds hline)
  rw [writeString]
  split
  · exact readString_writeBasic s h
  split
  · rename_i hliteral
    simp only [Bool.and_eq_true, Bool.not_eq_true', List.contains_eq_mem,
      decide_eq_false_iff_not] at hliteral
    obtain ⟨⟨hcoded, hquote⟩, hlines⟩ := hliteral
    refine readString_writeLiteral (fun c hc => ?_) hquote h
    rcases hshown hcoded c hc with htext | rfl
    · exact htext
    · exact absurd hc hlines
  split
  · exact readString_writeMultiBasic s h
  split
  · rename_i hliteral
    simp only [Bool.and_eq_true, Bool.not_eq_true', decide_eq_true_eq] at hliteral
    exact readString_writeMultiLiteral (hshown hliteral.1) hliteral.2 h
  split
  · exact readString_writeMultiBasic s h
  · exact readString_writeBasic s h

/-- What a written string starts with. -/
theorem exists_writeString (s : List Char) :
    ∃ q rest, writeString s = q :: rest ∧ isQuote q = true := by
  rw [writeString]
  split
  · exact ⟨'"', _, rfl, rfl⟩
  split
  · exact ⟨'\'', _, rfl, rfl⟩
  split
  · exact ⟨'"', _, rfl, rfl⟩
  split
  · exact ⟨'\'', _, rfl, rfl⟩
  split
  · exact ⟨'"', _, rfl, rfl⟩
  · exact ⟨'"', _, rfl, rfl⟩

/-! ## Keys -/

theorem readKeyPart_writeBasic (s more : List Char) :
    readKeyPart (writeBasic s ++ more) = some (s, more) := by
  have hwritten : writeBasic s ++ more = '"' :: (writeBasicChars false 0 s ++ '"' :: more) := by
    simp [writeBasic]
  rw [hwritten, readKeyPart, readBasic_chars]

/-- A bare key reads back. -/
theorem readKeyPart_bare {s more : List Char} (hne : s ≠ []) (hs : ∀ c ∈ s, isBare c = true)
    (h : Stops isBare more) : readKeyPart (s ++ more) = some (s, more) := by
  obtain ⟨htake, hdrop⟩ := span_run hs h
  have hnot : ∀ q, isQuote q = true → ∀ rest, s ++ more ≠ q :: rest := by
    intro q hq rest heq
    cases s with
    | nil => exact hne rfl
    | cons c s =>
      obtain rfl : c = q := (List.cons.inj heq).1
      have hbare := hs c List.mem_cons_self
      rcases eq_of_isQuote hq with rfl | rfl <;> cases hbare
  rw [readKeyPart, htake, hdrop, if_neg (by simpa using hne)]
  · exact hnot '"' rfl
  · exact hnot '\'' rfl

/-- A written part of a key is read back, unless more of it seems to follow. -/
theorem readKeyPart_writeKeyPart (s : List Char) {more : List Char} (h : Stops isBare more) :
    readKeyPart (writeKeyPart s ++ more) = some (s, more) := by
  rw [writeKeyPart]
  split
  · rename_i hbare
    simp only [Bool.and_eq_true, Bool.not_eq_true', List.isEmpty_eq_false_iff, List.all_eq_true]
      at hbare
    exact readKeyPart_bare hbare.1 hbare.2 h
  split
  · exact readKeyPart_writeBasic s more
  split
  · rename_i hliteral
    simp only [Bool.and_eq_true, Bool.not_eq_true', List.any_eq_false, Bool.or_eq_true,
      decide_eq_true_eq, not_or, List.contains_eq_mem, decide_eq_false_iff_not] at hliteral
    obtain ⟨hcoded, hquote⟩ := hliteral
    have htext : ∀ c ∈ s, isText c = true := fun c hc =>
      isText_of_needsCode (Bool.eq_false_iff.2 (hcoded c hc).1) (hcoded c hc).2
    have hwritten : writeLiteral s ++ more = '\'' :: (s ++ '\'' :: more) := by
      simp [writeLiteral]
    rw [hwritten, readKeyPart, readLiteral_text htext hquote]
  · exact readKeyPart_writeBasic s more

/-- What a part of a key starts with. -/
def startsKey (c : Char) : Bool :=
  isBare c || isQuote c

theorem exists_writeKeyPart (s : List Char) :
    ∃ c rest, writeKeyPart s = c :: rest ∧ startsKey c = true := by
  rw [writeKeyPart]
  split
  · rename_i hbare
    simp only [Bool.and_eq_true, Bool.not_eq_true', List.isEmpty_eq_false_iff, List.all_eq_true]
      at hbare
    obtain ⟨c, rest, rfl⟩ := List.exists_cons_of_ne_nil hbare.1
    exact ⟨c, rest, rfl, by simp [startsKey, hbare.2 c List.mem_cons_self]⟩
  split
  · exact ⟨'"', _, rfl, rfl⟩
  split
  · exact ⟨'\'', _, rfl, rfl⟩
  · exact ⟨'"', _, rfl, rfl⟩

theorem not_isSpace_of_startsKey {c : Char} (h : startsKey c = true) : isSpace c = false := by
  rw [Bool.eq_false_iff]
  intro hspace
  simp only [isSpace, Bool.or_eq_true, decide_eq_true_eq] at hspace
  rcases hspace with rfl | rfl <;> cases h

end QuorumKeeper.Toml
