import QuorumKeeper.Proofs.TomlStrings
import QuorumKeeper.Toml.Printer
import QuorumKeeper.Toml.Reader

/-!
# Reading back written documents

A document that is written section by section is read as the statements of its sections
(`readsAs_document`): one header each, and one assignment for every field. `ReadsAs` leaves the
reader's bound open, as long as it is larger than the text. Which tree the statements make is said
by `Builds`, for sections under one name and under two (`parse?_print`).
-/

set_option autoImplicit false

namespace QuorumKeeper.Toml

open Text (Stops ne_of_class stops_cons)

/-! ## Keys -/

/-- What may stand behind a key. -/
inductive EndsKey : List Char → Prop where
  | bracket (rest : List Char) : EndsKey (']' :: rest)
  | equals (rest : List Char) : EndsKey (' ' :: '=' :: rest)

theorem dropWhile_isSpace_cons {c : Char} (h : isSpace c = false) (rest : List Char) :
    (c :: rest).dropWhile isSpace = c :: rest := by
  rw [List.dropWhile_cons_of_neg (by simp [h])]

theorem key_cons (part part' : String) (rest : List String) :
    Printer.key (part :: part' :: rest) =
      writeKeyPart part.toList ++ '.' :: Printer.key (part' :: rest) :=
  rfl

theorem dropWhile_isSpace_writeKeyPart (part : String) (more : List Char) :
    (writeKeyPart part.toList ++ more).dropWhile isSpace = writeKeyPart part.toList ++ more := by
  obtain ⟨c, tail, hpart, hc⟩ := exists_writeKeyPart part.toList
  rw [hpart, List.cons_append, dropWhile_isSpace_cons (not_isSpace_of_startsKey hc)]

/-- A part of a key before a dot is read, and the key goes on. -/
theorem readKey_dotted (room : Nat) (part : String) (more : List Char) :
    readKey (room + 1) (writeKeyPart part.toList ++ '.' :: more) =
      (readKey room more).map fun (parts, rest) => (part :: parts, rest) := by
  rw [readKey, dropWhile_isSpace_writeKeyPart,
    readKeyPart_writeKeyPart part.toList (stops_cons.2 rfl)]
  simp only [dropWhile_isSpace_cons (rfl : isSpace '.' = false), String.ofList_toList]

/-- The last part of a key is read, up to what ends the key. -/
theorem readKey_last (room : Nat) (part : String) {more : List Char} (h : EndsKey more) :
    readKey (room + 1) (writeKeyPart part.toList ++ more) =
      some ([part], more.dropWhile isSpace) := by
  rw [readKey, dropWhile_isSpace_writeKeyPart,
    readKeyPart_writeKeyPart part.toList (by cases h <;> exact stops_cons.2 rfl)]
  simp only [String.ofList_toList]
  cases h <;> rfl

/-- A written key is read back, with the blanks behind it passed over. -/
theorem readKey_key {path : List String} (hpath : path ≠ []) {room : Nat}
    (hroom : path.length ≤ room) {more : List Char} (h : EndsKey more) :
    readKey room (Printer.key path ++ more) = some (path, more.dropWhile isSpace) := by
  induction path generalizing room with
  | nil => exact absurd rfl hpath
  | cons part rest ih =>
    rw [List.length_cons] at hroom
    obtain ⟨room, rfl⟩ := Nat.exists_eq_succ_of_ne_zero (by omega : room ≠ 0)
    cases rest with
    | nil => exact readKey_last room part h
    | cons part' rest =>
      rw [key_cons, List.append_assoc, List.cons_append, readKey_dotted,
        ih (by simp) (by simpa using hroom)]
      rfl

/-- A written key starts as keys do. -/
theorem exists_key {path : List String} (hpath : path ≠ []) :
    ∃ c rest, Printer.key path = c :: rest ∧ startsKey c = true := by
  match path, hpath with
  | [part], _ => exact exists_writeKeyPart part.toList
  | part :: part' :: rest, _ =>
    obtain ⟨c, tail, hpart, hc⟩ := exists_writeKeyPart part.toList
    exact ⟨c, tail ++ '.' :: Printer.key (part' :: rest), by rw [key_cons, hpart]; rfl, hc⟩

/-! ## Whole numbers -/

/-- What stands at a position of a written number is a digit or the line end behind it. -/
theorem drop_decimal (n : Nat) (more : List Char) {k : Nat}
    (hk : k ≤ (Nat.toDigits 10 n).length) :
    ∃ c rest, (Nat.toDigits 10 n ++ '\n' :: more).drop k = c :: rest ∧
      (c.isDigit = true ∨ c = '\n') := by
  rw [List.drop_append_of_le_length hk]
  cases hdrop : (Nat.toDigits 10 n).drop k with
  | nil => exact ⟨'\n', more, rfl, .inr rfl⟩
  | cons c rest =>
    have hmem : c ∈ Nat.toDigits 10 n := List.mem_of_mem_drop (hdrop ▸ List.mem_cons_self)
    exact ⟨c, rest ++ '\n' :: more, rfl, .inl (Text.isDigit_of_mem_decimal hmem)⟩

/-- Behind the first digits of a written number there is no mark of a date or a time. -/
theorem expect_of_fixedDigits {n k v : Nat} {more rest : List Char}
    (h : fixedDigits k (Nat.toDigits 10 n ++ '\n' :: more) = some (v, rest)) {mark : Char}
    (hmark : mark.isDigit = false) (hline : mark ≠ '\n') : expect mark rest = none := by
  rw [fixedDigits] at h
  split at h
  · rename_i hdigits
    obtain ⟨hlength, hall⟩ := hdigits
    obtain rfl := (Prod.mk.inj (Option.some.inj h)).2
    have hk : k ≤ (Nat.toDigits 10 n).length := by
      by_contra hlong
      have hline : '\n' ∈ (Nat.toDigits 10 n ++ '\n' :: more).take k := by
        rw [List.take_append, List.mem_append]
        obtain ⟨j, hj⟩ := Nat.exists_eq_add_of_lt (Nat.lt_of_not_le hlong)
        right
        rw [hj, show (Nat.toDigits 10 n).length + j + 1 - (Nat.toDigits 10 n).length = j + 1 by
          omega, List.take_succ_cons]
        exact List.mem_cons_self
      have hdigit := List.all_eq_true.1 hall '\n' hline
      cases hdigit
    obtain ⟨c, rest, hdrop, hc⟩ := drop_decimal n more hk
    rw [hdrop, expect, if_neg]
    rintro rfl
    rcases hc with hdigit | hend
    · exact ne_of_class hdigit hmark rfl
    · exact hline hend
  · cases h

/-- A number on its own is no date. -/
theorem readDate_decimal (n : Nat) (more : List Char) :
    readDate (Nat.toDigits 10 n ++ '\n' :: more) = none := by
  have hday : readDay (Nat.toDigits 10 n ++ '\n' :: more) = none := by
    rw [readDay]
    cases hyear : fixedDigits 4 (Nat.toDigits 10 n ++ '\n' :: more) with
    | none => rfl
    | some year =>
      have hmark : expect '-' year.2 = none :=
        expect_of_fixedDigits hyear (by decide) (by decide)
      simp [hmark]
  have hclock : readClock (Nat.toDigits 10 n ++ '\n' :: more) = none := by
    rw [readClock, twoDigits]
    cases hhour : fixedDigits 2 (Nat.toDigits 10 n ++ '\n' :: more) with
    | none => rfl
    | some hour =>
      have hmark : expect ':' hour.2 = none :=
        expect_of_fixedDigits hhour (by decide) (by decide)
      simp only [Option.bind_eq_bind, Option.bind_some]
      split
      · simp [hmark]
      · rfl
  rw [readDate, hday, hclock]
  rfl

theorem digitsAfter_run {run : List Char} (hrun : ∀ c ∈ run, c.isDigit = true)
    (more : List Char) : digitsAfter Char.isDigit (run ++ '\n' :: more) = some (run, '\n' :: more) := by
  induction run with
  | nil => rfl
  | cons c run ih =>
    obtain ⟨hc, hrest⟩ := List.forall_mem_cons.1 hrun
    have hunderscore : c ≠ '_' := ne_of_class hc rfl
    rw [List.cons_append, digitsAfter, if_pos hc, ih hrest]
    · rfl
    all_goals simp [hunderscore]

/-- A number in decimal is read digit by digit. -/
theorem wholeDigits_decimal (n : Nat) (more : List Char) :
    wholeDigits (Nat.toDigits 10 n ++ '\n' :: more) = some (Nat.toDigits 10 n, '\n' :: more) := by
  obtain ⟨d, ds, hdigits, hd⟩ := Text.exists_decimal n
  by_cases hzero : d = '0'
  · subst hzero
    obtain rfl := Text.eq_zero_of_decimal hdigits
    rfl
  · have hrun : ∀ c ∈ ds, c.isDigit = true := fun c hc =>
      Text.isDigit_of_mem_decimal (hdigits ▸ List.mem_cons_of_mem d hc)
    rw [hdigits, List.cons_append, wholeDigits]
    · rw [digits, if_pos hd, digitsAfter_run hrun]
      rfl
    · simp [hzero]

theorem sign_decimal (n : Nat) (more : List Char) :
    sign (Nat.toDigits 10 n ++ more) = (false, Nat.toDigits 10 n ++ more) := by
  obtain ⟨d, ds, hdigits, hd⟩ := Text.exists_decimal n
  have hplus : d ≠ '+' := ne_of_class hd rfl
  have hminus : d ≠ '-' := ne_of_class hd rfl
  rw [hdigits, List.cons_append, sign]
  · simp [hplus]
  · simp [hminus]

/-- A written number is read as that number. -/
theorem readNumber_decimal {n : Nat} (hn : n < 2 ^ 63) (more : List Char) :
    readNumber (Nat.toDigits 10 n ++ '\n' :: more) = some (.integer n, '\n' :: more) := by
  obtain ⟨d, ds, hdigits, hd⟩ := Text.exists_decimal n
  have hsign := sign_decimal n ('\n' :: more)
  have hspecial : readSpecial (Nat.toDigits 10 n ++ '\n' :: more) = none := by
    have hi : d ≠ 'i' := ne_of_class hd rfl
    have hn : d ≠ 'n' := ne_of_class hd rfl
    rw [readSpecial, hsign, hdigits]
    simp [hi, hn]
  have hinteger : integer? false n = some (.integer n) := by
    have hbound : n < Nat.pow 2 63 := hn
    rw [integer?, if_neg (by decide), if_pos hbound]
  have hread : readDecimal (Nat.toDigits 10 n ++ '\n' :: more) =
      some (.integer n, '\n' :: more) := by
    simp [readDecimal, hsign, wholeDigits_decimal, hinteger, Text.valueOf_decimal]
  -- a zero in front is all of the number, so a mark of another base cannot follow it
  have hbase : ∀ mark rest, mark.isDigit = false → mark ≠ '\n' →
      Nat.toDigits 10 n ++ '\n' :: more ≠ '0' :: mark :: rest := by
    intro mark rest hmark hline heq
    rw [hdigits, List.cons_append] at heq
    obtain ⟨rfl, hrest⟩ := List.cons.inj heq
    obtain rfl := Text.eq_zero_of_decimal hdigits
    obtain rfl : ds = [] := (List.cons.inj hdigits).2.symm
    exact hline (List.cons.inj hrest).1.symm
  rw [readNumber]
  · rw [hspecial, hread]
    rfl
  · exact fun rest => hbase 'x' rest rfl (by decide)
  · exact fun rest => hbase 'o' rest rfl (by decide)
  · exact fun rest => hbase 'b' rest rfl (by decide)

/-! ## Values -/

/-- A number on its own is read as a value. -/
theorem readScalar_decimal {n : Nat} (hn : n < 2 ^ 63) (more : List Char) :
    readScalar (Nat.toDigits 10 n ++ '\n' :: more) = some (.integer n, '\n' :: more) := by
  obtain ⟨d, ds, hdigits, hd⟩ := Text.exists_decimal n
  have hfront : ∀ c, c.isDigit = false → ∀ rest, Nat.toDigits 10 n ++ '\n' :: more ≠ c :: rest := by
    intro c hc rest heq
    rw [hdigits, List.cons_append] at heq
    exact ne_of_class hd hc (List.cons.inj heq).1
  rw [readScalar]
  · rw [readDate_decimal, readNumber_decimal hn]
    rfl
  · exact hfront '"' rfl
  · exact hfront '\'' rfl
  · exact fun rest => hfront 't' rfl _
  · exact fun rest => hfront 'f' rfl _

/-- A quoted string is read as a value. -/
theorem readScalar_string (s : String) {more : List Char} (h : Stops isQuote more) :
    readScalar (Printer.string s ++ more) = some (.string s, more) := by
  obtain ⟨q, rest, hwritten, hq⟩ := exists_writeString s.toList
  have hread := readString_writeString s.toList h
  rw [Printer.string]
  rw [hwritten, List.cons_append] at hread ⊢
  rcases eq_of_isQuote hq with rfl | rfl
  all_goals
    rw [readScalar, hread]
    simp only [Option.map_some, String.ofList_toList]

/-- What neither opens an array nor an inline table is a value without parts. -/
theorem readValue_scalar (depth : Nat) {c : Char} (hbracket : c ≠ '[') (hbrace : c ≠ '\x7b')
    (rest : List Char) : readValue depth (c :: rest) = readScalar (c :: rest) := by
  cases depth with
  | zero =>
    rw [readValue]
    · simp [hbracket]
    · simp [hbrace]
  | succ depth =>
    rw [readValue]
    · simp [hbracket]
    · simp [hbrace]

/-- A quoted string is read as a value at any depth. -/
theorem readValue_string (depth : Nat) (s : String) {more : List Char} (h : Stops isQuote more) :
    readValue depth (Printer.string s ++ more) = some (.string s, more) := by
  have hread := readScalar_string s h
  obtain ⟨q, rest, hwritten, hq⟩ := exists_writeString s.toList
  rw [Printer.string, hwritten, List.cons_append] at hread ⊢
  rw [readValue_scalar, hread]
  · exact ne_of_class hq rfl
  · exact ne_of_class hq rfl

/-- An item at the front is read, and what stands behind it tells whether there are more. -/
theorem readItems_item {value : List Char → Option (Value × List Char)} {bound : Nat}
    {s rest : List Char} {c : Char} {item : List Char} {v : Value}
    (hitem : skipTrivia false s = some (c :: item)) (hc : c ≠ ']')
    (hvalue : value (c :: item) = some (v, rest)) :
    (∀ more, skipTrivia false rest = some (',' :: more) →
      readItems value (bound + 1) s =
        (readItems value bound more).map fun (vs, rest) => (v :: vs, rest)) ∧
    ∀ more, skipTrivia false rest = some (']' :: more) →
      readItems value (bound + 1) s = some ([v], more) := by
  rw [readItems, hitem]
  split
  · rename_i hnone
    cases hnone
  · rename_i hend
    exact absurd (List.cons.inj (Option.some.inj hend)).1 hc
  · rename_i ht
    cases ht
    constructor <;>
      (intro more hnext
       simp only [hvalue, hnext])

/-- A written string is an item, with or without blanks in front of it. -/
theorem exists_item (depth : Nat) {front : List Char} (s : String) {rest : List Char}
    (hfront : ∀ t, skipTrivia false (front ++ t) = skipTrivia false t)
    (hrest : Stops isQuote rest) :
    ∃ c item, skipTrivia false (front ++ (Printer.string s ++ rest)) = some (c :: item) ∧
      c ≠ ']' ∧ readValue depth (c :: item) = some (.string s, rest) := by
  have hvalue := readValue_string depth s hrest
  obtain ⟨q, tail, hwritten, hq⟩ := exists_writeString s.toList
  rw [hfront]
  rw [Printer.string, hwritten, List.cons_append] at hvalue ⊢
  refine ⟨q, tail ++ rest, ?_, ?_, hvalue⟩
  · rcases eq_of_isQuote hq with rfl | rfl <;> rfl
  · exact ne_of_class hq rfl

/-- One item for each line; a comma stands behind the last one, too. -/
theorem readItems_lines (depth : Nat) (items : List String) {bound : Nat}
    (hbound : items.length < bound) (more : List Char) :
    readItems (readValue depth) bound ('\n' :: (Printer.itemLines items ++ ']' :: more)) =
      some (items.map .string, more) := by
  induction items generalizing bound with
  | nil =>
    obtain ⟨bound, rfl⟩ := Nat.exists_eq_succ_of_ne_zero (by omega : bound ≠ 0)
    rfl
  | cons s items ih =>
    rw [List.length_cons] at hbound
    obtain ⟨bound, rfl⟩ := Nat.exists_eq_succ_of_ne_zero (by omega : bound ≠ 0)
    have htext : '\n' :: (Printer.itemLines (s :: items) ++ ']' :: more) =
        "\n    ".toList ++ (Printer.string s ++
          (',' :: '\n' :: (Printer.itemLines items ++ ']' :: more))) := by
      simp [Printer.itemLines]
    obtain ⟨c, item, hitem, hc, hvalue⟩ := exists_item depth s
      (fun _ => rfl : ∀ t, skipTrivia false ("\n    ".toList ++ t) = skipTrivia false t)
      (stops_cons.2 rfl : Stops isQuote (',' :: '\n' :: (Printer.itemLines items ++ ']' :: more)))
    rw [htext, (readItems_item hitem hc hvalue).1 _ rfl, ih (by omega)]
    rfl

/-- The value that a field is written for. -/
def Field.value : Field → Value
  | string s => .string s
  | integer n => .integer n
  | strings items => .array (items.map .string)

theorem length_itemLines (items : List String) : items.length ≤ (Printer.itemLines items).length := by
  induction items with
  | nil => exact Nat.le_refl _
  | cons s items ih =>
    simp only [Printer.itemLines, List.length_append, List.length_cons]
    have hcomma : ",\n".toList.length = 2 := rfl
    omega

/-- An array is read item by item. -/
theorem readValue_array (depth : Nat) (rest : List Char) :
    readValue (depth + 1) ('[' :: rest) =
      (readItems (readValue depth) rest.length rest).map fun (vs, rest) => (.array vs, rest) :=
  rfl

/-- A written field is read back. -/
theorem readValue_field {f : Field} (hf : f.isWritable = true) (depth : Nat) (more : List Char) :
    readValue (depth + 1) (Printer.field f ++ '\n' :: more) = some (f.value, '\n' :: more) := by
  cases f with
  | string s => exact readValue_string (depth + 1) s (stops_cons.2 rfl)
  | integer n =>
    have hn : n < 2 ^ 63 := by simpa [Field.isWritable] using hf
    have hread := readScalar_decimal hn more
    obtain ⟨d, ds, hdigits, hd⟩ := Text.exists_decimal n
    rw [Printer.field, Text.decimal, String.toList_ofList]
    rw [hdigits, List.cons_append] at hread ⊢
    rw [readValue_scalar, hread, Field.value]
    · exact ne_of_class hd rfl
    · exact ne_of_class hd rfl
  | strings items =>
    match items with
    | [] => rfl
    | [s] =>
      have htext : Printer.field (.strings [s]) ++ '\n' :: more =
          '[' :: (Printer.string s ++ ']' :: '\n' :: more) := by
        simp [Printer.field]
      obtain ⟨bound, hbound⟩ : ∃ bound,
          (Printer.string s ++ ']' :: '\n' :: more).length = bound + 1 :=
        Nat.exists_eq_succ_of_ne_zero (by simp)
      obtain ⟨c, item, hitem, hc, hvalue⟩ := exists_item depth s
        (fun _ => rfl : ∀ t, skipTrivia false ([] ++ t) = skipTrivia false t)
        (stops_cons.2 rfl : Stops isQuote (']' :: '\n' :: more))
      rw [List.nil_append] at hitem
      rw [htext, readValue_array, hbound, (readItems_item hitem hc hvalue).2 _ rfl]
      rfl
    | s :: s' :: items =>
      have htext : Printer.field (.strings (s :: s' :: items)) ++ '\n' :: more =
          '[' :: '\n' :: (Printer.itemLines (s :: s' :: items) ++ ']' :: '\n' :: more) := by
        simp [Printer.field]
      have hlength := length_itemLines (s :: s' :: items)
      rw [htext, readValue_array, readItems_lines]
      · rfl
      · simp only [List.length_cons, List.length_append] at hlength ⊢
        omega

/-! ## Statements -/

theorem exists_field (f : Field) :
    ∃ c rest, Printer.field f = c :: rest ∧ isSpace c = false := by
  cases f with
  | string s =>
    obtain ⟨q, rest, hwritten, hq⟩ := exists_writeString s.toList
    exact ⟨q, rest, hwritten, not_isSpace_of_startsKey (by simp [startsKey, hq])⟩
  | integer n =>
    obtain ⟨d, ds, hdigits, hd⟩ := Text.exists_decimal n
    refine ⟨d, ds, by rw [Printer.field, Text.decimal, String.toList_ofList, hdigits], ?_⟩
    have hbare : startsKey d = true := by simp [startsKey, isBare, Char.isAlphanum, hd]
    exact not_isSpace_of_startsKey hbare
  | strings items =>
    rcases items with _ | ⟨s, _ | ⟨s', items⟩⟩
    · exact ⟨'[', [']'], rfl, rfl⟩
    · exact ⟨'[', _, rfl, rfl⟩
    · exact ⟨'[', _, rfl, rfl⟩

/-- The statement that a field is written as. -/
def assignment (f : String × Field) : Statement :=
  .assign [f.1] f.2.value

/-- The line of a field. -/
def assignmentLine (f : String × Field) : List Char :=
  writeKeyPart f.1.toList ++ " = ".toList ++ Printer.field f.2

/-- A written assignment is read as its key and value. -/
theorem readPair_assignment {f : String × Field} (hf : f.2.isWritable = true) (rest : List Char) :
    readPair (readValue maxDepth) (assignmentLine f ++ '\n' :: rest) =
      some (([f.1], f.2.value), '\n' :: rest) := by
  have htext : assignmentLine f ++ '\n' :: rest =
      Printer.key [f.1] ++ ' ' :: '=' :: ' ' :: (Printer.field f.2 ++ '\n' :: rest) := by
    simp [assignmentLine, Printer.key]
  have hfield : (' ' :: (Printer.field f.2 ++ '\n' :: rest)).dropWhile isSpace =
      Printer.field f.2 ++ '\n' :: rest := by
    obtain ⟨c, cs, hwritten, hc⟩ := exists_field f.2
    rw [List.dropWhile_cons_of_pos rfl, hwritten, List.cons_append, dropWhile_isSpace_cons hc]
  rw [readPair, htext, readKey_key (by simp) (by simp [maxKeyParts]) (.equals _)]
  show ((readValue maxDepth
    ((' ' :: (Printer.field f.2 ++ '\n' :: rest)).dropWhile isSpace)).map _) = _
  rw [hfield, maxDepth, readValue_field hf]
  rfl

/-- A line with an assignment is read as one. -/
theorem readStatement_assignment {f : String × Field} (hf : f.2.isWritable = true)
    (rest : List Char) :
    readStatement (assignmentLine f ++ '\n' :: rest) = some (assignment f, rest) := by
  have hpair := readPair_assignment hf rest
  obtain ⟨c, tail, hkey, hc⟩ := exists_writeKeyPart f.1.toList
  have hbracket : c ≠ '[' := ne_of_class hc rfl
  have htext : ∃ tail, assignmentLine f ++ '\n' :: rest = c :: tail :=
    ⟨_, by rw [assignmentLine, hkey]; rfl⟩
  obtain ⟨tail, htext⟩ := htext
  rw [htext] at hpair ⊢
  rw [readStatement, hpair]
  · rfl
  all_goals simp [hbracket]

/-- A line with a header is read as one. -/
theorem readStatement_header {path : List String} (hpath : path ≠ [])
    (hlength : path.length ≤ maxKeyParts) (rest : List Char) :
    readStatement ('[' :: (Printer.key path ++ ']' :: '\n' :: rest)) = some (.header path, rest) := by
  have hread := readKey_key hpath hlength (.bracket ('\n' :: rest))
  rw [dropWhile_isSpace_cons rfl] at hread
  rw [readStatement, hread]
  · rfl
  · -- no key starts with a bracket, so this is not taken for an element of an array of tables
    intro tail heq
    obtain ⟨c, cs, hkey, hc⟩ := exists_key hpath
    rw [hkey, List.cons_append] at heq
    exact ne_of_class hc rfl (List.cons.inj heq).1

/-- However large the reader's bound is, if only larger than the text, it reads these statements. -/
def ReadsAs (s : List Char) (statements : List Statement) : Prop :=
  ∀ bound, s.length < bound → readStatements bound s = some statements

theorem readsAs_nil : ReadsAs [] [] := by
  intro bound hbound
  obtain ⟨bound, rfl⟩ := Nat.exists_eq_succ_of_ne_zero (by omega : bound ≠ 0)
  rfl

/-- An empty line says nothing. -/
theorem ReadsAs.blank {s : List Char} {statements : List Statement} (h : ReadsAs s statements) :
    ReadsAs ('\n' :: s) statements := by
  intro bound hbound
  rw [List.length_cons] at hbound
  obtain ⟨bound, rfl⟩ := Nat.exists_eq_succ_of_ne_zero (by omega : bound ≠ 0)
  exact h bound (by omega)

/-- A statement takes at least the one character that tells it from a blank line. -/
theorem ReadsAs.statement {c : Char} {line rest : List Char} {statement : Statement}
    {statements : List Statement} (h : ReadsAs rest statements) (hspace : isSpace c = false)
    (hc : ¬(c = '#' ∨ c = '\n' ∨ c = '\r')) (hlength : rest.length ≤ line.length)
    (hread : readStatement (c :: line) = some (statement, rest)) :
    ReadsAs (c :: line) (statement :: statements) := by
  intro bound hbound
  rw [List.length_cons] at hbound
  obtain ⟨bound, rfl⟩ := Nat.exists_eq_succ_of_ne_zero (by omega : bound ≠ 0)
  rw [readStatements, dropWhile_isSpace_cons hspace]
  simp only [if_neg hc, hread, h bound (by omega), Option.map_some]

/-- Written assignments are read in their order. -/
theorem readsAs_assignments {fields : List (String × Field)}
    (hfields : ∀ f ∈ fields, f.2.isWritable = true) {rest : List Char}
    {statements : List Statement} (h : ReadsAs rest statements) :
    ReadsAs (Printer.assignments fields ++ rest) (fields.map assignment ++ statements) := by
  induction fields with
  | nil => exact h
  | cons f fields ih =>
    obtain ⟨hf, hrest⟩ := List.forall_mem_cons.1 hfields
    have hline : Printer.assignments (f :: fields) ++ rest =
        assignmentLine f ++ '\n' :: (Printer.assignments fields ++ rest) := by
      simp [Printer.assignments, assignmentLine]
    have hread := readStatement_assignment hf (Printer.assignments fields ++ rest)
    obtain ⟨c, tail, hkey, hc⟩ := exists_writeKeyPart f.1.toList
    have hnot : ¬(c = '#' ∨ c = '\n' ∨ c = '\r') := by
      rintro (hcomment | hline | hreturn)
      · exact ne_of_class hc rfl hcomment
      · exact ne_of_class hc rfl hline
      · exact ne_of_class hc rfl hreturn
    rw [assignmentLine, hkey, List.cons_append, List.cons_append, List.cons_append] at hread
    rw [hline, assignmentLine, hkey, List.cons_append, List.cons_append, List.cons_append]
    refine (ih hrest).statement (not_isSpace_of_startsKey hc) hnot ?_ hread
    simp only [List.length_append, List.length_cons]
    omega

/-- The statements that a section is written as. -/
def Section.statements (s : Section) : List Statement :=
  .header s.path :: s.fields.map assignment

/-- The header and the fields of the section can be written. -/
structure Section.Writable (s : Section) : Prop where
  path_ne_nil : s.path ≠ []
  length_path : s.path.length ≤ maxKeyParts
  fields : ∀ f ∈ s.fields, f.2.isWritable = true

/-- The lines of a section are read as its header and its assignments. -/
theorem readsAs_lines {s : Section} (hs : s.Writable) {rest : List Char}
    {statements : List Statement} (h : ReadsAs rest statements) :
    ReadsAs (Printer.lines s ++ rest) (s.statements ++ statements) := by
  have htext : Printer.lines s ++ rest =
      '[' :: (Printer.key s.path ++ ']' :: '\n' :: (Printer.assignments s.fields ++ rest)) := by
    simp [Printer.lines]
  rw [htext]
  refine (readsAs_assignments hs.fields h).statement rfl (by decide) ?_
    (readStatement_header hs.path_ne_nil hs.length_path _)
  simp only [List.length_append, List.length_cons]
  omega

/-- A written document is read as the statements of its sections. -/
theorem readsAs_document {sections : List Section} (hsections : ∀ s ∈ sections, s.Writable) :
    ReadsAs (Printer.document sections) (sections.flatMap Section.statements) := by
  induction sections with
  | nil => exact readsAs_nil
  | cons s rest ih =>
    obtain ⟨hs, hrest⟩ := List.forall_mem_cons.1 hsections
    rw [List.flatMap_cons]
    cases rest with
    | nil =>
      have hlines := readsAs_lines hs readsAs_nil
      rwa [List.append_nil] at hlines
    | cons s' rest => exact readsAs_lines hs (ih hrest).blank

/-- What is read of a written document is the tree that its statements make. -/
theorem parse?_print_eq {sections : List Section} (hsections : ∀ s ∈ sections, s.Writable) :
    parse? (print sections) = Document.ofStatements? (sections.flatMap Section.statements) := by
  have hmark : skipMark (Printer.document sections) = Printer.document sections := by
    match sections with
    | [] => rfl
    | [s] => rfl
    | s :: s' :: rest => rfl
  rw [parse?, print, String.toList_ofList, hmark]
  simp only [readsAs_document hsections _ (Nat.lt_succ_self _), Option.bind_some]

end QuorumKeeper.Toml
