import QuorumKeeper.Wire.Record
import Mathlib.Algebra.Ring.Nat
import Mathlib.Data.List.Basic

/-!
# Reading and writing records

A reader of the wire takes a part off the front of its input and does not look any further: `Takes`
says so of one part, whatever follows it. What a writer writes is such a part (`*_write`), and so is
everything that a reader has ever read (`Sequential`). `Holds` is the relation between bytes and the
records in them. It needs no bound on the number of records, and joins under appending
(`Holds.append_iff`).
-/

set_option autoImplicit false

namespace QuorumKeeper.Wire

variable {α β : Type}

/-- Whatever follows it, the reader takes off this part and gives this value. -/
def Takes (read : Bytes → Option (α × Bytes)) (part : Bytes) (a : α) : Prop :=
  ∀ more, read (part ++ more) = some (a, more)

/-- The reader reads nothing but parts that stand for themselves. -/
def Sequential (read : Bytes → Option (α × Bytes)) : Prop :=
  ∀ s a rest, read s = some (a, rest) → ∃ part, s = part ++ rest ∧ Takes read part a

/-- The skipper passes over nothing but parts that stand for themselves. -/
def Skips (skip : Bytes → Option Bytes) : Prop :=
  ∀ s rest, skip s = some rest → ∃ part, s = part ++ rest ∧ ∀ more, skip (part ++ more) = some more

/-- A reader that cannot do without input takes some. -/
theorem Takes.ne_nil {read : Bytes → Option (α × Bytes)} {part : Bytes} {a : α}
    (h : Takes read part a) (hnil : read [] = none) : part ≠ [] := by
  rintro rfl
  have hempty := h []
  rw [List.append_nil, hnil] at hempty
  cases hempty

/-- What a sequential reader reads can be changed. -/
theorem Sequential.map {read : Bytes → Option (α × Bytes)} (h : Sequential read) (f : α → β) :
    Sequential fun s => (read s).map fun (a, rest) => (f a, rest) := by
  intro s b rest hmap
  obtain ⟨⟨a, rest'⟩, hread, heq⟩ := Option.map_eq_some_iff.1 hmap
  cases heq
  obtain ⟨part, rfl, hpart⟩ := h s a rest hread
  refine ⟨part, rfl, fun more => ?_⟩
  simp only [hpart more, Option.map_some]

/-- To skip what a sequential reader reads is to skip. -/
theorem Sequential.skips {read : Bytes → Option (α × Bytes)} (h : Sequential read) :
    Skips fun s => (read s).map (·.2) := by
  intro s rest hskip
  obtain ⟨⟨a, rest'⟩, hread, rfl⟩ := Option.map_eq_some_iff.1 hskip
  obtain ⟨part, rfl, hpart⟩ := h s a rest' hread
  refine ⟨part, rfl, fun more => ?_⟩
  simp only [hpart more, Option.map_some]

theorem Skips.map {skip : Bytes → Option Bytes} (h : Skips skip) (a : α) :
    Sequential fun s => (skip s).map (a, ·) := by
  intro s b rest hmap
  obtain ⟨rest', hskip, heq⟩ := Option.map_eq_some_iff.1 hmap
  cases heq
  obtain ⟨part, rfl, hpart⟩ := h s rest hskip
  refine ⟨part, rfl, fun more => ?_⟩
  simp only [hpart more, Option.map_some]

/-! ## Numbers -/

/-- The bytes give the number in groups of seven bits, the lowest first; every byte but the last has
its top bit set. Groups of zeros may stand at the end, so a number has several spellings. -/
inductive Groups : Bytes → Nat → Prop where
  | last {b : UInt8} (ends : b.toNat < 128) : Groups [b] b.toNat
  | more {b : UInt8} {rest : Bytes} {n : Nat} (goesOn : 128 ≤ b.toNat) (others : Groups rest n) :
      Groups (b :: rest) (b.toNat - 128 + 128 * n)

/-- The bytes spell a number of 64 bits. There are ten of them at most. -/
structure Spelling (s : Bytes) (n : Nat) : Prop where
  groups : Groups s n
  length_le : s.length ≤ 10
  bound : n < 2 ^ 64

theorem Groups.length_pos {s : Bytes} {n : Nat} (h : Groups s n) : 0 < s.length := by
  cases h with
  | last ends => exact Nat.zero_lt_one
  | more goesOn others => exact Nat.zero_lt_succ _

/-- With room for one more byte the bound grows by seven bits. -/
theorem Groups.takes {s : Bytes} {n : Nat} (h : Groups s n) (room : Nat)
    (hlength : s.length ≤ room + 1) (hbound : n < 2 * 128 ^ room) :
    Takes (readVarintWithin (room + 1)) s n := by
  induction h generalizing room with
  | @last b ends =>
    intro more
    rw [List.singleton_append, readVarintWithin, if_pos ends, if_neg]
    -- the tenth byte holds the last one of 64 bits
    rintro ⟨rfl, htwo⟩
    omega
  | @more b rest n goesOn others ih =>
    intro more
    have hpos := others.length_pos
    rw [List.length_cons, Nat.add_le_add_iff_right] at hlength
    obtain ⟨room, rfl⟩ := Nat.exists_eq_succ_of_ne_zero (by omega : room ≠ 0)
    have hrest : n < 2 * 128 ^ room := by
      rw [Nat.pow_succ] at hbound
      omega
    rw [List.cons_append, readVarintWithin, if_neg (by omega), ih room hlength hrest]

/-- Every spelling of a number is read as that number. -/
theorem Spelling.takes {s : Bytes} {n : Nat} (h : Spelling s n) : Takes readVarint s n :=
  h.groups.takes 9 h.length_le h.bound

/-- A written number is made of groups. -/
theorem groups_write (n : Nat) : Groups (writeVarint n) n := by
  induction n using Nat.strongRecOn with
  | ind n ih =>
    rw [writeVarint]
    by_cases hsmall : n < 128
    · have hbyte : n.toUInt8.toNat = n := by
        rw [Nat.toUInt8, UInt8.toNat_ofNat']
        omega
      rw [if_pos hsmall]
      have hlast : Groups [n.toUInt8] n.toUInt8.toNat := .last (by omega)
      rwa [hbyte] at hlast
    · have hbyte : (n % 128 + 128).toUInt8.toNat = n % 128 + 128 := by
        rw [Nat.toUInt8, UInt8.toNat_ofNat']
        omega
      rw [if_neg hsmall]
      have hmore := Groups.more (b := (n % 128 + 128).toUInt8) (by omega) (ih (n / 128) (by omega))
      have hvalue : n % 128 + 128 - 128 + 128 * (n / 128) = n := by omega
      rwa [hbyte, hvalue] at hmore

/-- The length of a written number, in groups of seven bits. -/
theorem length_writeVarint_le (room : Nat) {n : Nat} (h : n < 2 * 128 ^ room) :
    (writeVarint n).length ≤ room + 1 := by
  induction room generalizing n with
  | zero =>
    rw [writeVarint, if_pos (by omega)]
    exact Nat.le_refl 1
  | succ room ih =>
    rw [writeVarint]
    split
    · exact Nat.le_add_left 1 _
    · have hrest : n / 128 < 2 * 128 ^ room := by
        rw [Nat.pow_succ] at h
        omega
      exact Nat.succ_le_succ (ih hrest)

/-- The written form of a number is one of its spellings. -/
theorem spelling_write {n : Nat} (h : n < 2 ^ 64) : Spelling (writeVarint n) n :=
  ⟨groups_write n, length_writeVarint_le 9 h, h⟩

theorem readVarintWithin_sequential (room : Nat) : Sequential (readVarintWithin room) := by
  intro s n rest h
  induction room generalizing s n with
  | zero => cases h
  | succ room ih =>
    cases s with
    | nil => cases h
    | cons b s =>
      rw [readVarintWithin] at h
      by_cases hlast : b.toNat < 128
      · rw [if_pos hlast] at h
        by_cases hover : room = 0 ∧ 2 ≤ b.toNat
        · rw [if_pos hover] at h
          cases h
        · rw [if_neg hover] at h
          cases h
          refine ⟨[b], rfl, fun more => ?_⟩
          rw [List.singleton_append, readVarintWithin, if_pos hlast, if_neg hover]
      · rw [if_neg hlast] at h
        cases htail : readVarintWithin room s with
        | none =>
          rw [htail] at h
          cases h
        | some p =>
          rw [htail] at h
          cases h
          obtain ⟨part, rfl, hpart⟩ := ih s p.1 htail
          refine ⟨b :: part, rfl, fun more => ?_⟩
          rw [List.cons_append, readVarintWithin, if_neg hlast, hpart more]

/-- Numbers are read from the front alone. -/
theorem readVarint_sequential : Sequential readVarint :=
  readVarintWithin_sequential 10

/-! ## Keys and payloads -/

/-- The bytes are the key of a field: they spell its number and the form of its content. -/
structure IsKey (number : Nat) (form : Form) (key : Bytes) : Prop where
  low : 1 ≤ number
  high : number < 2 ^ 29
  spelling : Spelling key (8 * number + form.code)

/-- A written key is a key. -/
theorem isKey_write {number : Nat} (form : Form) (hlow : 1 ≤ number) (hhigh : number < 2 ^ 29) :
    IsKey number form (writeKey number form) := by
  have hcode : form.code < 8 := by cases form <;> decide
  exact ⟨hlow, hhigh, spelling_write (by omega)⟩

/-- Every spelling of a key is read as that key. -/
theorem IsKey.read {number : Nat} {form : Form} {key : Bytes} (h : IsKey number form key)
    (more : Bytes) : readKey (key ++ more) = some (number, form, more) := by
  have hcode : form.code < 8 := by cases form <;> decide
  have hkey : 8 * number + form.code < 2 ^ 32 := by
    have := h.high
    omega
  have hform : (8 * number + form.code) % 8 = form.code := by omega
  have hnumber : (8 * number + form.code) / 8 = number := by omega
  rw [readKey, h.spelling.takes more]
  simp only [hform, Form.ofCode?_code, hnumber]
  exact if_pos ⟨hkey, h.low⟩

theorem IsKey.ne_nil {number : Nat} {form : Form} {key : Bytes} (h : IsKey number form key) :
    key ≠ [] :=
  List.length_pos_iff.1 h.spelling.groups.length_pos

/-- A key that is read is a part at the front. -/
theorem readKey_part {s rest : Bytes} {number : Nat} {form : Form}
    (h : readKey s = some (number, form, rest)) :
    ∃ part, part ≠ [] ∧ s = part ++ rest ∧
      ∀ more, readKey (part ++ more) = some (number, form, more) := by
  rw [readKey] at h
  cases hkey : readVarint s with
  | none =>
    rw [hkey] at h
    cases h
  | some p =>
    obtain ⟨key, rest'⟩ := p
    obtain ⟨part, rfl, hpart⟩ := readVarint_sequential s key rest' hkey
    rw [hkey] at h
    simp only at h
    cases hform : Form.ofCode? (key % 8) with
    | none =>
      rw [hform] at h
      cases h
    | some f =>
      rw [hform] at h
      simp only at h
      split at h
      · rename_i hbounds
        cases h
        refine ⟨part, hpart.ne_nil rfl, rfl, fun more => ?_⟩
        rw [readKey, hpart more]
        simp only [hform]
        exact if_pos hbounds
      · cases h

theorem splitBytes_append (b more : Bytes) : splitBytes b.length (b ++ more) = some (b, more) := by
  rw [splitBytes, if_pos (by simp), List.take_left, List.drop_left]

theorem splitBytes_sequential (n : Nat) : Sequential (splitBytes n) := by
  intro s b rest h
  rw [splitBytes] at h
  split at h
  · rename_i hle
    cases h
    refine ⟨s.take n, (List.take_append_drop n s).symm, fun more => ?_⟩
    have hlength : (s.take n).length = n := List.length_take_of_le hle
    have hread := splitBytes_append (s.take n) more
    rwa [hlength] at hread
  · cases h

/-- Bytes behind any spelling of their count are read as those bytes. -/
theorem readBytes_spelling {size b : Bytes} (h : Spelling size b.length) :
    Takes readBytes (size ++ b) b := by
  intro more
  rw [readBytes, List.append_assoc, h.takes]
  exact splitBytes_append b more

theorem readBytes_sequential : Sequential readBytes := by
  intro s b rest h
  rw [readBytes] at h
  cases hsize : readVarint s with
  | none =>
    rw [hsize] at h
    cases h
  | some p =>
    obtain ⟨n, rest'⟩ := p
    obtain ⟨size, rfl, hreadSize⟩ := readVarint_sequential s n rest' hsize
    rw [hsize] at h
    obtain ⟨part, rfl, hpart⟩ := splitBytes_sequential n rest' b rest h
    refine ⟨size ++ part, by rw [List.append_assoc], fun more => ?_⟩
    rw [readBytes, List.append_assoc, hreadSize]
    exact hpart more

/-! ## Reading past fields -/

/-- The end of a group counts only under the number of the group. -/
theorem skipGroup_end {skip : Nat → Form → Bytes → Option Bytes} {number fuel inner : Nat}
    {s rest : Bytes} (hkey : readKey s = some (inner, .endGroup, rest)) :
    skipGroup skip number (fuel + 1) s = if inner = number then some rest else none := by
  rw [skipGroup, hkey]

/-- Any other field of a group is read past, and the search for the end goes on behind it. -/
theorem skipGroup_field {skip : Nat → Form → Bytes → Option Bytes} {number fuel inner : Nat}
    {form : Form} {s rest : Bytes} (hkey : readKey s = some (inner, form, rest))
    (hform : form ≠ .endGroup) :
    skipGroup skip number (fuel + 1) s =
      (skip inner form rest).bind (skipGroup skip number fuel) := by
  rw [skipGroup, hkey]
  cases hskip : skip inner form rest <;> cases form <;>
    first | exact absurd rfl hform | simp only [hskip, Option.bind_none, Option.bind_some]

/-- A group ends where it ends, however much is left to look through. -/
theorem skipGroup_part {skip : Nat → Form → Bytes → Option Bytes}
    (hskip : ∀ number form, Skips (skip number form)) {number fuel : Nat} {s rest : Bytes}
    (h : skipGroup skip number fuel s = some rest) :
    ∃ part, s = part ++ rest ∧ ∀ more fuel', part.length ≤ fuel' →
      skipGroup skip number fuel' (part ++ more) = some more := by
  induction fuel generalizing s with
  | zero => cases h
  | succ fuel ih =>
    cases hkey : readKey s with
    | none =>
      rw [skipGroup, hkey] at h
      cases h
    | some k =>
      obtain ⟨inner, form, rest₁⟩ := k
      obtain ⟨key, hne, rfl, hreadKey⟩ := readKey_part hkey
      have hpos : 0 < key.length := List.length_pos_iff.2 hne
      by_cases hend : form = .endGroup
      · subst hend
        rw [skipGroup_end hkey] at h
        by_cases hnumber : inner = number
        · rw [if_pos hnumber] at h
          cases h
          refine ⟨key, rfl, fun more fuel' hfuel => ?_⟩
          obtain ⟨fuel', rfl⟩ := Nat.exists_eq_succ_of_ne_zero (by omega : fuel' ≠ 0)
          rw [skipGroup_end (hreadKey more), if_pos hnumber]
        · rw [if_neg hnumber] at h
          cases h
      · rw [skipGroup_field hkey hend] at h
        obtain ⟨rest₂, hinner, hrest⟩ := Option.bind_eq_some_iff.1 h
        obtain ⟨field, rfl, hskipField⟩ := hskip inner form rest₁ rest₂ hinner
        obtain ⟨tail, rfl, htail⟩ := ih hrest
        refine ⟨key ++ (field ++ tail), by simp only [List.append_assoc], ?_⟩
        intro more fuel' hfuel
        simp only [List.length_append] at hfuel
        obtain ⟨fuel', rfl⟩ := Nat.exists_eq_succ_of_ne_zero (by omega : fuel' ≠ 0)
        rw [List.append_assoc, skipGroup_field (hreadKey _) hend, List.append_assoc,
          hskipField, Option.bind_some]
        exact htail more fuel' (by omega)

/-- A field is skipped from the front alone. -/
theorem skipField_skips (depth number : Nat) (form : Form) : Skips (skipField depth number form) := by
  induction depth generalizing number form with
  | zero =>
    intro s rest h
    cases h
  | succ depth ih =>
    cases form with
    | varint => exact readVarint_sequential.skips
    | fixed64 => exact (splitBytes_sequential 8).skips
    | bytes => exact readBytes_sequential.skips
    | startGroup =>
      intro s rest h
      obtain ⟨part, hsplit, hpart⟩ := skipGroup_part ih h
      refine ⟨part, hsplit, fun more => ?_⟩
      exact hpart more (part ++ more).length (by simp)
    | endGroup =>
      intro s rest h
      cases h
    | fixed32 => exact (splitBytes_sequential 4).skips

/-! ## Records -/

/-- A record whose number and payload can be written. -/
structure Record.Writable (r : Record) : Prop where
  low : 1 ≤ r.number
  high : r.number < 2 ^ 29
  payload : (∃ n, r.payload = .varint n) ∨ ∃ b : Bytes, r.payload = .bytes b ∧ b.length < 2 ^ 64

/-- A written record is read as that record. -/
theorem readRecord_write {r : Record} (h : r.Writable) (depth : Nat) :
    Takes (readRecord depth) (writeRecord r) r := by
  intro more
  obtain ⟨number, payload⟩ := r
  rcases h.payload with ⟨n, rfl⟩ | ⟨b, rfl, hsize⟩
  · rw [readRecord, writeRecord]
    simp only [List.append_assoc, (isKey_write .varint h.low h.high).read]
    rw [(spelling_write n.toNat_lt).takes]
    simp
  · rw [readRecord, writeRecord]
    simp only [List.append_assoc, (isKey_write .bytes h.low h.high).read]
    rw [← List.append_assoc, readBytes_spelling (spelling_write hsize)]
    rfl

/-- Behind its key, a record is read by a reader that the form of its payload determines. -/
theorem takes_behind_key {depth : Nat} {key rest₁ rest : Bytes} {r : Record}
    {read : Bytes → Option (Record × Bytes)} (hread : Sequential read)
    (hkey : ∀ more, readRecord depth (key ++ more) = read more) (h : read rest₁ = some (r, rest)) :
    ∃ part, key ++ rest₁ = part ++ rest ∧ Takes (readRecord depth) part r := by
  obtain ⟨part, rfl, hpart⟩ := hread rest₁ r rest h
  refine ⟨key ++ part, by rw [List.append_assoc], fun more => ?_⟩
  rw [List.append_assoc, hkey]
  exact hpart more

/-- Records are read from the front alone. -/
theorem readRecord_sequential (depth : Nat) : Sequential (readRecord depth) := by
  intro s r rest h
  rw [readRecord] at h
  cases hkey : readKey s with
  | none =>
    rw [hkey] at h
    cases h
  | some k =>
    obtain ⟨number, form, rest₁⟩ := k
    obtain ⟨key, -, rfl, hreadKey⟩ := readKey_part hkey
    have hskip := skipField_skips depth number form
    rw [hkey] at h
    cases form with
    | varint =>
      refine takes_behind_key
        (readVarint_sequential.map fun n => ⟨number, .varint n.toUInt64⟩) (fun more => ?_) h
      rw [readRecord, hreadKey]
    | fixed64 =>
      refine takes_behind_key (hskip.map _) (fun more => ?_) h
      rw [readRecord, hreadKey]
    | bytes =>
      refine takes_behind_key
        (readBytes_sequential.map fun b => ⟨number, .bytes b⟩) (fun more => ?_) h
      rw [readRecord, hreadKey]
    | startGroup =>
      refine takes_behind_key (hskip.map _) (fun more => ?_) h
      rw [readRecord, hreadKey]
    | endGroup => cases h
    | fixed32 =>
      refine takes_behind_key (hskip.map _) (fun more => ?_) h
      rw [readRecord, hreadKey]

/-- The bytes are these records, one after the other. -/
inductive Holds (depth : Nat) : Bytes → List Record → Prop where
  | nil : Holds depth [] []
  | cons {part rest : Bytes} {r : Record} {records : List Record}
      (first : Takes (readRecord depth) part r) (others : Holds depth rest records) :
      Holds depth (part ++ rest) (r :: records)

theorem takes_readRecord_ne_nil {depth : Nat} {part : Bytes} {r : Record}
    (h : Takes (readRecord depth) part r) : part ≠ [] :=
  h.ne_nil rfl

theorem holds_nil_iff {depth : Nat} {records : List Record} :
    Holds depth [] records ↔ records = [] := by
  constructor
  · intro h
    generalize hs : ([] : Bytes) = s at h
    cases h with
    | nil => rfl
    | cons first _ => exact absurd (List.append_eq_nil_iff.1 hs.symm).1 (takes_readRecord_ne_nil first)
  · rintro rfl
    exact .nil

/-- What bytes hold is the record that is read from them, and what the bytes behind it hold. -/
theorem holds_iff_of_ne_nil {depth : Nat} {s : Bytes} {records : List Record} (hs : s ≠ []) :
    Holds depth s records ↔ ∃ r rest others, readRecord depth s = some (r, rest) ∧
      Holds depth rest others ∧ records = r :: others := by
  constructor
  · intro h
    cases h with
    | nil => exact absurd rfl hs
    | cons first others => exact ⟨_, _, _, first _, others, rfl⟩
  · rintro ⟨r, rest, others, hread, hothers, rfl⟩
    obtain ⟨part, rfl, hpart⟩ := readRecord_sequential depth s r rest hread
    exact .cons hpart hothers

/-- What is behind known records is held on its own. -/
theorem Holds.append_iff {depth : Nat} {s t : Bytes} {records all : List Record}
    (h : Holds depth s records) :
    Holds depth (s ++ t) all ↔ ∃ behind, Holds depth t behind ∧ all = records ++ behind := by
  induction h generalizing all with
  | nil => simp
  | @cons part rest r records first _ ih =>
    have hne : part ++ (rest ++ t) ≠ [] := by simp [takes_readRecord_ne_nil first]
    rw [List.append_assoc, holds_iff_of_ne_nil hne, first (rest ++ t)]
    constructor
    · rintro ⟨r', rest', others, heq, hothers, rfl⟩
      cases heq
      obtain ⟨behind, hbehind, rfl⟩ := ih.1 hothers
      exact ⟨behind, hbehind, rfl⟩
    · rintro ⟨behind, hbehind, rfl⟩
      exact ⟨r, rest ++ t, records ++ behind, rfl, ih.2 ⟨behind, hbehind, rfl⟩, rfl⟩

/-- A bound of one record for every byte is enough. -/
theorem readRecordsWithin_iff {depth fuel : Nat} {s : Bytes} {records : List Record}
    (hfuel : s.length ≤ fuel) :
    readRecordsWithin depth fuel s = some records ↔ Holds depth s records := by
  induction fuel generalizing s records with
  | zero =>
    obtain rfl := List.length_eq_zero_iff.1 (Nat.le_zero.1 hfuel)
    rw [holds_nil_iff, readRecordsWithin, Option.some.injEq, eq_comm]
  | succ fuel ih =>
    cases s with
    | nil => rw [holds_nil_iff, readRecordsWithin, Option.some.injEq, eq_comm]
    | cons b s =>
      rw [holds_iff_of_ne_nil (List.cons_ne_nil b s)]
      simp only [readRecordsWithin]
      cases hread : readRecord depth (b :: s) with
      | none => simp
      | some p =>
        obtain ⟨r, rest⟩ := p
        -- every record takes at least one byte, so the bound is still enough for the rest
        obtain ⟨part, hsplit, hpart⟩ := readRecord_sequential depth (b :: s) r rest hread
        have hpos : 0 < part.length := List.length_pos_iff.2 (takes_readRecord_ne_nil hpart)
        have hrest : rest.length ≤ fuel := by
          rw [hsplit, List.length_append] at hfuel
          omega
        simp only [Option.map_eq_some_iff, ih hrest]
        constructor
        · rintro ⟨others, hothers, rfl⟩
          exact ⟨r, rest, others, rfl, hothers, rfl⟩
        · rintro ⟨r', rest', others, heq, hothers, rfl⟩
          cases heq
          exact ⟨others, hothers, rfl⟩

/-- Bytes are read as records exactly if they hold them, one after the other. -/
theorem readRecords_iff {depth : Nat} {s : Bytes} {records : List Record} :
    readRecords depth s = some records ↔ Holds depth s records :=
  readRecordsWithin_iff (Nat.le_refl _)

/-- Written records are held by what is written. -/
theorem holds_write {records : List Record} (h : ∀ r ∈ records, r.Writable) (depth : Nat) :
    Holds depth (records.flatMap writeRecord) records := by
  induction records with
  | nil => exact .nil
  | cons r rest ih =>
    rw [List.flatMap_cons]
    exact .cons (readRecord_write (h r List.mem_cons_self) depth)
      (ih fun r hr => h r (List.mem_cons_of_mem _ hr))

end QuorumKeeper.Wire
