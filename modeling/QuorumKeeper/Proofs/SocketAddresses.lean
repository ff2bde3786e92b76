import QuorumKeeper.Net.Address
import QuorumKeeper.Proofs.Numerals

/-!
# Reading back written addresses

The canonical text of a socket address is read as that address (`SocketAddress.parse?_text`), in
both versions, with or without a scope. In version 6 the text leaves out the longest run of zero
groups or ends in an embedded address of version 4; the reader tries version 4 in front of every
group, so it matters that no group is followed by a point.
-/

set_option autoImplicit false

namespace QuorumKeeper.Net

open Text (Stops ne_of_class stops_cons span_run)

/-- The character is a digit in base sixteen. -/
def isHex (c : Char) : Bool :=
  (Text.hexDigit? c).isSome

/-! ## Version 4 -/

/-- A byte in decimal is read as that byte. -/
theorem readByte_decimal (b : UInt8) {more : List Char} (h : Stops Char.isDigit more) :
    readByte (Nat.toDigits 10 b.toNat ++ more) = some (b, more) := by
  obtain ⟨htake, hdrop⟩ := span_run (fun c => Text.isDigit_of_mem_decimal (n := b.toNat)) h
  have hbound : b.toNat < 256 := b.toNat_lt
  have hlength : (Nat.toDigits 10 b.toNat).length ≤ 3 :=
    (Nat.length_toDigits_le_iff (by decide) (by decide)).2 (by omega)
  have hzero : ¬((Nat.toDigits 10 b.toNat).head? = some '0' ∧
      1 < (Nat.toDigits 10 b.toNat).length) := by
    rintro ⟨hhead, hlong⟩
    obtain ⟨rest, hrest⟩ := List.head?_eq_some_iff.1 hhead
    rw [Text.eq_zero_of_decimal hrest, Text.decimal_zero] at hlong
    exact absurd hlong (by decide)
  rw [readByte, htake, hdrop, Text.valueOf_decimal]
  rw [if_neg]
  · simp
  · rintro (hempty | hlong | hlead | hlarge)
    · exact Nat.toDigits_ne_nil (List.isEmpty_iff.1 hempty)
    · omega
    · exact hzero hlead
    · omega

/-- A written address of four bytes is read as that address. -/
theorem readIpv4_chars (ip : Ipv4) {more : List Char} (h : Stops Char.isDigit more) :
    readIpv4 (ip.chars ++ more) = some (ip, more) := by
  have hpoint : ∀ s, Stops Char.isDigit ('.' :: s) := fun s => stops_cons.2 rfl
  simp [readIpv4, Ipv4.chars, readByte_decimal, hpoint, h, readChar]

/-- Without a point behind the digits at the front there is no address of version 4. -/
theorem readIpv4_eq_none {s : List Char}
    (h : ∀ c ∈ (s.dropWhile Char.isDigit).head?, c ≠ '.') : readIpv4 s = none := by
  rw [readIpv4]
  cases hbyte : readByte s with
  | none => rfl
  | some p =>
    obtain ⟨a, rest⟩ := p
    have hrest : rest = s.dropWhile Char.isDigit := by
      rw [readByte] at hbyte
      split at hbyte
      · cases hbyte
      · cases hbyte
        rfl
    have hpoint : readChar '.' rest = none := by
      cases rest with
      | nil => rfl
      | cons c rest =>
        rw [readChar, if_neg (h c (by rw [← hrest]; rfl))]
    simp [hpoint]

/-! ## Groups -/

/-- A group is one to four digits in base sixteen. -/
theorem readGroup_eq (s : List Char) :
    readGroup s =
      if (s.takeWhile isHex).isEmpty ∨ 4 < (s.takeWhile isHex).length then none
      else some ((hexValue (s.takeWhile isHex)).toUInt16, s.dropWhile isHex) :=
  rfl

/-- What may stand behind a group. -/
def Follows (s : List Char) : Prop :=
  ∀ c ∈ s.head?, isHex c = false ∧ c ≠ '.'

theorem Follows.no_point {s : List Char} (h : Follows s) :
    ∀ c ∈ (s.dropWhile Char.isDigit).head?, c ≠ '.' := by
  intro c hc
  cases s with
  | nil => cases hc
  | cons d s =>
    obtain ⟨hhex, hpoint⟩ := h d rfl
    have hdigit : ¬d.isDigit = true := fun hd => by
      have hsome : isHex d = true := Text.hexDigit?_of_isDigit hd
      exact ne_of_class hsome hhex rfl
    rw [List.dropWhile_cons_of_neg hdigit] at hc
    obtain rfl : d = c := by simpa using hc
    exact hpoint

theorem Follows.readGroup_eq_none {s : List Char} (h : Follows s) : readGroup s = none := by
  have hempty : s.takeWhile isHex = [] := by
    cases s with
    | nil => rfl
    | cons c s => simp [(h c rfl).1]
  rw [readGroup_eq, hempty]
  exact if_pos (.inl rfl)

/-- A written group is read as that group. -/
theorem readGroup_hex (g : UInt16) {more : List Char} (h : Follows more) :
    readGroup (Nat.toDigits 16 g.toNat ++ more) = some (g, more) := by
  have hstops : Stops isHex more := fun c hc => (h c hc).1
  obtain ⟨htake, hdrop⟩ := span_run (p := isHex) (fun c => Text.isSome_hexDigit?_of_mem) hstops
  have hlength : (Nat.toDigits 16 g.toNat).length ≤ 4 :=
    (Nat.length_toDigits_le_iff (by decide) (by decide)).2 g.toNat_lt
  have hvalue : hexValue (Nat.toDigits 16 g.toNat) = g.toNat := Text.foldl_hex g.toNat
  rw [readGroup_eq, htake, hdrop, hvalue, if_neg]
  · simp
  · rintro (hempty | hlong)
    · exact Nat.toDigits_ne_nil (List.isEmpty_iff.1 hempty)
    · omega

/-- The decimal digits of a group, as far as they go, are not followed by a point. -/
theorem readIpv4_hex (n : Nat) {more : List Char} (h : Follows more) :
    readIpv4 (Nat.toDigits 16 n ++ more) = none := by
  refine readIpv4_eq_none fun c hc => ?_
  rw [List.dropWhile_append] at hc
  -- either all of the number is digits and what follows counts, or a letter stops them
  split at hc
  · exact h.no_point c hc
  · rename_i hletters
    obtain ⟨d, ds, hds⟩ := List.exists_cons_of_ne_nil (mt List.isEmpty_iff.2 hletters)
    have hmem : d ∈ Nat.toDigits 16 n :=
      (List.dropWhile_suffix Char.isDigit).mem (hds ▸ List.mem_cons_self)
    have hhex : isHex d = true := Text.isSome_hexDigit?_of_mem hmem
    rw [hds] at hc
    obtain rfl : d = c := by simpa using hc
    exact ne_of_class hhex rfl

/-- What stands behind the groups of one part of an address. -/
inductive Closes : List Char → Prop where
  | zeros (rest : List Char) : Closes (':' :: ':' :: rest)
  | scope (rest : List Char) : Closes ('%' :: rest)
  | bracket (rest : List Char) : Closes (']' :: rest)

theorem Closes.follows {s : List Char} (h : Closes s) : Follows s := by
  cases h <;> simp [Follows] <;> decide

/-- The groups behind a first one, each with a colon in front. -/
def laterGroups (groups : List UInt16) : List Char :=
  groups.flatMap fun g => ':' :: Nat.toDigits 16 g.toNat

theorem groupChars_cons (g : UInt16) (rest : List UInt16) :
    groupChars (g :: rest) = Nat.toDigits 16 g.toNat ++ laterGroups rest := by
  induction rest generalizing g with
  | nil => simp [groupChars, laterGroups]
  | cons g' rest ih =>
    have hlater : laterGroups (g' :: rest) =
        ':' :: (Nat.toDigits 16 g'.toNat ++ laterGroups rest) := by
      simp [laterGroups]
    rw [hlater, ← ih g']
    rfl

/-- After a group come a colon and more groups, or the end of them. -/
theorem follows_laterGroups (groups : List UInt16) {more : List Char} (h : Closes more) :
    Follows (laterGroups groups ++ more) := by
  cases groups with
  | nil => exact h.follows
  | cons g rest => simp [Follows, laterGroups]; decide

/-- What stands where the next group is to start: behind a colon, or right here for the first. -/
def nextGroup (first : Bool) (s : List Char) : Option (List Char) :=
  if first then some s else readChar ':' s

theorem readGroups_stop {limit : Nat} {first : Bool} {s inner : List Char}
    (hinner : nextGroup first s = some inner) (h : Follows inner) :
    readGroups (limit + 1) first s = ([], false, s) := by
  have hversion4 : (if limit = 0 then none else readIpv4 inner) = none := by
    split
    · rfl
    · exact readIpv4_eq_none h.no_point
  rw [nextGroup] at hinner
  rw [readGroups, hinner]
  simp only [hversion4, h.readGroup_eq_none]

/-- A group that can be read is taken, and reading goes on behind it. -/
theorem readGroups_take {limit : Nat} {first : Bool} {g : UInt16} {s rest : List Char}
    (hinner : nextGroup first s = some (Nat.toDigits 16 g.toNat ++ rest)) (h : Follows rest) :
    readGroups (limit + 1) first s =
      (g :: (readGroups limit false rest).1, (readGroups limit false rest).2) := by
  have hversion4 :
      (if limit = 0 then none else readIpv4 (Nat.toDigits 16 g.toNat ++ rest)) = none := by
    split
    · rfl
    · exact readIpv4_hex g.toNat h
  rw [nextGroup] at hinner
  rw [readGroups, hinner]
  simp only [hversion4, readGroup_hex g h]

/-- With room for two groups, an address of version 4 is taken for them. -/
theorem readGroups_embedded {limit : Nat} {first : Bool} {ip : Ipv4} {s inner rest : List Char}
    (hinner : nextGroup first s = some inner) (hip : readIpv4 inner = some (ip, rest)) :
    readGroups (limit + 2) first s = (ip.groups, true, rest) := by
  rw [nextGroup] at hinner
  rw [readGroups, hinner]
  simp only [if_neg (Nat.succ_ne_zero limit), hip]

theorem Closes.readGroups {s : List Char} (h : Closes s) (limit : Nat) (first : Bool) :
    readGroups limit first s = ([], false, s) := by
  cases limit with
  | zero => rfl
  | succ limit =>
    cases first with
    | true => exact readGroups_stop rfl h.follows
    | false =>
      cases h with
      | zeros rest => exact readGroups_stop rfl (by simp [Follows]; decide)
      | scope rest => rfl
      | bracket rest => rfl

/-- Written groups are all read, up to what closes them. -/
theorem readGroups_later {groups : List UInt16} {limit : Nat} {more : List Char}
    (h : Closes more) (hlimit : groups.length ≤ limit) :
    readGroups limit false (laterGroups groups ++ more) = (groups, false, more) := by
  induction groups generalizing limit with
  | nil => exact h.readGroups limit false
  | cons g rest ih =>
    rw [List.length_cons] at hlimit
    obtain ⟨limit, rfl⟩ := Nat.exists_eq_succ_of_ne_zero (by omega : limit ≠ 0)
    have hinner : nextGroup false (laterGroups (g :: rest) ++ more) =
        some (Nat.toDigits 16 g.toNat ++ (laterGroups rest ++ more)) := by
      simp [nextGroup, laterGroups, readChar]
    rw [readGroups_take hinner (follows_laterGroups rest h), ih (by omega)]

/-- As many groups are read as were written, if there is room for them. -/
theorem readGroups_groupChars {groups : List UInt16} {limit : Nat} {more : List Char}
    (h : Closes more) (hlimit : groups.length ≤ limit) :
    readGroups limit true (groupChars groups ++ more) = (groups, false, more) := by
  cases groups with
  | nil => exact h.readGroups limit true
  | cons g rest =>
    rw [List.length_cons] at hlimit
    obtain ⟨limit, rfl⟩ := Nat.exists_eq_succ_of_ne_zero (by omega : limit ≠ 0)
    have hinner : nextGroup true (groupChars (g :: rest) ++ more) =
        some (Nat.toDigits 16 g.toNat ++ (laterGroups rest ++ more)) := by
      rw [groupChars_cons, List.append_assoc]
      rfl
    rw [readGroups_take hinner (follows_laterGroups rest h), readGroups_later h (by omega)]

/-! ## Version 6 -/

/-- The run that is left out consists of zeros. -/
theorem longestZeros_spec (groups : List UInt16) (start : Nat) :
    ∃ before after, groups = before ++ List.replicate (longestZeros groups start).2 0 ++ after ∧
      (longestZeros groups start).1 = start + before.length := by
  induction groups generalizing start with
  | nil => exact ⟨[], [], rfl, rfl⟩
  | cons g rest ih =>
    rw [longestZeros]
    split
    · have hzeros : (g :: rest).takeWhile (· == 0) =
          List.replicate (leadingZeros (g :: rest)) 0 :=
        List.eq_replicate_of_mem fun z hz => by simpa using List.mem_takeWhile_imp hz
      refine ⟨[], (g :: rest).dropWhile (· == 0), ?_, rfl⟩
      rw [List.nil_append, ← hzeros, List.takeWhile_append_dropWhile]
    · obtain ⟨before, after, hgroups, hstart⟩ := ih (start + 1)
      refine ⟨g :: before, after, ?_, ?_⟩
      · rw [List.cons_append, List.cons_append, ← hgroups]
      · rw [hstart, List.length_cons]
        omega

theorem ofParts?_eq {ip : Ipv6} {head tail : List UInt16}
    (h : head ++ List.replicate (8 - head.length - tail.length) 0 ++ tail = ip.groups) :
    Ipv6.ofParts? head tail = some ip := by
  have hlength : (head ++ List.replicate (8 - head.length - tail.length) 0 ++ tail).length = 8 := by
    rw [h]
    exact ip.length_eq
  obtain ⟨groups, hgroups⟩ := ip
  subst h
  rw [Ipv6.ofParts?, dif_pos hlength]

/-- The two groups of the address of version 4 that they are shown as. -/
theorem groups_ofBytes (hi lo : UInt16) :
    Ipv4.groups ⟨(hi.toNat / 256).toUInt8, hi.toNat.toUInt8, (lo.toNat / 256).toUInt8,
      lo.toNat.toUInt8⟩ = [hi, lo] := by
  have hjoin : ∀ g : UInt16,
      ((g.toNat / 256).toUInt8.toNat * 256 + g.toNat.toUInt8.toNat).toUInt16 = g := by
    intro g
    have hbound : g.toNat < 65536 := g.toNat_lt
    have hvalue : (g.toNat / 256).toUInt8.toNat * 256 + g.toNat.toUInt8.toNat = g.toNat := by
      simp only [Nat.toUInt8, UInt8.toNat_ofNat']
      omega
    rw [hvalue]
    exact UInt16.ofNat_toNat
  rw [Ipv4.groups]
  simp only [hjoin]

theorem Closes.stops_isDigit {s : List Char} (h : Closes s) : Stops Char.isDigit s := by
  cases h <;> exact stops_cons.2 rfl

/-- A run of zeros is read where it was left out. -/
theorem readIpv6_zeros {ip : Ipv6} {before after : List UInt16} {embedded : Bool}
    {s more : List Char} (hlength : before.length ≤ 6)
    (hafter : readGroups (8 - (before.length + 1)) true s = (after, embedded, more))
    (hip : before ++ List.replicate (8 - before.length - after.length) 0 ++ after = ip.groups) :
    readIpv6 (groupChars before ++ ':' :: ':' :: s) = some (ip, more) := by
  rw [readIpv6, readGroups_groupChars (.zeros s) (by omega)]
  simp only [if_neg (by omega : before.length ≠ 8), hafter, ofParts?_eq hip]
  rfl

/-- The groups `ffff` and an address of version 4 behind it. -/
theorem readGroups_mapped (ip : Ipv4) {more : List Char} (h : Closes more) :
    readGroups 7 true ('f' :: 'f' :: 'f' :: 'f' :: ':' :: (ip.chars ++ more)) =
      (0xffff :: ip.groups, true, more) := by
  have hfirst : nextGroup true ('f' :: 'f' :: 'f' :: 'f' :: ':' :: (ip.chars ++ more)) =
      some (Nat.toDigits 16 (0xffff : UInt16).toNat ++ ':' :: (ip.chars ++ more)) := rfl
  have hsecond : nextGroup false (':' :: (ip.chars ++ more)) = some (ip.chars ++ more) := rfl
  have hcolon : Follows (':' :: (ip.chars ++ more)) := by
    simp [Follows]
    decide
  rw [readGroups_take hfirst hcolon,
    readGroups_embedded hsecond (readIpv4_chars ip h.stops_isDigit)]

/-- A written address of eight groups is read as that address. -/
theorem readIpv6_chars (ip : Ipv6) {more : List Char} (h : Closes more) :
    readIpv6 (ip.chars ++ more) = some (ip, more) := by
  rw [Ipv6.chars]
  split
  · -- an embedded address, behind five groups that are left out and `ffff`
    rename_i hi lo hgroups
    have hbytes := groups_ofBytes hi lo
    generalize Ipv4.mk (hi.toNat / 256).toUInt8 hi.toNat.toUInt8 (lo.toNat / 256).toUInt8
      lo.toNat.toUInt8 = version4 at hbytes ⊢
    have hnone : ([] : List UInt16).length ≤ 6 := Nat.zero_le 6
    have hip : [] ++ List.replicate (8 - 0 - (0xffff :: version4.groups).length) 0 ++
        0xffff :: version4.groups = ip.groups := by
      rw [hbytes, hgroups]
      rfl
    exact readIpv6_zeros hnone (readGroups_mapped version4 h) hip
  · obtain ⟨before, after, hgroups, hstart⟩ := longestZeros_spec ip.groups 0
    have hlength := ip.length_eq
    rw [Nat.zero_add] at hstart
    generalize longestZeros ip.groups 0 = run at hgroups hstart
    obtain ⟨start, length⟩ := run
    simp only at hgroups hstart ⊢
    subst hstart
    split
    · -- the groups that are left out are those missing from eight
      rename_i hlong
      have hsum : before.length + length + after.length = 8 := by
        rw [← hlength, hgroups]
        simp
        omega
      have hbefore : ip.groups.take before.length = before := by
        rw [hgroups, List.append_assoc, List.take_left]
      have hafter : ip.groups.drop (before.length + length) = after := by
        rw [hgroups]
        exact List.drop_left' (by simp)
      rw [hbefore, hafter, List.append_assoc, List.cons_append, List.cons_append]
      refine readIpv6_zeros (by omega) (readGroups_groupChars h (by omega)) ?_
      rw [show 8 - before.length - after.length = length by omega]
      exact hgroups.symm
    · have hparts : Ipv6.ofParts? ip.groups [] = some ip := ofParts?_eq (by simp [hlength])
      rw [readIpv6, readGroups_groupChars h (by omega)]
      simp only [if_pos hlength, hparts]
      rfl

/-! ## Addresses with ports -/

/-- A number within the bound is read as written. -/
theorem readNumber_decimal {n bound : Nat} (hn : n ≤ bound) {more : List Char}
    (h : Stops Char.isDigit more) :
    readNumber bound (Nat.toDigits 10 n ++ more) = some (n, more) := by
  obtain ⟨htake, hdrop⟩ := span_run (fun c => Text.isDigit_of_mem_decimal) h
  rw [readNumber, htake, hdrop, Text.valueOf_decimal, if_neg]
  rintro (hempty | hlarge)
  · exact Nat.toDigits_ne_nil (List.isEmpty_iff.1 hempty)
  · omega

/-- A written port is read as that port. -/
theorem readPort_decimal (port : UInt16) :
    readPort (':' :: Nat.toDigits 10 port.toNat) = some port := by
  have hbound : port.toNat ≤ 65535 := Nat.le_of_lt_succ port.toNat_lt
  have hread := readNumber_decimal hbound (Text.stops_nil Char.isDigit)
  rw [List.append_nil] at hread
  simp [readPort, readChar, hread]

/-- The scope of an address, if it has one, and the bracket behind it. -/
def zoneChars (scope : UInt32) : List Char :=
  if scope = 0 then [] else '%' :: Nat.toDigits 10 scope.toNat

/-- A written zone is read as that zone. -/
theorem readScope_zoneChars (scope : UInt32) (more : List Char) :
    readScope (zoneChars scope ++ ']' :: more) = (scope, ']' :: more) := by
  rw [zoneChars]
  split
  · rename_i hzero
    rw [hzero]
    rfl
  · have hbound : scope.toNat ≤ 4294967295 := Nat.le_of_lt_succ scope.toNat_lt
    have hread := readNumber_decimal hbound (stops_cons.2 rfl : Stops Char.isDigit (']' :: more))
    simp [readScope, readChar, hread]

theorem closes_zoneChars (scope : UInt32) (more : List Char) :
    Closes (zoneChars scope ++ ']' :: more) := by
  rw [zoneChars]
  split
  · exact .bracket more
  · exact .scope _

/-- The text of an address is read as the address. -/
theorem SocketAddress.parse?_text (a : SocketAddress) : parse? a.text = some a := by
  rw [parse?, text, String.toList_ofList, read?]
  cases a with
  | v4 ip port =>
    have hip := readIpv4_chars ip (stops_cons.2 rfl :
      Stops Char.isDigit (':' :: Nat.toDigits 10 port.toNat))
    have hread : readSocketV4 (chars (.v4 ip port)) = some (.v4 ip port) := by
      simp [readSocketV4, chars, hip, readPort_decimal]
    rw [hread, Option.some_or]
  | v6 ip scope port =>
    have hchars : chars (.v6 ip scope port) =
        '[' :: (ip.chars ++ (zoneChars scope ++ ']' :: ':' :: Nat.toDigits 10 port.toNat)) := by
      simp [chars, zoneChars]
    have hip := readIpv6_chars ip
      (closes_zoneChars scope (':' :: Nat.toDigits 10 port.toNat))
    have hfirst : readSocketV4 (chars (.v6 ip scope port)) = none := by
      rw [hchars]
      rfl
    have hread : readSocketV6 (chars (.v6 ip scope port)) = some (.v6 ip scope port) := by
      rw [hchars]
      simp [readSocketV6, readChar, hip, readScope_zoneChars, readPort_decimal]
    rw [hfirst, hread, Option.none_or]

end QuorumKeeper.Net
