import QuorumKeeper.Text.Numeral

/-!
# Socket addresses

An internet address of version 4 or 6 with a port. Reading accepts the usual text forms and nothing
around them; writing is canonical: in version 6 the longest run of at least two zero groups is cut
out (the first of several), and an embedded version 4 address is written in its dotted form.
-/

set_option autoImplicit false

namespace QuorumKeeper.Net

/-- An address of version 4: four bytes. -/
structure Ipv4 where
  a : UInt8
  b : UInt8
  c : UInt8
  d : UInt8
  deriving DecidableEq, Repr, Inhabited

/-- An address of version 6: eight groups of sixteen bits. -/
structure Ipv6 where
  groups : List UInt16
  length_eq : groups.length = 8
  deriving DecidableEq, Repr

/-- An address with a port; version 6 has a scope as well, zero when there is none. -/
inductive SocketAddress where
  | v4 (ip : Ipv4) (port : UInt16)
  | v6 (ip : Ipv6) (scope : UInt32) (port : UInt16)
  deriving DecidableEq, Repr

/-! ## Writing -/

/-- Four numbers with points between them. -/
def Ipv4.chars (ip : Ipv4) : List Char :=
  Nat.toDigits 10 ip.a.toNat ++ '.' :: Nat.toDigits 10 ip.b.toNat ++
    '.' :: Nat.toDigits 10 ip.c.toNat ++ '.' :: Nat.toDigits 10 ip.d.toNat

/-- Groups with colons between them. -/
def groupChars : List UInt16 → List Char
  | [] => []
  | [g] => Nat.toDigits 16 g.toNat
  | g :: rest => Nat.toDigits 16 g.toNat ++ ':' :: groupChars rest

/-- The number of zero groups at the front. -/
def leadingZeros (groups : List UInt16) : Nat :=
  (groups.takeWhile (· == 0)).length

/-- The first of the longest runs of zero groups: where it starts, counted from `start`, and its
length. -/
def longestZeros : (groups : List UInt16) → (start : Nat) → Nat × Nat
  | [], start => (start, 0)
  | g :: rest, start =>
    let later := longestZeros rest (start + 1)
    let here := leadingZeros (g :: rest)
    if 0 < here ∧ later.2 ≤ here then (start, here) else later

/-- The address with its longest run of zero groups cut out. -/
def Ipv6.chars (ip : Ipv6) : List Char :=
  match ip.groups with
  | [0, 0, 0, 0, 0, 0xffff, hi, lo] =>
    "::ffff:".toList ++ Ipv4.chars
      ⟨(hi.toNat / 256).toUInt8, hi.toNat.toUInt8, (lo.toNat / 256).toUInt8, lo.toNat.toUInt8⟩
  | groups =>
    let (start, length) := longestZeros groups 0
    if 1 < length then
      groupChars (groups.take start) ++ ':' :: ':' :: groupChars (groups.drop (start + length))
    else groupChars groups

/-- The address and the port, with a colon between them. -/
def SocketAddress.chars : SocketAddress → List Char
  | v4 ip port => ip.chars ++ ':' :: Nat.toDigits 10 port.toNat
  | v6 ip scope port =>
    let zone := if scope = 0 then [] else '%' :: Nat.toDigits 10 scope.toNat
    '[' :: ip.chars ++ zone ++ ']' :: ':' :: Nat.toDigits 10 port.toNat

/-- The canonical text of an address. -/
def SocketAddress.text (a : SocketAddress) : String :=
  String.ofList a.chars

/-! ## Reading -/

/-- One given character. -/
def readChar (c : Char) : List Char → Option (List Char)
  | [] => none
  | d :: rest => if d = c then some rest else none

/-- A byte in decimal, of at most three digits and without leading zeros. -/
def readByte (s : List Char) : Option (UInt8 × List Char) :=
  let digits := s.takeWhile Char.isDigit
  let n := Text.valueOf digits
  if digits.isEmpty ∨ 3 < digits.length ∨ (digits.head? = some '0' ∧ 1 < digits.length) ∨ 255 < n
  then none
  else some (n.toUInt8, s.dropWhile Char.isDigit)

/-- Four bytes with points between them. -/
def readIpv4 (s : List Char) : Option (Ipv4 × List Char) := do
  let (a, s) ← readByte s
  let (b, s) ← readByte (← readChar '.' s)
  let (c, s) ← readByte (← readChar '.' s)
  let (d, s) ← readByte (← readChar '.' s)
  return (⟨a, b, c, d⟩, s)

/-- The value of a run of digits in base sixteen. -/
def hexValue (digits : List Char) : Nat :=
  digits.foldl (fun n c => 16 * n + (Text.hexDigit? c).getD 0) 0

/-- A group of one to four digits in base sixteen. -/
def readGroup (s : List Char) : Option (UInt16 × List Char) :=
  let isHex := fun c => (Text.hexDigit? c).isSome
  let digits := s.takeWhile isHex
  if digits.isEmpty ∨ 4 < digits.length then none
  else some ((hexValue digits).toUInt16, s.dropWhile isHex)

/-- The two groups of an embedded address of version 4. -/
def Ipv4.groups (ip : Ipv4) : List UInt16 :=
  [(ip.a.toNat * 256 + ip.b.toNat).toUInt16, (ip.c.toNat * 256 + ip.d.toNat).toUInt16]

/-- Up to `limit` groups with colons between them, as many as there are; with room for two groups an
address of version 4 may stand at the end, which the flag tells. -/
def readGroups : (limit : Nat) → (first : Bool) → List Char → List UInt16 × Bool × List Char
  | 0, _, s => ([], false, s)
  | limit + 1, first, s =>
    match if first then some s else readChar ':' s with
    | none => ([], false, s)
    | some inner =>
      match if limit = 0 then none else readIpv4 inner with
      | some (ip, rest) => (ip.groups, true, rest)
      | none =>
        match readGroup inner with
        | none => ([], false, s)
        | some (g, rest) =>
          let (gs, embedded, rest) := readGroups limit false rest
          (g :: gs, embedded, rest)

/-- Groups filled to eight with zeros between the two parts. -/
def Ipv6.ofParts? (head tail : List UInt16) : Option Ipv6 :=
  let groups := head ++ List.replicate (8 - head.length - tail.length) 0 ++ tail
  if h : groups.length = 8 then some ⟨groups, h⟩ else none

/-- Eight groups, or fewer with a double colon in the place of zero groups. -/
def readIpv6 (s : List Char) : Option (Ipv6 × List Char) :=
  match readGroups 8 true s with
  | (head, embedded, rest) =>
    if head.length = 8 then (Ipv6.ofParts? head []).map (·, rest)
    else if embedded then none
    else
      match rest with
      | ':' :: ':' :: rest =>
        let (tail, _, rest) := readGroups (8 - (head.length + 1)) true rest
        (Ipv6.ofParts? head tail).map (·, rest)
      | _ => none

/-- A decimal number at most `bound`, with any number of leading zeros. -/
def readNumber (bound : Nat) (s : List Char) : Option (Nat × List Char) :=
  let digits := s.takeWhile Char.isDigit
  let n := Text.valueOf digits
  if digits.isEmpty ∨ bound < n then none else some (n, s.dropWhile Char.isDigit)

/-- A colon and a port at the end of the text. -/
def readPort (s : List Char) : Option UInt16 := do
  let (n, rest) ← readNumber 65535 (← readChar ':' s)
  if rest.isEmpty then some n.toUInt16 else none

/-- A percent sign and a number; zero when there is none. -/
def readScope (s : List Char) : UInt32 × List Char :=
  match (readChar '%' s).bind (readNumber 4294967295) with
  | some (n, rest) => (n.toUInt32, rest)
  | none => (0, s)

/-- An address of version 4 and a port. -/
def readSocketV4 (s : List Char) : Option SocketAddress := do
  let (ip, s) ← readIpv4 s
  return .v4 ip (← readPort s)

/-- An address of version 6 in brackets, possibly with a scope, and a port. -/
def readSocketV6 (s : List Char) : Option SocketAddress := do
  let (ip, s) ← readIpv6 (← readChar '[' s)
  let (scope, s) := readScope s
  return .v6 ip scope (← readPort (← readChar ']' s))

/-- Reads an address with a port; nothing may stand around it. -/
def SocketAddress.read? (s : List Char) : Option SocketAddress :=
  (readSocketV4 s).or (readSocketV6 s)

/-- Reads an address with a port. -/
def SocketAddress.parse? (text : String) : Option SocketAddress :=
  SocketAddress.read? text.toList

/-- The address of the machine itself. -/
def loopback (port : UInt16) : SocketAddress :=
  .v4 ⟨127, 0, 0, 1⟩ port

end QuorumKeeper.Net
