/-!
# Tagged binary data

The distinguished encoding of certificates and keys: a tag, a length and that many bytes. Lengths
are written in the shortest way and in at most two bytes, and tags in one.
-/

set_option autoImplicit false

namespace QuorumKeeper.Tls

/-- A sequence of bytes. -/
abbrev Bytes := List UInt8

namespace Der

/-! ## Tags -/

def boolean : UInt8 := 0x01
def integer : UInt8 := 0x02
def bitString : UInt8 := 0x03
def octetString : UInt8 := 0x04
def null : UInt8 := 0x05
def objectId : UInt8 := 0x06
def utf8String : UInt8 := 0x0C
def utcTime : UInt8 := 0x17
def sequence : UInt8 := 0x30
def set : UInt8 := 0x31

/-- A tag whose meaning depends on where it stands, around other data. -/
def context (n : Nat) : UInt8 := (0xA0 + n).toUInt8

/-! ## Reading -/

/-- A length. -/
def readLength : Bytes → Option (Nat × Bytes)
  | n :: rest =>
    if n.toNat < 128 then some (n.toNat, rest)
    else if n = 0x81 then
      match rest with
      | a :: rest => if a.toNat < 128 then none else some (a.toNat, rest)
      | [] => none
    else if n = 0x82 then
      match rest with
      | a :: b :: rest =>
        if a = 0 then none else some (a.toNat * 256 + b.toNat, rest)
      | _ => none
    else none
  | [] => none

/-- One item: its tag, its contents, and what follows. Its length is below `limit`. -/
def read (limit : Nat) : Bytes → Option (UInt8 × Bytes × Bytes)
  | tag :: rest =>
    if tag.toNat % 32 = 31 then none
    else
      match readLength rest with
      | some (n, rest) =>
        if n < limit ∧ n ≤ rest.length then some (tag, rest.take n, rest.drop n) else none
      | none => none
  | [] => none

/-- One item with a given tag. -/
def expect (limit : Nat) (tag : UInt8) (s : Bytes) : Option (Bytes × Bytes) :=
  match read limit s with
  | some (t, contents, rest) => if t = tag then some (contents, rest) else none
  | none => none

/-- The next item has the given tag. -/
def peek (tag : UInt8) (s : Bytes) : Bool :=
  s.head? == some tag

/-- The bytes of a bit string that is a whole number of bytes. -/
def wholeBits : Bytes → Option Bytes
  | 0 :: bytes => some bytes
  | _ => none

/-- The value of bytes, the first one most significant. -/
def toNat (bytes : Bytes) : Nat :=
  bytes.foldl (fun n b => n * 256 + b.toNat) 0

/-- The value of the contents of a number that is not negative, written in the shortest way. -/
def natural? : Bytes → Option Nat
  | [] => none
  | [b] => if b.toNat < 128 then some b.toNat else none
  | a :: b :: rest =>
    if a = 0 then if b.toNat < 128 then none else some (toNat (b :: rest))
    else if a.toNat < 128 then some (toNat (a :: b :: rest))
    else none

/-- A number that is not negative. -/
def readNatural (limit : Nat) (s : Bytes) : Option (Nat × Bytes) :=
  match expect limit integer s with
  | some (contents, rest) => (natural? contents).map (·, rest)
  | none => none

/-! ## Writing -/

/-- The `count` lowest bytes of a number, the most significant one first. -/
def bytesOf : (count n : Nat) → Bytes
  | 0, _ => []
  | count + 1, n => bytesOf count (n / 256) ++ [n.toUInt8]

/-- The number of bytes of a number; zero has one. -/
def byteCount (n : Nat) : Nat :=
  Nat.log2 n / 8 + 1

/-- A length. -/
def writeLength (n : Nat) : Bytes :=
  if n < 128 then [n.toUInt8]
  else (0x80 + byteCount n).toUInt8 :: bytesOf (byteCount n) n

/-- One item. -/
def write (tag : UInt8) (contents : Bytes) : Bytes :=
  tag :: writeLength contents.length ++ contents

/-- Several items in a row. -/
def writeSequence (items : List Bytes) : Bytes :=
  write sequence items.flatten

/-- A number. -/
def writeNatural (n : Nat) : Bytes :=
  let bytes := bytesOf (byteCount n) n
  match bytes with
  | b :: _ => write integer (if b.toNat < 128 then bytes else 0 :: bytes)
  | [] => write integer [0]

/-- A bit string of whole bytes. -/
def writeBits (bytes : Bytes) : Bytes :=
  write bitString (0 :: bytes)

end Der

end QuorumKeeper.Tls
