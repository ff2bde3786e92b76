/-!
# Variable-length integers

A number is written in groups of seven bits, the lowest first; every byte but the last has its top
bit set. A reader takes at most ten bytes and refuses what does not fit into 64 bits.
-/

set_option autoImplicit false

namespace QuorumKeeper.Wire

/-- A sequence of bytes. -/
abbrev Bytes := List UInt8

/-- Writes a number. -/
def writeVarint (n : Nat) : Bytes :=
  if n < 128 then [n.toUInt8] else (n % 128 + 128).toUInt8 :: writeVarint (n / 128)
termination_by n
decreasing_by omega

/-- Reads a number of at most `room` bytes; the last byte there is room for may hold only one
bit. -/
def readVarintWithin : (room : Nat) → Bytes → Option (Nat × Bytes)
  | 0, _ => none
  | _ + 1, [] => none
  | room + 1, b :: rest =>
    if b.toNat < 128 then
      if room = 0 ∧ 2 ≤ b.toNat then none else some (b.toNat, rest)
    else
      match readVarintWithin room rest with
      | some (n, rest) => some (b.toNat - 128 + 128 * n, rest)
      | none => none

/-- Reads a number. -/
def readVarint (s : Bytes) : Option (Nat × Bytes) :=
  readVarintWithin 10 s

end QuorumKeeper.Wire
