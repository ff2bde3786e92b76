import QuorumKeeper.Tls.Der

/-!
# Digests

The family of digests that works on words of 32 or 64 bits. Its constants are the first bits behind
the point of the square and cube roots of the first primes, and are computed as such.
-/

set_option autoImplicit false

namespace QuorumKeeper.Tls

/-- A member of the family: the size of a word in bits, the number of rounds, and the distances of
the rotations and shifts. -/
structure Digest where
  bits : Nat
  rounds : Nat
  bigA : Nat × Nat × Nat
  bigE : Nat × Nat × Nat
  smallEarly : Nat × Nat × Nat
  smallLate : Nat × Nat × Nat

namespace Digest

/-- The member with 32 bytes of output. -/
def sha256 : Digest where
  bits := 32
  rounds := 64
  bigA := (2, 13, 22)
  bigE := (6, 11, 25)
  smallEarly := (7, 18, 3)
  smallLate := (17, 19, 10)

/-- The member with 64 bytes of output. -/
def sha512 : Digest where
  bits := 64
  rounds := 80
  bigA := (28, 34, 39)
  bigE := (14, 18, 41)
  smallEarly := (1, 8, 7)
  smallLate := (19, 61, 6)

/-! ## Constants -/

/-- The number has no divisor from two up to itself. -/
def isPrime (n : Nat) : Bool :=
  2 ≤ n && (List.range n).all fun d => d < 2 || n % d != 0

/-- The first primes. -/
def primes (count : Nat) : List Nat :=
  ((List.range 420).filter isPrime).take count

/-- The largest number whose power is at most `n`, given a power of two above it. -/
def rootBelow (power n : Nat) : (bit : Nat) → (found : Nat) → Nat
  | 0, found => if Nat.pow (found + 1) power ≤ n then found + 1 else found
  | bit + 1, found =>
    let next := found + Nat.pow 2 (bit + 1)
    rootBelow power n bit (if Nat.pow next power ≤ n then next else found)

/-- The first bits behind the point of a root of a number. -/
def fractionBits (d : Digest) (power n : Nat) : Nat :=
  rootBelow power (n * Nat.pow 2 (power * d.bits)) (d.bits + 5) 0 % Nat.pow 2 d.bits

/-- The words a digest starts from. -/
def start (d : Digest) : List Nat :=
  (primes 8).map (d.fractionBits 2)

/-- The constants of the rounds. -/
def constants (d : Digest) : List Nat :=
  (primes d.rounds).map (d.fractionBits 3)

/-! ## Rounds -/

/-- Rotates a word to the right. -/
def rotate (d : Digest) (x n : Nat) : Nat :=
  (x >>> n) ||| (x <<< (d.bits - n)) % Nat.pow 2 d.bits

/-- Three rotations of a word. -/
def rotations (d : Digest) (x : Nat) (by_ : Nat × Nat × Nat) : Nat :=
  d.rotate x by_.1 ^^^ d.rotate x by_.2.1 ^^^ d.rotate x by_.2.2

/-- Two rotations of a word and a shift. -/
def mix (d : Digest) (x : Nat) (by_ : Nat × Nat × Nat) : Nat :=
  d.rotate x by_.1 ^^^ d.rotate x by_.2.1 ^^^ (x >>> by_.2.2)

/-- Extends the words of a block, latest first, by `count` more. -/
def schedule (d : Digest) : (count : Nat) → List Nat → List Nat
  | 0, words => words
  | count + 1, words =>
    let w := (d.mix (words.getD 1 0) d.smallLate + words.getD 6 0 +
      d.mix (words.getD 14 0) d.smallEarly + words.getD 15 0) % Nat.pow 2 d.bits
    d.schedule count (w :: words)

/-- One round on the eight words. -/
def round (d : Digest) (state : List Nat) (kw : Nat × Nat) : List Nat :=
  match state with
  | [a, b, c, e, f, g, h, i] =>
    let choice := (f &&& g) ^^^ ((Nat.pow 2 d.bits - 1 - f) &&& h)
    let majority := (a &&& b) ^^^ (a &&& c) ^^^ (b &&& c)
    let t := (i + d.rotations f d.bigE + choice + kw.1 + kw.2) % Nat.pow 2 d.bits
    let u := (d.rotations a d.bigA + majority) % Nat.pow 2 d.bits
    [(t + u) % Nat.pow 2 d.bits, a, b, c, (e + t) % Nat.pow 2 d.bits, f, g, h]
  | other => other

/-- One block of sixteen words. -/
def block (d : Digest) (constants state words : List Nat) : List Nat :=
  let all := (d.schedule (d.rounds - 16) words.reverse).reverse
  let next := (constants.zip all).foldl d.round state
  (state.zip next).map fun (a, b) => (a + b) % Nat.pow 2 d.bits

/-- The message with its end mark and its length, filled up to whole blocks. -/
def padded (d : Digest) (message : Bytes) : Bytes :=
  let size := d.bits * 2
  let tail := d.bits / 4
  let used := message.length + 1 + tail
  message ++ 0x80 :: List.replicate ((size - used % size) % size) 0 ++
    Der.bytesOf tail (message.length * 8)

/-- Cuts bytes into groups of a size; `fuel` bounds their number. -/
def groups (size : Nat) : (fuel : Nat) → Bytes → List Bytes
  | 0, _ => []
  | fuel + 1, s => if s.isEmpty then [] else s.take size :: groups size fuel (s.drop size)

/-- The words of some bytes. -/
def words (d : Digest) (s : Bytes) : List Nat :=
  (groups (d.bits / 8) s.length s).map Der.toNat

/-- The digest of a message. -/
def hash (d : Digest) (message : Bytes) : Bytes :=
  let blocks := groups (d.bits * 2) (message.length + 3) (d.padded message)
  let constants := d.constants
  let final := blocks.foldl (fun state s => d.block constants state (d.words s)) d.start
  final.flatMap (Der.bytesOf (d.bits / 8))

end Digest

end QuorumKeeper.Tls
