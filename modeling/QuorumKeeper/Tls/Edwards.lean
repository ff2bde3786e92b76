import QuorumKeeper.Tls.Digest
import QuorumKeeper.Tls.Modular

/-!
# Keys on the twisted Edwards curve

The curve `-x² + y² = 1 + d x² y²` over the field of `2 ^ 255 - 19` elements, and the public key
that belongs to a seed of 32 bytes. A point is `(x : y : z : t)` with `x y = z t`.
-/

set_option autoImplicit false

namespace QuorumKeeper.Tls.Edwards

/-- The number of elements of the field. -/
def prime : Nat := Nat.pow 2 255 - 19

/-- The constant of the curve. -/
def d : Nat :=
  37095705934669439343138083508754565189542113879843219016388785533085940283555

/-- A point. -/
structure Point where
  x : Nat
  y : Nat
  z : Nat
  t : Nat

/-- The neutral point. -/
def zero : Point := ⟨0, 1, 1, 0⟩

/-- The generator. -/
def generator : Point :=
  let x := 15112221349535400772501151409588531511454012693041857206046113283949847762202
  let y := 46316835694926478169428394003475163141307993866256225615783033603165251855960
  ⟨x, y, 1, x * y % prime⟩

/-- The sum of two points, which may be equal. -/
def add (p q : Point) : Point :=
  let a := Modular.sub p.y p.x prime * Modular.sub q.y q.x prime % prime
  let b := (p.y + p.x) * (q.y + q.x) % prime
  let c := 2 * p.t * d % prime * q.t % prime
  let e := 2 * p.z * q.z % prime
  let f := Modular.sub b a prime
  let g := Modular.sub e c prime
  let h := (e + c) % prime
  let i := (b + a) % prime
  ⟨f * g % prime, h * i % prime, g * h % prime, f * i % prime⟩

/-- The `bits` lowest bits of `k` as a multiple of a point. -/
def multiple (k : Nat) (p : Point) : (bits : Nat) → Point
  | 0 => zero
  | bits + 1 =>
    let half := multiple (k / 2) p bits
    let twice := add half half
    if k % 2 = 1 then add twice p else twice

/-- The bytes of a point: its second coordinate, and the lowest bit of the first one on top. -/
def encode (p : Point) : Bytes :=
  let i := Modular.inverse p.z prime
  let x := p.x * i % prime
  let y := p.y * i % prime
  (Der.bytesOf 32 (y + x % 2 * Nat.pow 2 255)).reverse

/-- The public key that belongs to a seed. -/
def publicBytes (seed : Bytes) : Bytes :=
  let low := Der.toNat ((Digest.sha512.hash seed).take 32).reverse
  let scalar := low % Nat.pow 2 254 / 8 * 8 + Nat.pow 2 254
  encode (multiple scalar generator 255)

end QuorumKeeper.Tls.Edwards
