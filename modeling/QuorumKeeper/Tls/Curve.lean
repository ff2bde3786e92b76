import QuorumKeeper.Tls.Der
import QuorumKeeper.Tls.Modular

/-!
# Elliptic curves

Curves of the form `y² = x³ - 3x + b` over a prime field, with points in projective coordinates:
`(x, y, z)` stands for the point `(x / z², y / z³)`, and for the neutral point if `z` is zero.
-/

set_option autoImplicit false

namespace QuorumKeeper.Tls

/-- A curve with a generator of a group of prime order, the bytes of a coordinate, and its id. -/
structure Curve where
  size : Nat
  prime : Nat
  order : Nat
  gx : Nat
  gy : Nat
  oid : Bytes

namespace Curve

/-- The curve of 256 bits. -/
def p256 : Curve where
  size := 32
  prime := Nat.pow 2 256 - Nat.pow 2 224 + Nat.pow 2 192 + Nat.pow 2 96 - 1
  order := 0xffffffff00000000ffffffffffffffffbce6faada7179e84f3b9cac2fc632551
  gx := 0x6b17d1f2e12c4247f8bce6e563a440f277037d812deb33a0f4a13945d898c296
  gy := 0x4fe342e2fe1a7f9b8ee7eb4a7c0f9e162bce33576b315ececbb6406837bf51f5
  oid := [0x2a, 0x86, 0x48, 0xce, 0x3d, 0x03, 0x01, 0x07]

/-- The curve of 384 bits. -/
def p384 : Curve where
  size := 48
  prime := Nat.pow 2 384 - Nat.pow 2 128 - Nat.pow 2 96 + Nat.pow 2 32 - 1
  order := 0xffffffffffffffffffffffffffffffffffffffffffffffffc7634d81f4372ddf581a0db248b0a77aecec196accc52973
  gx := 0xaa87ca22be8b05378eb1c71ef320ad746e1d3b628ba79b9859f741e082542a385502f25dbf55296c3a545e3872760ab7
  gy := 0x3617de4a96262c6f5d9e98bf9292dc29f8f41dbd289a147ce9da3113b5f0b8c00a60b1ce1d7e819d7a431d7c90ea0e5f
  oid := [0x2b, 0x81, 0x04, 0x00, 0x22]

/-- A point. -/
structure Point where
  x : Nat
  y : Nat
  z : Nat
  deriving DecidableEq, Repr

/-- The neutral point. -/
def zero : Point := ⟨1, 1, 0⟩

/-- The generator. -/
def generator (c : Curve) : Point := ⟨c.gx, c.gy, 1⟩

/-- Twice a point. -/
def double (c : Curve) (p : Point) : Point :=
  let m := c.prime
  let zz := p.z * p.z % m
  let yy := p.y * p.y % m
  let s := 4 * p.x * yy % m
  let t := 3 * (p.x + zz) * Modular.sub p.x zz m % m
  let x := Modular.sub (t * t % m) (2 * s % m) m
  let y := Modular.sub (t * Modular.sub s x m % m) (8 * yy * yy % m) m
  ⟨x, y, 2 * p.y * p.z % m⟩

/-- The sum of two points. -/
def add (c : Curve) (p q : Point) : Point :=
  if p.z = 0 then q
  else if q.z = 0 then p
  else
    let m := c.prime
    let pzz := p.z * p.z % m
    let qzz := q.z * q.z % m
    let px := p.x * qzz % m
    let qx := q.x * pzz % m
    let py := p.y * qzz * q.z % m
    let qy := q.y * pzz * p.z % m
    if px = qx then if py = qy then c.double p else zero
    else
      let h := Modular.sub qx px m
      let r := Modular.sub qy py m
      let hh := h * h % m
      let hhh := h * hh % m
      let v := px * hh % m
      let x := Modular.sub (Modular.sub (r * r % m) hhh m) (2 * v % m) m
      let y := Modular.sub (r * Modular.sub v x m % m) (py * hhh % m) m
      ⟨x, y, h * p.z * q.z % m⟩

/-- The `bits` lowest bits of `k` as a multiple of a point. -/
def multiple (c : Curve) (k : Nat) (p : Point) : (bits : Nat) → Point
  | 0 => zero
  | bits + 1 =>
    let twice := c.double (c.multiple (k / 2) p bits)
    if k % 2 = 1 then c.add twice p else twice

/-- The coordinates of a point. -/
def affine (c : Curve) (p : Point) : Nat × Nat :=
  let i := Modular.inverse p.z c.prime
  let ii := i * i % c.prime
  (p.x * ii % c.prime, p.y * (ii * i % c.prime) % c.prime)

/-- The generator times a number. -/
def publicPoint (c : Curve) (k : Nat) : Nat × Nat :=
  c.affine (c.multiple k c.generator (8 * c.size))

/-- The bytes of the public key that belongs to a private key. -/
def publicBytes (c : Curve) (k : Nat) : Bytes :=
  let (x, y) := c.publicPoint k
  0x04 :: Der.bytesOf c.size x ++ Der.bytesOf c.size y

/-- A signature of a digest with a private key and a number that is used once. -/
def sign (c : Curve) (key once digest : Nat) : Nat × Nat :=
  let r := (c.publicPoint once).1 % c.order
  (r, Modular.inverse once c.order * (digest + r * key % c.order) % c.order)

end Curve

end QuorumKeeper.Tls
