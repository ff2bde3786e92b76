import QuorumKeeper.Tls.Curve
import QuorumKeeper.Tls.Edwards

/-!
# Private keys

The forms in which a private key is stored, and the public key that belongs to each. A key is
accepted if it is a sound key for RSA, for one of two elliptic curves, or for the Edwards curve;
where the form holds the public key as well, both must agree.
-/

set_option autoImplicit false

namespace QuorumKeeper.Tls

/-- The forms of a stored private key: for RSA alone, for an elliptic curve alone, or for any kind
of key, with its algorithm. -/
inductive KeyForm where
  | rsa
  | curve
  | wrapped
  deriving DecidableEq, Repr

namespace KeyForm

/-- The form that the label of a section stands for. -/
def ofLabel? : String → Option KeyForm
  | "RSA PRIVATE KEY" => some rsa
  | "EC PRIVATE KEY" => some curve
  | "PRIVATE KEY" => some wrapped
  | _ => none

end KeyForm

namespace PrivateKey

/-- Items are shorter than this. -/
def limit : Nat := 65536

/-- The contents of a text that is one item and nothing else. -/
def whole (tag : UInt8) (s : Bytes) : Option Bytes :=
  match Der.expect limit tag s with
  | some (contents, []) => some contents
  | _ => none

/-! ## Algorithms -/

/-- The algorithm of keys for RSA. -/
def rsaAlgorithm : Bytes :=
  Der.write Der.objectId [0x2a, 0x86, 0x48, 0x86, 0xf7, 0x0d, 0x01, 0x01, 0x01] ++
    Der.write Der.null []

/-- The algorithm of keys for an elliptic curve. -/
def curveAlgorithm (c : Curve) : Bytes :=
  Der.write Der.objectId [0x2a, 0x86, 0x48, 0xce, 0x3d, 0x02, 0x01] ++
    Der.write Der.objectId c.oid

/-- The algorithm of keys for the Edwards curve. -/
def edwardsAlgorithm : Bytes :=
  Der.write Der.objectId [0x2b, 0x65, 0x70]

/-- A public key with its algorithm, as it stands in a certificate: the contents of a sequence. -/
def publicInfo (algorithm key : Bytes) : Bytes :=
  Der.write Der.sequence algorithm ++ Der.writeBits key

/-- The version, the key, and the public key if the version has one, of a key that is wrapped with
the given algorithm. -/
def unwrap (algorithm s : Bytes) : Option (Nat × Bytes × Option Bytes) := do
  let inner ← whole Der.sequence s
  let (version, inner) ← Der.readNatural limit inner
  let (found, inner) ← Der.expect limit Der.sequence inner
  let (key, inner) ← Der.expect limit Der.octetString inner
  if found ≠ algorithm then
    none
  else
    let inner ←
      if Der.peek (Der.context 0) inner then (Der.expect limit (Der.context 0) inner).map (·.2)
      else some inner
    if version = 0 then
      if inner.isEmpty then some (0, key, none) else none
    else if version = 1 then
      let bits ←
        if Der.peek (Der.context 1) inner then do
          whole Der.bitString (← whole (Der.context 1) inner)
        else whole 0x81 inner
      some (1, key, some (← Der.wholeBits bits))
    else none

/-! ## RSA -/

/-- The number of bits of a number. -/
def bitCount (n : Nat) : Nat :=
  if n = 0 then 0 else Nat.log2 n + 1

/-- The numbers fit together and have usable sizes. -/
def isSoundRsa (n e d p q dp dq qi : Nat) : Bool :=
  let bits := bitCount n
  let half := (bits + 1) / 2
  2040 < bits && bits ≤ 4096 && n % 2 == 1 &&
    65537 ≤ e && e < Nat.pow 2 33 && e % 2 == 1 &&
    bitCount p == half && bitCount q == half && p % 2 == 1 && q % 2 == 1 && p * q == n &&
    d % 2 == 1 && half < bitCount d && d < n &&
    dp < p && dp % 2 == 1 && dq < q && dq % 2 == 1 && qi < p && qi * q % p == 1

/-- Reads a given number of numbers. -/
def naturals : (count : Nat) → Bytes → Option (List Nat)
  | 0, s => if s.isEmpty then some [] else none
  | count + 1, s =>
    match Der.readNatural limit s with
    | some (n, rest) => (naturals count rest).map (n :: ·)
    | none => none

/-- The public key of a key for RSA. -/
def rsaPublic (s : Bytes) : Option Bytes := do
  match ← naturals 9 (← whole Der.sequence s) with
  | [0, n, e, d, p, q, dp, dq, qi] =>
    if isSoundRsa n e d p q dp dq qi then
      some (publicInfo rsaAlgorithm (Der.writeSequence [Der.writeNatural n, Der.writeNatural e]))
    else none
  | _ => none

/-- The public key of a wrapped key for RSA. -/
def rsaPublicWrapped (s : Bytes) : Option Bytes := do
  match ← unwrap rsaAlgorithm s with
  | (0, key, _) => rsaPublic key
  | _ => none

/-! ## Elliptic curves -/

/-- The public key of a key for an elliptic curve, which must hold the public key as well. -/
def curvePublic (c : Curve) (s : Bytes) : Option Bytes := do
  let inner ← whole Der.sequence s
  let (version, inner) ← Der.readNatural limit inner
  let (key, inner) ← Der.expect limit Der.octetString inner
  let inner ←
    if Der.peek (Der.context 0) inner then
      match Der.expect limit (Der.context 0) inner with
      | some (found, rest) =>
        if found = Der.write Der.objectId c.oid then some rest else none
      | none => none
    else some inner
  let stated ← Der.wholeBits (← whole Der.bitString (← whole (Der.context 1) inner))
  let k := Der.toNat key
  if version = 1 ∧ key.length = c.size ∧ 0 < k ∧ k < c.order ∧ stated = c.publicBytes k then
    some (publicInfo (curveAlgorithm c) stated)
  else none

/-- The public key of a wrapped key for an elliptic curve. -/
def curvePublicWrapped (c : Curve) (s : Bytes) : Option Bytes := do
  match ← unwrap (curveAlgorithm c) s with
  | (0, key, _) => curvePublic c key
  | _ => none

/-! ## The Edwards curve -/

/-- The public key of a wrapped key for the Edwards curve. -/
def edwardsPublicWrapped (s : Bytes) : Option Bytes := do
  let (_, key, stated) ← unwrap edwardsAlgorithm s
  let seed ← whole Der.octetString key
  let derived := Edwards.publicBytes seed
  if seed.length = 32 ∧ (stated = none ∨ stated = some derived) then
    some (publicInfo edwardsAlgorithm derived)
  else none

/-- The public key that belongs to a private key, as it stands in a certificate. -/
def publicOf (form : KeyForm) (s : Bytes) : Option Bytes :=
  match form with
  | .rsa => rsaPublic s
  | .curve => (curvePublic .p256 s).or (curvePublic .p384 s)
  | .wrapped =>
    (rsaPublicWrapped s).or ((curvePublicWrapped .p256 s).or
      ((curvePublicWrapped .p384 s).or (edwardsPublicWrapped s)))

end PrivateKey

end QuorumKeeper.Tls
