import QuorumKeeper.Tls.Der

/-!
# Certificates

The outer form of a certificate: which parts it has and in which order. A certificate that shall be
trusted as an authority may be of the first version, which has no extensions; any other must be of
the third. Nothing is verified here, and dates are not looked at.
-/

set_option autoImplicit false

namespace QuorumKeeper.Tls

/-- Why a certificate is not accepted. -/
inductive CertificateFault where
  | badEncoding
  | unsupportedVersion
  | signatureAlgorithmMismatch
  | malformedExtensions
  | extensionValueInvalid
  | unsupportedCriticalExtension
  deriving DecidableEq, Repr

namespace CertificateFault

/-- A fault that has no name of its own among the faults of a peer's certificate. -/
def other (name : String) : String :=
  "Other(OtherError(" ++ name ++ "))"

/-- The name of the fault. -/
def name : CertificateFault → String
  | badEncoding => "BadEncoding"
  | unsupportedVersion => other "UnsupportedCertVersion"
  | signatureAlgorithmMismatch => other "SignatureAlgorithmMismatch"
  | malformedExtensions => other "MalformedExtensions"
  | extensionValueInvalid => other "ExtensionValueInvalid"
  | unsupportedCriticalExtension => other "UnsupportedCriticalExtension"

/-- The text shown to an operator. -/
def text (f : CertificateFault) : String :=
  "invalid peer certificate: " ++ f.name

end CertificateFault

/-- The part of a certificate that matters here: the public key with its algorithm, as the contents
of a sequence. -/
structure Certificate where
  publicKey : Bytes
  deriving DecidableEq, Repr

namespace Certificate

/-- Items are shorter than this. -/
def limit : Nat := 65535

/-- One item with a given tag. -/
def part (tag : UInt8) (s : Bytes) : Except CertificateFault (Bytes × Bytes) :=
  match Der.expect limit tag s with
  | some r => .ok r
  | none => .error .badEncoding

/-- Nothing may be left. -/
def finish (fault : CertificateFault) (s : Bytes) : Except CertificateFault Unit :=
  if s.isEmpty then .ok () else .error fault

/-- The signed part, the algorithm and the signature of a certificate. -/
def signedParts (s : Bytes) : Except CertificateFault (Bytes × Bytes × Bytes) := do
  let (outer, rest) ← part Der.sequence s
  finish .badEncoding rest
  let (signed, outer) ← part Der.sequence outer
  let (algorithm, outer) ← part Der.sequence outer
  let (bits, outer) ← part Der.bitString outer
  match Der.wholeBits bits with
  | none => .error .badEncoding
  | some signature =>
    finish .badEncoding outer
    return (signed, algorithm, signature)

/-- The version, which must be the third. -/
def version (s : Bytes) : Except CertificateFault Bytes :=
  match Der.expect limit (Der.context 0) s with
  | none => .error .unsupportedVersion
  | some (inner, rest) =>
    match Der.readNatural limit inner with
    | none => .error .badEncoding
    | some (n, inner) =>
      if 255 < n then .error .badEncoding
      else if n ≠ 2 ∨ !inner.isEmpty then .error .unsupportedVersion
      else .ok rest

/-- The last parts of the ids of the extensions that are known: key usage, alternative names, basic
constraints, name constraints, revocation lists and extended key usage. -/
def knownExtensions : List UInt8 := [15, 17, 19, 30, 31, 37]

/-- One extension, given the known ones seen before it. -/
def extension (seen : List UInt8) (s : Bytes) : Except CertificateFault (List UInt8) := do
  let (id, s) ← part Der.objectId s
  let (critical, s) ←
    if Der.peek Der.boolean s then do
      let (b, s) ← part Der.boolean s
      match b with
      | [0xff] => Except.ok (true, s)
      | [0x00] => Except.ok (false, s)
      | _ => Except.error .badEncoding
    else Except.ok (false, s)
  let (value, s) ← part Der.octetString s
  finish .badEncoding s
  let unknown := if critical then Except.error .unsupportedCriticalExtension else Except.ok seen
  match id with
  | [0x55, 0x1d, last] =>
    if !knownExtensions.contains last then unknown
    else if seen.contains last then .error .extensionValueInvalid
    else if last = 15 then .ok (last :: seen)
    else
      let (_, rest) ← part Der.sequence value
      finish .badEncoding rest
      return last :: seen
  | _ => unknown

/-- Several extensions; `fuel` bounds their number. -/
def extensions : (fuel : Nat) → (seen : List UInt8) → Bytes → Except CertificateFault Unit
  | 0, _, s => finish .badEncoding s
  | fuel + 1, seen, s =>
    if s.isEmpty then .ok ()
    else do
      let (inner, rest) ← part Der.sequence s
      let seen ← extension seen inner
      extensions fuel seen rest

/-- The extensions at the end of a certificate, if there are any. -/
def optionalExtensions (s : Bytes) : Except CertificateFault Unit :=
  if s.isEmpty then .ok ()
  else
    match Der.expect limit (Der.context 3) s with
    | none => .error .malformedExtensions
    | some (inner, rest) => do
      let (list, inner) ← part Der.sequence inner
      extensions list.length [] list
      finish .malformedExtensions inner
      finish .badEncoding rest

/-- A certificate of the third version. -/
def parse (s : Bytes) : Except CertificateFault Certificate := do
  let (signed, algorithm, _) ← signedParts s
  let signed ← version signed
  let (_, signed) ← part Der.integer signed
  let (inner, signed) ← part Der.sequence signed
  if inner ≠ algorithm then
    .error .signatureAlgorithmMismatch
  else
    let (_, signed) ← part Der.sequence signed
    let (_, signed) ← part Der.sequence signed
    let (_, signed) ← part Der.sequence signed
    let (publicKey, signed) ← part Der.sequence signed
    optionalExtensions signed
    return { publicKey }

/-- A certificate of the first version. -/
def parseFirstVersion (s : Bytes) : Except CertificateFault Certificate := do
  let (outer, rest) ← part Der.sequence s
  finish .badEncoding rest
  let (signed, outer) ← part Der.sequence outer
  let (_, signed) ← part Der.integer signed
  let (_, signed) ← part Der.sequence signed
  let (_, signed) ← part Der.sequence signed
  let (_, signed) ← part Der.sequence signed
  let (_, signed) ← part Der.sequence signed
  let (publicKey, signed) ← part Der.sequence signed
  finish .badEncoding signed
  let (_, outer) ← part Der.sequence outer
  let (_, outer) ← part Der.bitString outer
  finish .badEncoding outer
  return { publicKey }

/-- The certificate of an authority, of the third or the first version. -/
def parseAuthority (s : Bytes) : Except CertificateFault Certificate :=
  match parse s with
  | .error .unsupportedVersion =>
    match parseFirstVersion s with
    | .ok c => .ok c
    | .error _ => .error .badEncoding
  | result => result

end Certificate

end QuorumKeeper.Tls
