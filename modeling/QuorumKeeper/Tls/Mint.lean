import QuorumKeeper.Text.Utf8
import QuorumKeeper.Tls.Digest
import QuorumKeeper.Tls.Material

/-!
# Minting

Makes a new authority, and a client certificate that it has signed. All numbers that should be
unpredictable are derived from bytes that the caller supplies.
-/

set_option autoImplicit false

namespace QuorumKeeper.Tls.Mint

/-- A number derived from the supplied bytes, for one of several purposes. -/
def derive (entropy : Bytes) (purpose : UInt8) : Nat :=
  Der.toNat (Digest.sha256.hash (purpose :: entropy))

/-- A private key: not zero and below the order of the group. -/
def newKey (entropy : Bytes) (purpose : UInt8) : Nat :=
  derive entropy purpose % (Curve.p256.order - 1) + 1

/-- The wrapped form of a private key. -/
def wrapKey (k : Nat) : Bytes :=
  let key := Der.writeSequence
    [Der.writeNatural 1, Der.write Der.octetString (Der.bytesOf 32 k),
      Der.write (Der.context 1) (Der.writeBits (Curve.p256.publicBytes k))]
  Der.writeSequence
    [Der.writeNatural 0, Der.write Der.sequence (PrivateKey.curveAlgorithm .p256),
      Der.write Der.octetString key]

/-- One part of a name. -/
def nameItem (kind : UInt8) (value : String) : Bytes :=
  Der.write Der.set (Der.writeSequence
    [Der.write Der.objectId [0x55, 0x04, kind],
      Der.write Der.utf8String (QuorumKeeper.Text.utf8 value)])

/-- The name of a holder within this program's organisation. -/
def holder (commonName : String) : Bytes :=
  Der.writeSequence [nameItem 0x0a "Warden", nameItem 0x03 commonName]

/-- A point in time, as year, month, day, hour, minute and second in two digits each. -/
def time (digits : String) : Bytes :=
  Der.write Der.utcTime (QuorumKeeper.Text.utf8 (digits ++ "Z"))

/-- From the start of 1975 to the start of 2036. -/
def validity : Bytes :=
  Der.writeSequence [time "750101000000", time "360101000000"]

/-- The algorithm of the signatures. -/
def signatureAlgorithm : Bytes :=
  Der.writeSequence [Der.write Der.objectId [0x2a, 0x86, 0x48, 0xce, 0x3d, 0x04, 0x03, 0x02]]

/-- An extension. -/
def extension (id : UInt8) (critical : Bool) (value : Bytes) : Bytes :=
  Der.writeSequence
    [Der.write Der.objectId [0x55, 0x1d, id],
      if critical then Der.write Der.boolean [0xff] else [],
      Der.write Der.octetString value]

/-- What marks an authority. -/
def authorityExtensions (key : Nat) : List Bytes :=
  let id := (Digest.sha256.hash (Curve.p256.publicBytes key)).take 20
  [extension 14 false (Der.write Der.octetString id),
    extension 19 true (Der.writeSequence [Der.write Der.boolean [0xff]])]

/-- What marks a client. -/
def clientExtensions : List Bytes :=
  [extension 37 false (Der.writeSequence
    [Der.write Der.objectId [0x2b, 0x06, 0x01, 0x05, 0x05, 0x07, 0x03, 0x02]])]

/-- A certificate for a key, signed with the issuer's key. -/
def certificate (serial : Nat) (issuer subject : Bytes) (key issuerKey : Nat)
    (extensions : List Bytes) : Bytes :=
  let info := PrivateKey.publicInfo (PrivateKey.curveAlgorithm .p256) (Curve.p256.publicBytes key)
  let signed := Der.writeSequence
    [Der.write (Der.context 0) (Der.writeNatural 2), Der.writeNatural serial, signatureAlgorithm,
      issuer, validity, subject, Der.write Der.sequence info,
      Der.write (Der.context 3) (Der.writeSequence extensions)]
  let digest := Digest.sha256.hash signed
  let once := newKey (Der.bytesOf 32 issuerKey ++ digest) 0
  let (r, s) := Curve.p256.sign issuerKey once (Der.toNat digest)
  Der.writeSequence
    [signed, signatureAlgorithm,
      Der.writeBits (Der.writeSequence [Der.writeNatural r, Der.writeNatural s])]

/-- New material for a client with the given name. -/
def material (entropy : Bytes) (commonName : String) : TlsMaterial :=
  let caKey := newKey entropy 1
  let clientKey := newKey entropy 2
  let serial := fun purpose => derive entropy purpose % Nat.pow 2 159
  let authority := holder "Warden etcd CA"
  let ca := certificate (serial 3) authority authority caKey caKey (authorityExtensions caKey)
  let cert := certificate (serial 4) authority (holder commonName) clientKey caKey clientExtensions
  { ca := Pem.encode "CERTIFICATE" ca
    cert := Pem.encode "CERTIFICATE" cert
    key := Pem.encode "PRIVATE KEY" (wrapKey clientKey)
    caKey := some (Pem.encode "PRIVATE KEY" (wrapKey caKey)) }

end QuorumKeeper.Tls.Mint
