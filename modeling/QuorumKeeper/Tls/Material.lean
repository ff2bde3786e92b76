import QuorumKeeper.Error.Client
import QuorumKeeper.Tls.Certificate
import QuorumKeeper.Tls.Pem
import QuorumKeeper.Tls.PrivateKey

/-!
# TLS material

The texts with which etcd is dialed over TLS: the authorities that etcd's certificate may come from,
and the client's own certificates and key. `TlsMaterial.clientConfig` checks that they can be used
together and settles what the client offers to speak.
-/

set_option autoImplicit false

namespace QuorumKeeper

open Tls

/-- Authorities, client certificates and client key, and the authority's key for material made by
this program. -/
structure TlsMaterial where
  ca : String
  cert : String
  key : String
  caKey : Option String := none
  deriving DecidableEq, Repr

/-- The settings of a TLS client. It offers the protocols of `alpn`, best first. -/
structure TlsClient where
  authorities : List Certificate
  chain : List Bytes
  key : PemSection
  alpn : List String
  deriving DecidableEq, Repr

namespace TlsMaterial

/-- The material, shown for diagnosis: sizes in bytes and never a key. -/
def describe (m : TlsMaterial) : String :=
  "TlsMaterial \x7b ca_pem_len: " ++ Text.decimal m.ca.utf8ByteSize ++
    ", cert_pem_len: " ++ Text.decimal m.cert.utf8ByteSize ++
    ", has_ca_key: " ++ (if m.caKey.isSome then "true" else "false") ++ ", .. \x7d"

/-- The certificates of a text, of which there must be one. -/
def certificates (text what : String) : Except ClientError (List Bytes) :=
  match Pem.certificates text with
  | .error fault => .error (.tls ("failed to parse " ++ what ++ ": " ++ fault.text))
  | .ok [] => .error (.tls (what ++ " contains no certificates"))
  | .ok certs => .ok certs

/-- The certificates of the authorities. -/
def authorities : List Bytes → Except ClientError (List Certificate)
  | [] => .ok []
  | c :: rest =>
    match Certificate.parseAuthority c with
    | .error fault => .error (.tls ("invalid CA certificate: " ++ fault.text))
    | .ok a => (authorities rest).map (a :: ·)

/-- The private key of a text. -/
def privateKey (text : String) : Except ClientError PemSection :=
  match Pem.privateKey text with
  | .error fault => .error (.tls ("failed to parse client key: " ++ fault.text))
  | .ok none => .error (.tls "client key PEM contains no private key")
  | .ok (some key) => .ok key

/-- The error of a client certificate that cannot be used. -/
def rejected (why : String) : ClientError :=
  .tls ("client certificate rejected: " ++ why)

/-- The key is sound, and the first certificate of the chain holds its public key. -/
def checkIdentity (chain : List Bytes) (key : PemSection) : Except ClientError Unit :=
  match (KeyForm.ofLabel? key.label).bind fun form => PrivateKey.publicOf form key.bytes with
  | none =>
    .error (rejected
      "unexpected error: failed to parse private key as RSA, ECDSA, or EdDSA")
  | some info =>
    match chain with
    | [] => .ok ()
    | first :: _ =>
      match Certificate.parse first with
      | .error fault => .error (rejected fault.text)
      | .ok c =>
        if c.publicKey = info then .ok ()
        else .error (rejected "keys may not be consistent: KeyMismatch")

/-- The settings of a TLS client that uses the material and speaks HTTP/2. -/
def clientConfig (m : TlsMaterial) : Except ClientError TlsClient := do
  let authorities ← authorities (← certificates m.ca "CA bundle")
  let chain ← certificates m.cert "client certificate"
  let key ← privateKey m.key
  checkIdentity chain key
  return { authorities, chain, key, alpn := ["h2"] }

end TlsMaterial

end QuorumKeeper
