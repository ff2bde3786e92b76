import QuorumKeeper.Credentials.Source
import QuorumKeeper.Event
import QuorumKeeper.Files.Tree
import QuorumKeeper.Tls.Material

/-!
# Stored credentials

Every source of credentials can be looked up, asked for material that is made if there is none, and
given material to keep. Managed credentials lie in a directory of their own: two certificate files,
the client's key, and the authority's key if it is known. Both keys are for the owner only. External
credentials are only ever read.

How material is made is a parameter of `CredentialSource.provide`.
-/

set_option autoImplicit false

namespace QuorumKeeper

/-- Material that a source has provided: it was there, or it was made and is not stored yet. -/
inductive Provision where
  | existing (material : TlsMaterial)
  | generated (material : TlsMaterial)
  deriving DecidableEq, Repr

namespace Provision

/-- The material, however it was provided. -/
def material : Provision → TlsMaterial
  | existing m => m
  | generated m => m

/-- The material was made. -/
def isGenerated : Provision → Bool
  | existing _ => false
  | generated _ => true

end Provision

/-- A file to store. Only its owner may read a secret one. -/
structure StoredFile where
  name : String
  text : String
  secret : Bool := false
  deriving DecidableEq, Repr

namespace CredentialSource

/-- The file with the authority's certificates. -/
def caName : String := "ca.crt"

/-- The file with the authority's key. -/
def caKeyName : String := "ca.key"

/-- The file with the client's certificates. -/
def certName : String := "client.crt"

/-- The file with the client's key. -/
def keyName : String := "client.key"

/-- The name in the certificates that are made on demand. -/
def clientName : String := "warden-etcd-client"

/-- The paths that a source may read or write. -/
def paths : CredentialSource → List String
  | managed dir => dir :: [caName, certName, keyName, caKeyName].map (Path.join dir)
  | external ca cert key => [ca, cert, key]

/-- The text of a file of a source. -/
def readText (t : FileTree) (path : String) : Except ClientError String :=
  match t.read path with
  | .ok text => .ok text
  | .error fault => .error (.credentials ("failed to read " ++ path ++ ": " ++ fault.message))

/-- The texts of three files as material. -/
def readMaterial (t : FileTree) (ca cert key : String) : Except ClientError TlsMaterial := do
  let ca ← readText t ca
  let cert ← readText t cert
  let key ← readText t key
  return { ca, cert, key }

/-- The material with the authority's key from a file, if there is such a file. -/
def withCaKey (t : FileTree) (path : String) (m : TlsMaterial) : Except ClientError TlsMaterial :=
  if t.has path then
    match readText t path with
    | .ok text => .ok { m with caKey := some text }
    | .error e => .error e
  else .ok m

/-- What a directory holds: nothing, or all of the three files that are needed. -/
def lookupManaged (t : FileTree) (dir : String) : Except ClientError (Option TlsMaterial) :=
  let ca := Path.join dir caName
  let cert := Path.join dir certName
  let key := Path.join dir keyName
  let present := ([ca, cert, key].filter t.has).length
  if present = 0 then .ok none
  else if present < 3 then
    .error (.credentials ("incomplete managed credentials in " ++ dir))
  else
    match readMaterial t ca cert key with
    | .error e => .error e
    | .ok m => (withCaKey t (Path.join dir caKeyName) m).map some

/-- What three files of the user hold. All of them must be there. -/
def lookupExternal (t : FileTree) (ca cert key : String) :
    Except ClientError (Option TlsMaterial) :=
  match [ca, cert, key].find? fun path => !t.has path with
  | some path => .error (.credentials ("external certificate not found: " ++ path))
  | none => (readMaterial t ca cert key).map some

/-- The material of a source. Managed credentials that were never made are absent; external ones
that are missing are an error. -/
def lookup (source : CredentialSource) (t : FileTree) : Except ClientError (Option TlsMaterial) :=
  match source with
  | managed dir => lookupManaged t dir
  | external ca cert key => lookupExternal t ca cert key

/-- The material of a source, made for it if it is managed and has none. -/
def provide (source : CredentialSource) (mint : String → Except ClientError TlsMaterial)
    (t : FileTree) : Except ClientError Provision :=
  match source.lookup t with
  | .error e => .error e
  | .ok (some m) => .ok (.existing m)
  | .ok none =>
    match source with
    | managed _ => (mint clientName).map .generated
    | external .. => .error (.credentials "external credentials cannot be generated")

/-- The files in which material is stored. -/
def filesOf (m : TlsMaterial) : List StoredFile :=
  [{ name := caName, text := m.ca }, { name := certName, text := m.cert },
    { name := keyName, text := m.key, secret := true }] ++
  (m.caKey.map fun text => { name := caKeyName, text, secret := true }).toList

/-- Writes one file, and restricts it if it is secret. What a step that fails has done stays.
Irreducible, so that nobody who compares terms walks through a tree. -/
@[irreducible]
def storeFile (dir : String) (f : StoredFile) (t : FileTree) : Except ClientError Unit × FileTree :=
  let path := Path.join dir f.name
  match t.tryWrite path (Text.utf8 f.text) with
  | (.error fault, t) =>
    (.error (.credentials ("failed to write " ++ path ++ ": " ++ fault.message)), t)
  | (.ok (), t) =>
    if f.secret then
      match t.setMode path FileTree.privateMode with
      | .error fault =>
        (.error (.credentials ("failed to restrict " ++ path ++ ": " ++ fault.message)), t)
      | .ok t => (.ok (), t)
    else (.ok (), t)

/-- Writes files in order, up to the first that cannot be written. -/
def storeFiles (dir : String) : List StoredFile → FileTree → Except ClientError Unit × FileTree
  | [], t => (.ok (), t)
  | f :: rest, t =>
    match storeFile dir f t with
    | (.error e, t) => (.error e, t)
    | (.ok (), t) => storeFiles dir rest t

/-- Stores material. External credentials are left as they are. -/
def persist (source : CredentialSource) (m : TlsMaterial) (t : FileTree) :
    Except ClientError Unit × FileTree :=
  match source with
  | external .. => (.ok (), t)
  | managed dir =>
    match t.makeDirs dir with
    | (.error fault, t) =>
      (.error (.credentials ("failed to create " ++ dir ++ ": " ++ fault.message)), t)
    | (.ok (), t) => storeFiles dir (filesOf m) t

/-- The part of the program that reports the events of credentials. -/
def target : String := "warden_etcd::credentials"

/-- Event: a certificate was made. -/
def minted (commonName : String) : Event where
  level := .info
  target
  message := "generated etcd client certificate"
  fields := [("common_name", .text commonName)]

/-- Event: material was stored. -/
def persisted (dir : String) : Event where
  level := .info
  target
  message := "persisted managed etcd credentials"
  fields := [("dir", .text dir)]

/-- The events of storing material in a source. -/
def persistedEvents : CredentialSource → List Event
  | managed dir => [persisted dir]
  | external .. => []

end CredentialSource

end QuorumKeeper
