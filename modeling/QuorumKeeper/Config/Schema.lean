import QuorumKeeper.Config.Basic
import QuorumKeeper.Text.Quoted
import QuorumKeeper.Toml.Value

/-!
# The shape of a configuration

Readers that turn the tree of a document into the parts of a configuration. Keys are visited in the
order of the document, and the first value of the wrong shape is the error; fields that are missing
are reported only after that, in the order of their declaration. Unknown keys are passed over. A
section may also be written as an array of its fields in the order of their declaration, and a date
counts as a table without any known key.
-/

set_option autoImplicit false

namespace QuorumKeeper

open Toml (Value Entries)

/-- How a document differs from the shape of a configuration. -/
inductive SchemaError where
  | missingField (name : String)
  | wrongType (found expected : String)
  | wrongValue (found expected : String)
  | wrongLength (length : Nat) (expected : String)
  | unknownVariant (name : String) (expected : List String)
  | notSocketAddress
  deriving DecidableEq, Repr

namespace SchemaError

/-- A name between backquotes. -/
def ticked (s : String) : String :=
  "\x60" ++ s ++ "\x60"

/-- The names one may choose from. -/
def choice : List String → String
  | [] => ""
  | [a] => ticked a
  | [a, b] => ticked a ++ " or " ++ ticked b
  | names => "one of " ++ ", ".intercalate (names.map ticked)

/-- The text shown to an operator. -/
def message : SchemaError → String
  | missingField name => "missing field " ++ ticked name
  | wrongType found expected => "invalid type: " ++ found ++ ", expected " ++ expected
  | wrongValue found expected => "invalid value: " ++ found ++ ", expected " ++ expected
  | wrongLength length expected =>
    "invalid length " ++ Text.decimal length ++ ", expected " ++ expected
  | unknownVariant name expected =>
    "unknown variant " ++ ticked name ++ ", expected " ++ choice expected
  | notSocketAddress => "invalid socket address syntax"

end SchemaError

namespace Schema

/-- A value as it is named in errors. -/
def describe : Value → String
  | .string s => "string " ++ Text.quoted s
  | .integer n => "integer " ++ SchemaError.ticked (if n < 0 then "-" ++ Text.decimal n.natAbs
      else Text.decimal n.toNat)
  | .float x => "floating point " ++ SchemaError.ticked x.text
  | .boolean b => "boolean " ++ SchemaError.ticked (if b then "true" else "false")
  | .datetime _ => "map"
  | .array _ => "sequence"
  | .table .. => "map"
  | .tables _ => "sequence"

/-- The error of a value of the wrong type. -/
def mismatch {α : Type} (v : Value) (expected : String) : Except SchemaError α :=
  .error (.wrongType (describe v) expected)

/-! ## Shapes of values -/

/-- The two ways to write something with fields. -/
inductive Shape where
  | named (entries : Entries)
  | listed (items : List Value)

/-- How a value gives fields, if it does. -/
def shape? : Value → Option Shape
  | .table _ entries => some (.named entries)
  | .datetime text => some (.named [("", .string text)])
  | .array items => some (.listed items)
  | .tables items => some (.listed (items.map (.table .header)))
  | _ => none

/-- A text. -/
def text : Value → Except SchemaError String
  | .string s => .ok s
  | v => mismatch v "a string"

/-- The path of a file. -/
def path : Value → Except SchemaError String
  | .string s => .ok s
  | v => mismatch v "path string"

/-- A whole number from zero to a bound. -/
def natural (bound : Nat) (expected : String) : Value → Except SchemaError Nat
  | .integer n =>
    if 0 ≤ n ∧ n.toNat ≤ bound then .ok n.toNat
    else .error (.wrongValue (describe (.integer n)) expected)
  | v => mismatch v expected

/-- A number of nodes. -/
def count : Value → Except SchemaError Nat :=
  natural (Nat.pow 2 64 - 1) "usize"

/-- A port. -/
def port (v : Value) : Except SchemaError UInt16 :=
  (natural 65535 "u16" v).map Nat.toUInt16

/-- Several texts. -/
def texts (v : Value) : Except SchemaError (List String) :=
  match shape? v with
  | some (.listed items) => items.mapM text
  | _ => mismatch v "a sequence"

/-- An address with a port. -/
def socketAddress : Value → Except SchemaError Net.SocketAddress
  | .string s =>
    match Net.SocketAddress.parse? s with
    | some a => .ok a
    | none => .error .notSocketAddress
  | v => mismatch v "socket address"

/-- A table of endpoints. -/
def endpoints (v : Value) : Except SchemaError (List (String × Net.SocketAddress)) :=
  match shape? v with
  | some (.named entries) =>
    entries.mapM fun (name, v) => (socketAddress v).map fun a => (name, a)
  | _ => mismatch v "a map"

/-! ## Sections -/

/-- Takes the entries in, one by one. -/
def visit {α : Type} (entry : α → String → Value → Except SchemaError α) (start : α)
    (entries : Entries) : Except SchemaError α :=
  entries.foldlM (fun a (key, v) => entry a key v) start

/-- The first of the listed items with the rest, if there is one. -/
def next {α : Type} (read : Value → Except SchemaError α) :
    List Value → Except SchemaError (Option α × List Value)
  | [] => .ok (none, [])
  | v :: rest => (read v).map fun a => (some a, rest)

/-- One entry of the section on the cluster. -/
def clusterEntry (c : ClusterConfig) (key : String) (v : Value) :
    Except SchemaError ClusterConfig :=
  match key with
  | "control_plane_nodes" => (texts v).map fun nodes => { c with nodes }
  | "minimum_remaining_nodes" => (count v).map fun minimum => { c with minimum }
  | _ => .ok c

/-- The section on the cluster. -/
def cluster (v : Value) : Except SchemaError ClusterConfig :=
  match shape? v with
  | some (.named entries) => visit clusterEntry {} entries
  | some (.listed items) => do
    let (nodes, items) ← next texts items
    let (minimum, _) ← next count items
    return { nodes := nodes.getD [], minimum := minimum.getD 1 }
  | none => mismatch v "struct ClusterConfig"

/-- A choice between variants: the tag with the names it may have, and the rest of the value. The
tag of a table may stand anywhere, that of an array comes first. -/
def tagged (type tag : String) (variants : List String) (v : Value) :
    Except SchemaError (String × Shape) := do
  let variant := fun (v : Value) =>
    match v with
    | .string name =>
      if variants.contains name then Except.ok name
      else .error (.unknownVariant name variants)
    | v => mismatch v "variant identifier"
  match shape? v with
  | some (.named entries) =>
    match entries.lookup tag with
    | none => .error (.missingField tag)
    | some t => return (← variant t, .named (entries.filter (·.1 != tag)))
  | some (.listed (t :: items)) => return (← variant t, .listed items)
  | some (.listed []) => .error (.missingField tag)
  | none => mismatch v ("internally tagged enum " ++ type)

/-- "1 element" or the plural. -/
def elements (n : Nat) : String :=
  if n = 1 then "1 element" else Text.decimal n ++ " elements"

/-- Reads the fields of a variant, all with one reader and all required. -/
def variantFields {α : Type} (name : String) (fields : List String)
    (read : Value → Except SchemaError α) : Shape → Except SchemaError (List α)
  | .named entries => do
    let found ← visit (fun (found : List (String × α)) key v =>
      if fields.contains key then (read v).map fun a => found ++ [(key, a)] else .ok found)
      [] entries
    fields.mapM fun f =>
      match found.lookup f with
      | some a => .ok a
      | none => .error (.missingField f)
  | .listed items => do
    let values ← (items.take fields.length).mapM read
    if values.length < fields.length then
      .error (.wrongLength values.length
        ("struct variant " ++ name ++ " with " ++ elements fields.length))
    else if fields.length < items.length then
      .error (.wrongLength items.length (elements fields.length ++ " in sequence"))
    else return values

/-- The source of the credentials. -/
def credentials (v : Value) : Except SchemaError CredentialSource := do
  let (variant, shape) ← tagged "CredentialsConfig" "mode" ["managed", "external"] v
  match variant with
  | "managed" =>
    let fields ← variantFields "CredentialsConfig::Managed" ["dir"] path shape
    return .managed (fields.getD 0 "")
  | _ =>
    let fields ← variantFields "CredentialsConfig::External"
      ["ca_file", "cert_file", "key_file"] path shape
    return .external (fields.getD 0 "") (fields.getD 1 "") (fields.getD 2 "")

/-- One entry of the section on etcd. -/
def etcdEntry (c : EtcdConfig) (key : String) (v : Value) : Except SchemaError EtcdConfig :=
  match key with
  | "port" => (port v).map fun p => { c with port := some p }
  | "dial_timeout" => (text v).map fun s => { c with dialTimeout := some s }
  | "call_timeout" => (text v).map fun s => { c with callTimeout := some s }
  | "server_name" => (text v).map fun s => { c with serverName := some s }
  | "credentials" => (credentials v).map fun s => { c with credentials := some s }
  | _ => .ok c

/-- The section on etcd. -/
def etcd (v : Value) : Except SchemaError EtcdConfig :=
  match shape? v with
  | some (.named entries) => visit etcdEntry {} entries
  | some (.listed items) => do
    let keys := ["port", "dial_timeout", "call_timeout", "server_name", "credentials"]
    let c ← visit etcdEntry {} (keys.zip items)
    if items.length < keys.length then
      .error (.wrongLength items.length "struct EtcdConfig with 5 elements")
    else return c
  | none => mismatch v "struct EtcdConfig"

/-- The section on dialing. -/
def proxy (v : Value) : Except SchemaError ProxyConfig := do
  let (variant, shape) ← tagged "ProxyConfig" "kind" ["dns", "connect", "static"] v
  match variant with
  | "dns" =>
    let fields ← variantFields "ProxyConfig::Dns" ["domain"] text shape
    return .dns (fields.getD 0 "")
  | "connect" =>
    let fields ← variantFields "ProxyConfig::Connect" ["address"] text shape
    return .connect (fields.getD 0 "")
  | _ =>
    let fields ← variantFields "ProxyConfig::Static" ["endpoints"] endpoints shape
    return .static (fields.getD 0 [])

/-- A configuration under construction. -/
structure Partial where
  cluster : Option ClusterConfig := none
  etcd : Option EtcdConfig := none
  proxy : Option ProxyConfig := none

/-- One entry of a document. -/
def entry (c : Partial) (key : String) (v : Value) : Except SchemaError Partial :=
  match key with
  | "cluster" => (cluster v).map fun s => { c with cluster := some s }
  | "etcd" => (etcd v).map fun s => { c with etcd := some s }
  | "proxy" => (proxy v).map fun s => { c with proxy := some s }
  | _ => .ok c

/-- The configuration of a document. -/
def config (entries : Entries) : Except SchemaError Config := do
  let c ← visit entry {} entries
  match c.cluster with
  | none => .error (.missingField "cluster")
  | some cluster =>
    let base : Config := { cluster, etcd := c.etcd }
    return { base with proxy := c.proxy.getD base.proxy }

end Schema

end QuorumKeeper
