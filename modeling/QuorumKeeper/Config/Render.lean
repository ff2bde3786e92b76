import QuorumKeeper.Config.Basic
import QuorumKeeper.Toml.Printer

/-!
# Writing a configuration

A configuration is written with a section for every part it has. Absent fields are left out, and a
section that only has a section below it gets no header of its own.
-/

set_option autoImplicit false

namespace QuorumKeeper

open Toml (Field Section)

namespace CredentialSource

/-- The fields of a source. -/
def fields : CredentialSource → List (String × Field)
  | managed dir => [("mode", .string "managed"), ("dir", .string dir)]
  | external ca cert key =>
    [("mode", .string "external"), ("ca_file", .string ca), ("cert_file", .string cert),
      ("key_file", .string key)]

end CredentialSource

namespace EtcdConfig

/-- A field that is left out when it is absent. -/
def optionalField {α : Type} (key : String) (write : α → Field) : Option α → List (String × Field)
  | none => []
  | some a => [(key, write a)]

/-- The fields of the section itself. -/
def fields (c : EtcdConfig) : List (String × Field) :=
  optionalField "port" (fun p => .integer p.toNat) c.port ++
    optionalField "dial_timeout" .string c.dialTimeout ++
    optionalField "call_timeout" .string c.callTimeout ++
    optionalField "server_name" .string c.serverName

/-- The section with the one below it. -/
def sections (c : EtcdConfig) : List Section :=
  let own : Section := { path := ["etcd"], fields := c.fields }
  match c.credentials with
  | none => [own]
  | some source =>
    let below : Section := { path := ["etcd", "credentials"], fields := source.fields }
    if c.fields.isEmpty then [below] else [own, below]

end EtcdConfig

namespace ProxyConfig

/-- The section, with the table of endpoints below it. -/
def sections : ProxyConfig → List Section
  | dns domain =>
    [{ path := ["proxy"], fields := [("kind", .string "dns"), ("domain", .string domain)] }]
  | connect address =>
    [{ path := ["proxy"], fields := [("kind", .string "connect"), ("address", .string address)] }]
  | static endpoints =>
    [{ path := ["proxy"], fields := [("kind", .string "static")] },
      { path := ["proxy", "endpoints"]
        fields := endpoints.map fun (name, address) => (name, .string address.text) }]

end ProxyConfig

namespace Config

/-- The section on the cluster. -/
def clusterSection (c : ClusterConfig) : Section where
  path := ["cluster"]
  fields := [("control_plane_nodes", .strings c.nodes),
    ("minimum_remaining_nodes", .integer c.minimum)]

/-- All sections. -/
def sections (c : Config) : List Section :=
  clusterSection c.cluster ::
    ((match c.etcd with
      | none => []
      | some etcd => etcd.sections) ++ c.proxy.sections)

/-- The text of a configuration. -/
def render (c : Config) : String :=
  Toml.print c.sections

/-- The text of a configuration, unless one of its numbers cannot be written. -/
def render? (c : Config) : Option String :=
  Toml.print? c.sections

end Config

end QuorumKeeper
