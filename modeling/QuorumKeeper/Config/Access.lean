import QuorumKeeper.Config.Parse
import QuorumKeeper.Credentials.Store
import QuorumKeeper.Inventory
import QuorumKeeper.Workload

/-!
# From a configuration to a workload

A configuration is read from a file. Its etcd section, if it has one, is turned into the means to
reach etcd: with the credentials loaded and checked, and both timeouts settled. Managed credentials
must be there already; they are made by a step of their own only.
-/

set_option autoImplicit false

namespace QuorumKeeper

/-- Why no configuration could be read from a file. -/
inductive LoadError where
  | unreadable (path : String) (fault : FileFault)
  | invalid (path : String) (e : ConfigError)
  deriving DecidableEq, Repr

namespace LoadError

/-- What was being done. -/
def context : LoadError → String
  | unreadable path _ => "failed to read " ++ path
  | invalid path _ => "invalid config " ++ path

/-- What went wrong. -/
def cause : LoadError → String
  | unreadable _ fault => fault.message
  | invalid _ e => e.message

end LoadError

/-- Why etcd cannot be accessed as configured: the credentials cannot be loaded or used, managed
ones were never made, or a timeout is not usable. -/
inductive AccessError where
  | client (e : ClientError)
  | noCredentials
  | config (e : ConfigError)

namespace AccessError

/-- The text shown to an operator. -/
def message : AccessError → String
  | client e => e.message
  | noCredentials => "etcd credentials not found; generate them first"
  | config e => e.message

end AccessError

/-- The means to reach the members of an etcd. -/
structure EtcdAccess where
  settings : ClientSettings
  tls : Option TlsClient
  dialer : Net.Dialer

namespace EtcdConfig

/-- The TLS settings of the section; without credentials there is no TLS. -/
def tlsClient (c : EtcdConfig) (t : FileTree) : Except AccessError (Option TlsClient) :=
  match c.credentials with
  | none => .ok none
  | some source =>
    match source.lookup t with
    | .error e => .error (.client e)
    | .ok none => .error .noCredentials
    | .ok (some m) =>
      match m.clientConfig with
      | .error e => .error (.client e)
      | .ok tls => .ok (some tls)

/-- The means to reach etcd over a dialer. -/
def access (c : EtcdConfig) (dialer : Net.Dialer) (t : FileTree) :
    Except AccessError EtcdAccess := do
  let tls ← c.tlsClient t
  let dialTimeout ← c.dialDuration.mapError AccessError.config
  let callTimeout ← c.callDuration.mapError AccessError.config
  return {
    settings := {
      tls := tls.isSome
      serverName := c.serverNameOrDefault
      port := c.portOrDefault
      dialTimeout
      callTimeout }
    tls
    dialer }

end EtcdConfig

namespace Config

/-- Reads a configuration from a file. -/
def load (path : String) (t : FileTree) : Except LoadError Config :=
  match t.read path with
  | .error fault => .error (.unreadable path fault)
  | .ok text =>
    match parse text with
    | .error e => .error (.invalid path e)
    | .ok c => .ok c

/-- The means to reach etcd, if the configuration has an etcd section. -/
def access (c : Config) (t : FileTree) : Except AccessError (Option EtcdAccess) :=
  match c.etcd with
  | none => .ok none
  | some etcd =>
    match etcd.access c.proxy.dialer t with
    | .error e => .error e
    | .ok a => .ok (some a)

/-- The inventory of the configured nodes. -/
def inventory (c : Config) : Inventory where
  nodes := c.cluster.nodes

/-- The workload over the configured nodes, given the means to reach etcd. -/
def workloadOver (c : Config) (access : Option EtcdAccess) : Workload where
  hasAccess := access.isSome
  guard := c.guard

/-- The workload over the configured nodes. -/
def workload (c : Config) (t : FileTree) : Except AccessError Workload :=
  match c.access t with
  | .error e => .error e
  | .ok access => .ok (c.workloadOver access)

end Config

end QuorumKeeper
