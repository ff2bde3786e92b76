import QuorumKeeper.Config.Schema
import QuorumKeeper.Toml.Reader

/-!
# Reading a configuration

A configuration is accepted if its text is TOML, has the right shape, keeps at least one node after
a removal, and gives both timeouts as durations that are not zero.
-/

set_option autoImplicit false

namespace QuorumKeeper

/-- Why a configuration is not accepted: the text is not TOML or does not fit the schema, no node
would have to remain, or a timeout is no duration or zero. -/
inductive ConfigError where
  | notToml
  | schema (e : SchemaError)
  | zeroMinimum
  | badTimeout (field text : String)
  | zeroTimeout (field : String)
  deriving DecidableEq, Repr

namespace ConfigError

/-- The text shown to an operator. -/
def message : ConfigError → String
  | notToml => "TOML parse error"
  | schema e => e.message
  | zeroMinimum => "cluster.minimum_remaining_nodes must be at least 1"
  | badTimeout field text =>
    "invalid " ++ field ++ " " ++ Text.quoted text ++ ": expected e.g. \"500ms\", \"5s\", \"2m\""
  | zeroTimeout field => field ++ " must be greater than zero"

end ConfigError

namespace EtcdConfig

/-- The duration of a timeout field. -/
def timeout (field text : String) : Except ConfigError Duration :=
  match Duration.parse? text with
  | none => .error (.badTimeout field text)
  | some d => if d.isZero then .error (.zeroTimeout field) else .ok d

/-- The time allowed for a dial. -/
def dialDuration (c : EtcdConfig) : Except ConfigError Duration :=
  timeout "dial_timeout" c.dialTimeoutText

/-- The time allowed for a call. -/
def callDuration (c : EtcdConfig) : Except ConfigError Duration :=
  timeout "call_timeout" c.callTimeoutText

end EtcdConfig

namespace Config

/-- The checks that the shape does not express. -/
def check (c : Config) : Except ConfigError Unit := do
  if c.cluster.minimum = 0 then
    .error .zeroMinimum
  else
    match c.etcd with
    | none => return ()
    | some etcd =>
      let _ ← etcd.dialDuration
      let _ ← etcd.callDuration
      return ()

/-- The configuration of a document. -/
def ofEntries (entries : Toml.Entries) : Except ConfigError Config :=
  match Schema.config entries with
  | .error e => .error (.schema e)
  | .ok c => c.check.map fun _ => c

/-- Reads a configuration. -/
def parse (text : String) : Except ConfigError Config :=
  match Toml.parse? text with
  | none => .error .notToml
  | some entries => ofEntries entries

end Config

end QuorumKeeper
