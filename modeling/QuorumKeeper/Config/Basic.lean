import QuorumKeeper.ClientSettings
import QuorumKeeper.Credentials.Source
import QuorumKeeper.Net.Dialer
import QuorumKeeper.Quorum

/-!
# The configuration

The nodes of a cluster, how its etcd is reached and with which credentials, and the way endpoints
are dialed. Without an etcd section the cluster has no access to its etcd.
-/

set_option autoImplicit false

namespace QuorumKeeper

/-- The section on the cluster itself. -/
structure ClusterConfig where
  nodes : List String := []
  minimum : Nat := 1
  deriving DecidableEq, Repr

/-- The section on etcd. What is absent has a default. -/
structure EtcdConfig where
  port : Option UInt16 := none
  dialTimeout : Option String := none
  callTimeout : Option String := none
  serverName : Option String := none
  credentials : Option CredentialSource := none
  deriving DecidableEq, Repr

/-- The section on dialing. -/
inductive ProxyConfig where
  | dns (domain : String)
  | connect (address : String)
  | static (endpoints : List (String × Net.SocketAddress))
  deriving DecidableEq, Repr

/-- A configuration. -/
structure Config where
  cluster : ClusterConfig
  etcd : Option EtcdConfig := none
  proxy : ProxyConfig := .dns "kube-system.svc.cluster.local"
  deriving DecidableEq, Repr

namespace EtcdConfig

/-- The port in use. -/
def portOrDefault (c : EtcdConfig) : UInt16 :=
  c.port.getD etcdPort

/-- The name that servers are known by, in use. -/
def serverNameOrDefault (c : EtcdConfig) : String :=
  c.serverName.getD "localhost"

/-- The text of the time allowed for a dial. -/
def dialTimeoutText (c : EtcdConfig) : String :=
  c.dialTimeout.getD "10s"

/-- The text of the time allowed for a call. -/
def callTimeoutText (c : EtcdConfig) : String :=
  c.callTimeout.getD "15s"

end EtcdConfig

namespace ProxyConfig

/-- The dialer of the section. -/
def dialer : ProxyConfig → Net.Dialer
  | dns domain => .dns domain
  | connect address => .proxy address
  | static endpoints => .table endpoints

end ProxyConfig

namespace Config

/-- The quorum guard of the cluster. -/
def guard (c : Config) : QuorumGuard where
  minimum := c.cluster.minimum

/-- The source of the credentials, if there is one. -/
def credentials (c : Config) : Option CredentialSource :=
  c.etcd.bind EtcdConfig.credentials

end Config

end QuorumKeeper
