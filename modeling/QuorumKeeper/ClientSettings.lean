import QuorumKeeper.Duration
import QuorumKeeper.Member
import QuorumKeeper.Text.Quoted

/-!
# Settings of the etcd client

How members are dialed: whether over TLS, the name that a server's certificate must have, the port,
and how long a dial or a call may take.
-/

set_option autoImplicit false

namespace QuorumKeeper

/-- How members are dialed. -/
structure ClientSettings where
  tls : Bool := false
  serverName : String := "localhost"
  port : UInt16 := etcdPort
  dialTimeout : Duration
  callTimeout : Duration
  deriving DecidableEq, Repr

namespace ClientSettings

/-- The settings, shown for diagnosis. -/
def describe (s : ClientSettings) : String :=
  "EtcdClientCreator \x7b tls: " ++ (if s.tls then "true" else "false") ++
    ", server_name: " ++ Text.quoted s.serverName ++
    ", port: " ++ Text.decimal s.port.toNat ++
    ", dial_timeout: " ++ s.dialTimeout.text ++
    ", call_timeout: " ++ s.callTimeout.text ++ ", .. \x7d"

/-- The generator that uses the settings, shown for diagnosis. -/
def describeGenerator (s : ClientSettings) : String :=
  "ClientGenerator \x7b creator: " ++ s.describe ++ " \x7d"

end ClientSettings

end QuorumKeeper
