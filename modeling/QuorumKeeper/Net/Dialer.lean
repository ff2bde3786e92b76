import QuorumKeeper.Net.Address

/-!
# Dialing

A dialer turns the name of an endpoint and a port into a connection, over some indirection: cluster
name service, a tunnelling proxy, or a fixed table. What the machine's network makes of an address
or a host name is a parameter.
-/

set_option autoImplicit false

namespace QuorumKeeper.Net

/-- The kinds of failure of a dial. -/
inductive DialFaultKind where
  | notFound
  | invalidInput
  | networkUnreachable
  | connectionRefused
  | uncategorized
  deriving DecidableEq, Repr

/-- Why a dial failed. -/
structure DialFault where
  kind : DialFaultKind
  message : String
  deriving DecidableEq, Repr

namespace DialFault

/-- No route leads to the address. -/
def networkUnreachable : DialFault where
  kind := .networkUnreachable
  message := "Network is unreachable (os error 101)"

/-- The text is no address with a port. -/
def invalidAddress : DialFault where
  kind := .invalidInput
  message := "invalid socket address"

/-- The part behind the last colon is no port. -/
def invalidPort : DialFault where
  kind := .invalidInput
  message := "invalid port value"

/-- The table has no address for the endpoint. -/
def noStaticAddress (endpoint : String) : DialFault where
  kind := .notFound
  message := "no static address for " ++ endpoint

/-- The name service does not answer. -/
def noNameService : DialFault where
  kind := .uncategorized
  message := "failed to lookup address information: Temporary failure in name resolution"

end DialFault

/-- What the network makes of addresses and names: `connect` reaches an address, `resolve` finds the
address of a host by its name and a port, and `tunnel` asks a proxy at an address for a tunnel to a
host and port. -/
structure Network where
  connect : SocketAddress → Except DialFault Unit
  resolve : String → UInt16 → Except DialFault SocketAddress
  tunnel : SocketAddress → String → Except DialFault Unit

namespace Network

/-- A machine without any network: no address can be reached, the loopback address included. -/
def isolated : Network where
  connect _ := .error .networkUnreachable
  resolve host port :=
    if host = "localhost" then .ok (loopback port) else .error .noNameService
  tunnel _ _ := .error .networkUnreachable

/-- The text before the last colon and the text behind it. -/
def splitPort (target : String) : Option (String × String) :=
  let reversed := target.toList.reverse
  match reversed.dropWhile (· != ':') with
  | [] => none
  | _ :: host =>
    some (String.ofList host.reverse, String.ofList (reversed.takeWhile (· != ':')).reverse)

/-- The address that a text of the form `host:port` stands for. -/
def lookup (net : Network) (target : String) : Except DialFault SocketAddress :=
  match SocketAddress.parse? target with
  | some address => .ok address
  | none =>
    match splitPort target with
    | none => .error .invalidAddress
    | some (host, port) =>
      match Text.boundedNatural? 65535 port.toList with
      | none => .error .invalidPort
      | some n => net.resolve host n.toUInt16

end Network

/-- How endpoints are dialed: as hosts under a domain of the cluster's name service; through a proxy
that opens tunnels; or over a table of addresses, in which a later entry for an endpoint takes the
place of an earlier one. -/
inductive Dialer where
  | dns (domain : String)
  | proxy (address : String)
  | table (addresses : List (String × SocketAddress))
  deriving DecidableEq, Repr

namespace Dialer

/-- The text without points at its two ends. -/
def trimPoints (domain : String) : String :=
  let cs := domain.toList.dropWhile (· == '.')
  String.ofList (cs.reverse.dropWhile (· == '.')).reverse

/-- The host and port of an endpoint under a domain. -/
def dnsTarget (domain endpoint : String) (port : UInt16) : String :=
  let domain := trimPoints domain
  let host := if domain = "" then endpoint else endpoint ++ "." ++ domain
  host ++ ":" ++ Text.decimal port.toNat

/-- The address of an endpoint in a table. -/
def tableAddress (addresses : List (String × SocketAddress)) (endpoint : String) :
    Option SocketAddress :=
  addresses.reverse.lookup endpoint

/-- Dials an endpoint. A table ignores the port in favour of the one it holds. -/
def dial (dialer : Dialer) (net : Network) (endpoint : String) (port : UInt16) :
    Except DialFault Unit := do
  match dialer with
  | dns domain => net.connect (← net.lookup (dnsTarget domain endpoint port))
  | proxy text =>
    let address ← net.lookup text
    net.connect address
    net.tunnel address (endpoint ++ ":" ++ Text.decimal port.toNat)
  | table addresses =>
    match tableAddress addresses endpoint with
    | none => .error (.noStaticAddress endpoint)
    | some address => net.connect address

end Dialer

end QuorumKeeper.Net
