import MediaTransport.Address.Host

/-!
# Endpoints

A host, a resolved host or an address together with a port.

The text of an endpoint is a host, a colon and a port.  An IPv6 address stands in
square brackets, so that its own colons are never taken for the one before the
port.
-/

namespace MediaTransport.Address

open Text

/-- A host and a port. -/
structure Endpoint where
  /-- The host. -/
  host : Host
  /-- The port. -/
  port : UInt16
  deriving DecidableEq, Repr

/-- Reads an endpoint.  The port follows the last colon. -/
def Endpoint.parse (text : String) : Except Error Endpoint :=
  match cutLast? ':' (trim text.toList) with
  | none => .error (.invalidConfig (.missingPort text))
  | some (host, port) =>
    match readUInt16? port with
    | none => .error (.invalidConfig (.invalidPort text))
    | some port => (Host.parse host).map (⟨·, port⟩)

/-- The text of an endpoint. -/
def Endpoint.render (e : Endpoint) : String :=
  match e.host with
  | .ipv6 ip => "[" ++ ip.render ++ "]:" ++ toString e.port
  | host => host.render ++ ":" ++ toString e.port

/-- The alternatives of a host, with a port. -/
structure ResolvedEndpoint where
  /-- The alternatives. -/
  address : Resolved
  /-- The port. -/
  port : UInt16
  deriving DecidableEq, Repr

/-- Resolves an endpoint. -/
def Endpoint.resolve (lookup : Lookup) (e : Endpoint) : Except Error ResolvedEndpoint :=
  (e.host.resolve lookup).map (⟨·, e.port⟩)

/-- The address of a socket. -/
structure SocketAddress where
  /-- The address. -/
  ip : Ip
  /-- The port. -/
  port : UInt16
  deriving DecidableEq, Repr

/-- The text of a socket address. -/
def SocketAddress.render (s : SocketAddress) : String :=
  match s.ip with
  | .v4 ip => ip.render ++ ":" ++ toString s.port
  | .v6 ip => "[" ++ ip.render ++ "]:" ++ toString s.port

/-- Reads a socket address. -/
def SocketAddress.parse? (text : String) : Option SocketAddress := do
  let (host, port) ← cutLast? ':' text.toList
  let port ← (readDigits? 10 65536 port).map UInt16.ofNat
  match afterOpening? ['['] host with
  | some bracketed => do
    let ip ← Ipv6.parse? (← beforeLast? ']' bracketed)
    return ⟨.v6 ip, port⟩
  | none => do
    let ip ← Ipv4.parse? host
    return ⟨.v4 ip, port⟩

/-- An alternative with a port, in its own family. -/
def nativeAddress (ip : Ipv6) (port : UInt16) : SocketAddress :=
  ⟨ip.native, port⟩

end MediaTransport.Address
