import MediaTransport.Address.Pool

/-!
# Networks

What the network around a program lets it do: which names have addresses, which
local addresses can be bound, where a connection is accepted, and where datagrams
arrive.

On an *unrouted* host no interface is up.  Nothing there refuses a local address,
since there is none to compare it with, and nothing can be reached.  On a
*loopback* host the addresses of the host itself can be bound and reached, and
nothing accepts connections.

A datagram socket binds one address and port.  Port zero stands for a free one;
another port is refused while it is bound on the same address.
-/

namespace MediaTransport.Socket

open Address

/-- What a network allows. -/
structure Network where
  /-- The name service. -/
  lookup : Lookup
  /-- Whether a local address can be bound. -/
  isLocal : Ip → Bool
  /-- Whether a connection is accepted. -/
  accepts : SocketAddress → Bool
  /-- Whether datagrams arrive. -/
  reaches : Ip → Bool

/-- The network of a host without interfaces. -/
def Network.unrouted : Network where
  lookup := .numeric
  isLocal := fun _ => true
  accepts := fun _ => false
  reaches := fun _ => false

/-- Whether an address belongs to the host itself. -/
def isLoopback : Ip → Bool
  | .v4 ip => ip.a == 127
  | .v6 _ => false

/-- The network of a host that reaches only itself. -/
def Network.loopback : Network where
  lookup := .numeric
  isLocal := fun ip => isLoopback ip || ip == .v4 .unspecified
  accepts := fun _ => false
  reaches := fun ip => isLoopback ip

/-! ## Failures -/

/-- The reason for refusing an address that is not local. -/
def addressNotAvailable : String := "Cannot assign requested address (os error 99)"

/-- The reason for refusing a port that is bound. -/
def addressInUse : String := "Address already in use (os error 98)"

/-- The reason for refusing a datagram that is too long. -/
def messageTooLong : String := "Message too long (os error 90)"

/-- The reason for not reaching an address. -/
def networkUnreachable : String := "Network is unreachable (os error 101)"

/-- The reason for not being accepted. -/
def connectionRefused : String := "Connection refused (os error 111)"

/-! ## Operations -/

/-- The most bytes that a datagram carries. -/
def datagramLimit : Nat := 65507

/-- The first port that may be chosen freely. -/
def firstFreePort : Nat := 32768

/-- The ports that may be chosen freely. -/
def freePorts : List UInt16 :=
  (List.range (65536 - firstFreePort)).map fun n => UInt16.ofNat (firstFreePort + n)

/-- Binds an address, beside those that are taken already. -/
def Network.bind (n : Network) (taken : List SocketAddress) (wanted : SocketAddress) :
    Except String SocketAddress :=
  if !n.isLocal wanted.ip then .error addressNotAvailable
  else if wanted.port ≠ 0 then
    if taken.contains wanted then .error addressInUse else .ok wanted
  else
    match freePorts.find? fun port => !taken.contains ⟨wanted.ip, port⟩ with
    | some port => .ok ⟨wanted.ip, port⟩
    | none => .error addressInUse

/-- Opens a connection; the result is the address of the other side. -/
def Network.connect (n : Network) (target : SocketAddress) : Except String SocketAddress :=
  if n.accepts target then .ok target
  else if n.reaches target.ip then .error connectionRefused
  else .error networkUnreachable

/-- Sends a datagram; the result is the number of bytes sent. -/
def Network.sendDatagram (n : Network) (target : SocketAddress) (payload : List UInt8) :
    Except String Nat :=
  if payload.length > datagramLimit then .error messageTooLong
  else if n.reaches target.ip then .ok payload.length
  else .error networkUnreachable

end MediaTransport.Socket
