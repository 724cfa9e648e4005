import MediaTransport.Socket.Network

/-!
# Trying alternatives

A resolved host may have addresses of both families, of which only one can be
used.  Binding, sending and connecting try the alternatives in order and stop at
the first success.  When all of them fail, the error counts them and gives the
reason of the last one.

A socket of the IPv4 family addresses an alternative in its IPv4 form and cannot
use one that has none.  A socket of the IPv6 family addresses every alternative
in its IPv6 form.
-/

namespace MediaTransport.Socket

open Address

variable {σ α β : Type}

/-- Tries the items of a list in order, up to the first success.  The result of a
failure is the reason of the last attempt, or the given one when there is none. -/
def firstSuccess (attempt : α → StateM σ (Except String β)) (reason : String) :
    List α → StateM σ (Except String β)
  | [] => return .error reason
  | a :: rest => do
    match ← attempt a with
    | .ok b => return .ok b
    | .error reason => firstSuccess attempt reason rest

/-- The reason of failure when there is nothing to try. -/
def noAlternatives : String := "no alternatives"

/-- Tries the alternatives of a host. -/
def tryAlternatives (operation : SocketOperation) (r : Resolved)
    (attempt : Ipv6 → StateM σ (Except String β)) : ExceptT Error (StateM σ) β := do
  match ← firstSuccess attempt noAlternatives r.alternatives with
  | .ok b => return b
  | .error reason => throw (.socket operation r.alternatives.length reason)

/-! ## Binding and connecting -/

/-- Binds a datagram socket, each attempt being made by `bind`. -/
def bindAnyBy (bind : SocketAddress → StateM σ (Except String β)) (r : Resolved) (port : UInt16) :
    ExceptT Error (StateM σ) β :=
  tryAlternatives .bind r fun ip => bind (nativeAddress ip port)

/-- Opens a connection, each attempt being made by `connect`. -/
def connectAnyBy (connect : SocketAddress → StateM σ (Except String β)) (r : ResolvedEndpoint) :
    ExceptT Error (StateM σ) β :=
  tryAlternatives .connect r.address fun ip => connect (nativeAddress ip r.port)

/-- Binds a datagram socket on a network, beside those that are taken. -/
def bindAny (n : Network) (taken : List SocketAddress) (r : Resolved) (port : UInt16) :
    Except Error SocketAddress :=
  Prod.fst ((bindAnyBy (fun wanted => pure (n.bind taken wanted)) r port).run ())

/-- Opens a connection on a network. -/
def connectAny (n : Network) (r : ResolvedEndpoint) : Except Error SocketAddress :=
  Prod.fst ((connectAnyBy (fun target => pure (n.connect target)) r).run ())

/-! ## Sending -/

/-- A bound datagram socket. -/
structure DatagramSocket (σ : Type) where
  /-- The address it is bound to, or why that is unknown. -/
  localAddress : Except String SocketAddress
  /-- Sends a datagram; the result is the number of bytes sent. -/
  sendTo : SocketAddress → List UInt8 → StateM σ (Except String Nat)

/-- The reason for not sending to an IPv6 address from an IPv4 socket. -/
def familyMismatch : String := "IPv6 destination from an IPv4 socket"

/-- The address by which a socket reaches an alternative. -/
def targetFrom (source : Ip) (ip : Ipv6) (port : UInt16) : Except String SocketAddress :=
  match source with
  | .v6 _ => .ok ⟨.v6 ip, port⟩
  | .v4 _ =>
    match ip.unmapped? with
    | some ip => .ok ⟨.v4 ip, port⟩
    | none => .error familyMismatch

/-- Sends a datagram to an endpoint. -/
def sendAny (socket : DatagramSocket σ) (remote : ResolvedEndpoint) (payload : List UInt8) :
    ExceptT Error (StateM σ) Nat := do
  match socket.localAddress with
  | .error reason => throw (.io reason)
  | .ok source =>
    tryAlternatives .send remote.address fun ip =>
      match targetFrom source.ip ip remote.port with
      | .ok target => socket.sendTo target payload
      | .error reason => return .error reason

/-! ## Sockets -/

/-- A datagram that was sent. -/
structure Sent where
  /-- Where it was sent. -/
  target : SocketAddress
  /-- Its bytes. -/
  payload : List UInt8
  deriving DecidableEq, Repr

/-- A socket on a network.  Its state is what it has sent, in order. -/
def DatagramSocket.onNetwork (n : Network) (address : SocketAddress) :
    DatagramSocket (List Sent) where
  localAddress := .ok address
  sendTo target payload := fun sent =>
    match n.sendDatagram target payload with
    | .ok count => (.ok count, sent ++ [⟨target, payload⟩])
    | .error reason => (.error reason, sent)

/-- The state of a socket whose sends end as is laid down beforehand. -/
structure Script where
  /-- The outcomes of the coming sends.  One that is not given sends all. -/
  outcomes : List (Option (Except String Nat))
  /-- The addresses that were tried, in order. -/
  targets : List SocketAddress := []

/-- A socket that follows a script. -/
def DatagramSocket.scripted (localAddress : Except String SocketAddress) :
    DatagramSocket Script where
  localAddress
  sendTo target payload := fun script =>
    let outcome := (script.outcomes.head?.join).getD (.ok payload.length)
    (outcome, ⟨script.outcomes.tail, script.targets ++ [target]⟩)

end MediaTransport.Socket
