import MediaTransport.Socket.Failover

/-!
# Datagram sources

A source listens on two sockets, one for media and one for control messages, and
hands on what authorized senders send.  Each socket is a queue of datagrams in
the order of their arrival.

* The control socket is read before the data socket.
* A datagram of a sender that is not authorized is read and dropped.
* The first datagram after an activation is held back, and a discontinuity is
  handed on in its place; the datagram follows.
* A cancellation is handed on before anything else, once for each request.

The sockets exist between `activate` and `deactivate`.  An activation that fails
leaves nothing bound, and the settings cannot change while the source is active.
-/

namespace MediaTransport.Socket

open Address

/-- A datagram that has arrived. -/
structure Datagram where
  /-- Who sent it. -/
  sender : SocketAddress
  /-- Its bytes. -/
  payload : List UInt8
  deriving DecidableEq, Repr

/-- A datagram as it is handed on. -/
structure Delivered where
  /-- Its bytes. -/
  payload : List UInt8
  /-- Who sent it, if that is wanted. -/
  sender : Option SocketAddress
  deriving DecidableEq, Repr

/-- What a source hands on. -/
inductive Item where
  /-- The timeline starts here. -/
  | discontinuity
  /-- Media. -/
  | data (d : Delivered)
  /-- A control message. -/
  | control (d : Delivered)
  /-- Someone has asked to stop. -/
  | canceled
  deriving DecidableEq, Repr

/-- A socket that listens. -/
structure Listener where
  /-- The address it is bound to. -/
  address : SocketAddress
  /-- What has arrived and has not been read, in order. -/
  queue : List Datagram := []
  deriving DecidableEq, Repr

/-- The two sockets of an active source. -/
structure Sockets where
  /-- The socket for media. -/
  data : Listener
  /-- The socket for control messages. -/
  control : Listener
  deriving DecidableEq, Repr

/-- A datagram source. -/
structure Source where
  /-- The address both sockets bind. -/
  localAddress : Pool Host Resolved
  /-- The port for media; zero stands for a free one. -/
  dataPort : UInt16
  /-- The port for control messages; zero stands for a free one. -/
  controlPort : UInt16
  /-- Whether the sender is handed on with a datagram. -/
  includeSender : Bool
  /-- Whose datagrams are handed on. -/
  senders : Pool Host Resolved
  /-- Who gets the control messages that are sent. -/
  receivers : Pool Endpoint ResolvedEndpoint
  /-- The sockets, while the source is active. -/
  sockets : Option Sockets := none
  /-- Whether a discontinuity is due before the next datagram. -/
  awaitsFirst : Bool := true
  /-- The datagram that was held back for a discontinuity. -/
  held : Option Item := none
  /-- The cancellations that have not been handed on. -/
  cancellations : Nat := 0
  deriving DecidableEq, Repr

/-- An activity of a source. -/
abbrev Activity (α : Type) := ExceptT Error (StateM Source) α

/-! ## Settings -/

/-- An inactive source. -/
def Source.new (localAddress : Host) (dataPort controlPort : UInt16) (includeSender : Bool)
    (senders : List Host) (receivers : List Endpoint) : Source where
  localAddress := .ofList [localAddress]
  dataPort
  controlPort
  includeSender
  senders := .ofList senders
  receivers := .ofList receivers

/-- Whether the sockets are open. -/
def Source.isActive (s : Source) : Bool :=
  s.sockets.isSome

/-- Changes a setting that holds while the sockets are open. -/
def whileInactive (setting : SourceSetting) (change : Source → Source) : Activity Unit := do
  if (← get).isActive then throw (.active setting)
  modify change

/-- Sets the address both sockets bind. -/
def setLocalAddress (address : Host) : Activity Unit :=
  whileInactive .localAddress fun s =>
    { s with localAddress := s.localAddress.replace [address] }

/-- Sets the port for media. -/
def setDataPort (port : UInt16) : Activity Unit :=
  whileInactive .dataPort fun s => { s with dataPort := port }

/-- Sets the port for control messages. -/
def setControlPort (port : UInt16) : Activity Unit :=
  whileInactive .controlPort fun s => { s with controlPort := port }

/-- The source with other authorized senders. -/
def Source.withSenders (s : Source) (senders : List Host) : Source :=
  { s with senders := s.senders.replace senders }

/-- The source with other receivers of control messages. -/
def Source.withReceivers (s : Source) (receivers : List Endpoint) : Source :=
  { s with receivers := s.receivers.replace receivers }

/-- The source with one more cancellation. -/
def Source.cancel (s : Source) : Source :=
  { s with cancellations := s.cancellations + 1 }

/-! ## Activation -/

/-- The resolution of the local address. -/
def resolvedLocal (lookup : Lookup) : Activity Resolved := do
  let s ← get
  let (outcome, localAddress) := Pool.resolved (Host.resolve lookup) s.localAddress
  set { s with localAddress }
  match ← outcome with
  | [] => throw (.invalidConfig .noLocalAddress)
  | r :: _ => return r

/-- Binds the two sockets, beside addresses that others have taken. -/
def openSockets (n : Network) (taken : List SocketAddress) (r : Resolved)
    (dataPort controlPort : UInt16) : Except Error Sockets := do
  let data ← bindAny n taken r dataPort
  let control ← bindAny n (data :: taken) r controlPort
  return { data := { address := data }, control := { address := control } }

/-- Opens the sockets, unless they are open. -/
def activate (n : Network) (taken : List SocketAddress) : Activity Unit := do
  if (← get).isActive then return
  let r ← resolvedLocal n.lookup
  let s ← get
  let sockets ← openSockets n taken r s.dataPort s.controlPort
  set { s with sockets := some sockets, awaitsFirst := true, held := none }

/-- The source with its sockets closed.  What they had queued is lost. -/
def Source.deactivate (s : Source) : Source :=
  { s with sockets := none, held := none }

/-! ## Receiving -/

/-- The source after a datagram has arrived at its data socket. -/
def Source.arriveData (s : Source) (d : Datagram) : Source :=
  { s with sockets := s.sockets.map fun k =>
    { k with data := { k.data with queue := k.data.queue ++ [d] } } }

/-- The source after a datagram has arrived at its control socket. -/
def Source.arriveControl (s : Source) (d : Datagram) : Source :=
  { s with sockets := s.sockets.map fun k =>
    { k with control := { k.control with queue := k.control.queue ++ [d] } } }

/-- Whether a sender is authorized.  While the senders cannot be resolved, none
is. -/
def isAuthorized (lookup : Lookup) (sender : SocketAddress) :
    StateM (Pool Host Resolved) Bool := do
  match ← Pool.authorizes lookup sender.ip with
  | .ok authorized => return authorized
  | .error _ => return false

/-- Reads a queue up to the first datagram of an authorized sender.  The result
is that datagram and what is left. -/
def takeAuthorized (lookup : Lookup) :
    List Datagram → StateM (Pool Host Resolved) (Option Datagram × List Datagram)
  | [] => return (none, [])
  | d :: rest => do
    if ← isAuthorized lookup d.sender then return (some d, rest)
    else takeAuthorized lookup rest

/-- A datagram as it is handed on. -/
def Source.deliver (s : Source) (d : Datagram) : Delivered :=
  ⟨d.payload, if s.includeSender then some d.sender else none⟩

/-- Reads the sockets up to the first datagram of an authorized sender, the
control socket first. -/
def Source.receive (lookup : Lookup) (s : Source) (k : Sockets) : Option Item × Source :=
  let ((control, controlQueue), senders) := takeAuthorized lookup k.control.queue s.senders
  let k := { k with control := { k.control with queue := controlQueue } }
  match control with
  | some d => (some (.control (s.deliver d)), { s with senders, sockets := some k })
  | none =>
    let ((data, dataQueue), senders) := takeAuthorized lookup k.data.queue senders
    let k := { k with data := { k.data with queue := dataQueue } }
    (data.map fun d => .data (s.deliver d), { s with senders, sockets := some k })

/-- The next item, or nothing when the source would have to wait for one. -/
def nextItem (lookup : Lookup) : Activity (Option Item) := do
  let s ← get
  match s.sockets with
  | none => throw .notActive
  | some k =>
    if s.cancellations > 0 then
      set { s with cancellations := s.cancellations - 1 }
      return some .canceled
    else if let some item := s.held then
      set { s with held := none }
      return some item
    else
      let (item, s) := s.receive lookup k
      if item.isSome && s.awaitsFirst then
        set { s with awaitsFirst := false, held := item }
        return some .discontinuity
      else
        set s
        return item

/-! ## Sending -/

/-- Sends a datagram to some endpoints, one after the other.  The result is the
number of endpoints that it was sent to. -/
def sendToAll {σ : Type} (socket : DatagramSocket σ) (payload : List UInt8) :
    List ResolvedEndpoint → StateM σ Nat
  | [] => return 0
  | remote :: rest => do
    let outcome ← (sendAny socket remote payload).run
    let others ← sendToAll socket payload rest
    return if outcome.isOk then others + 1 else others

/-- Sends a control message to every receiver, from a socket at the address of the control
socket.  The result does the sending, once every receiver is resolved, and gives the number of
receivers that the message was sent to. -/
def sendControlBy {σ : Type} (lookup : Lookup) (socket : SocketAddress → DatagramSocket σ)
    (payload : List UInt8) : Activity (StateM σ Nat) := do
  let s ← get
  match s.sockets with
  | none => throw .notActive
  | some k =>
    let (outcome, receivers) := Pool.resolved (Endpoint.resolve lookup) s.receivers
    set { s with receivers }
    let remotes ← outcome
    return sendToAll (socket k.control.address) payload remotes

/-- Sends a control message to every receiver on a network.  The result is the number of
receivers that it was sent to, and what was sent. -/
def sendControl (n : Network) (payload : List UInt8) : Activity (Nat × List Sent) := do
  let send ← sendControlBy n.lookup (.onNetwork n) payload
  return send.run []

end MediaTransport.Socket
