import MediaTransport.Audio.Packetizer
import MediaTransport.CommandLine.Command
import MediaTransport.Sdp.Connection
import MediaTransport.Session.Control
import MediaTransport.Socket.Source

/-!
# Running commands

A command runs on a network and leaves a report: what it prints, what it sends,
and the error that it stops with, if there is one.

What a command knows of the world beyond the network is given to it: the content
of a file, the first values of the counters of a stream, and the peer of a
session.
-/

namespace MediaTransport.CommandLine

open Address Socket

/-- What a command has done. -/
structure Report where
  /-- What it prints. -/
  output : String := ""
  /-- The datagrams that it sends, in order. -/
  sent : List Sent := []
  /-- What its session has done. -/
  history : List Session.Event := []
  /-- Why it stops early. -/
  error : Option Error := none

/-- The first values of the counters of a stream. -/
structure Counters where
  /-- The source identifier. -/
  ssrc : UInt32
  /-- The first sequence number. -/
  sequence : UInt16
  /-- The first timestamp. -/
  timestamp : UInt32

/-- The report of a command that stops with an error. -/
def Report.failed (e : Error) : Report := { error := some e }

/-! ## Receiving -/

/-- The line that `receive` prints when it listens. -/
def listeningLine (k : Sockets) : String :=
  "receiving data on Some(" ++ k.data.address.render ++ "), control on Some("
    ++ k.control.address.render ++ "), press Enter to stop\n"

/-- Runs `receive` up to the moment when it listens; it stops when its input
ends. -/
def Receive.run (r : Receive) (n : Network) : Report :=
  let source := Source.new r.localAddress r.dataPort r.controlPort r.includeSender r.senders []
  match activate n [] source with
  | (.error e, _) => .failed e
  | (.ok (), source) => { output := (source.sockets.map listeningLine).getD "" }

/-! ## Sending -/

/-- The packetizer of `send-l16`. -/
def Send.packetizer (s : Send) (c : Counters) : Except Error Audio.Packetizer := do
  let p ← Audio.Packetizer.build s.format s.map c.ssrc c.sequence c.timestamp
  p.withMtu s.mtu

/-- The description that `send-l16` prints. -/
def Send.description (s : Send) (p : Audio.Packetizer) (r : Resolved) : Sdp.Description where
  name := "medianet L16"
  connection := some (Sdp.connectionFor r.primary)
  media := [p.announcement "audio" s.destination.port]

/-- Sends packets up to the first failure. -/
def sendPackets (socket : DatagramSocket (List Sent)) (remote : ResolvedEndpoint) :
    List (List UInt8) → ExceptT Error (StateM (List Sent)) Unit
  | [] => return
  | packet :: rest => do
    let _ ← sendAny socket remote packet
    sendPackets socket remote rest

/-- Runs `send-l16` on the content of its file. -/
def Send.run (s : Send) (n : Network) (c : Counters) (content : Except String (List UInt8)) :
    Report :=
  let start : Except Error (Audio.Packetizer × List UInt8 × ResolvedEndpoint) := do
    let samples ← content.mapError .io
    let p ← s.packetizer c
    let remote ← s.destination.resolve n.lookup
    return (p, samples, remote)
  match start with
  | .error e => .failed e
  | .ok (p, samples, remote) =>
    let output := (s.description p remote.address).render
    match bindAny n [] remote.address.wildcard 0 with
    | .error e => { output, error := some e }
    | .ok address =>
      let (packets, _) := p.packetize { data := samples }
      match sendPackets (.onNetwork n address) remote packets [] with
      | (.ok (), sent) => { output, sent }
      | (.error e, sent) => { output, sent, error := some e }

/-! ## Playing -/

/-- The outcome of connecting to the server of a location. -/
def connectOutcome (n : Network) (l : Rtsp.Location) : Option Error :=
  match (l.endpoint.resolve n.lookup).bind (connectAny n) with
  | .ok _ => none
  | .error e => some e

/-- The lines that `play` prints about the streams of a session. -/
def streamLines (streams : List Session.Stream) : String :=
  String.join (streams.map fun s => s.uri ++ " -> " ++ s.delivery.render ++ "\n")

/-- Takes steps of the pipeline, one after the other. -/
def takeSteps : List Session.Transition → Session.Control Unit
  | [] => return
  | t :: rest => do
    Session.changeState t
    takeSteps rest

/-- Receives pieces of media up to the first failure.  The result is how many. -/
def receivePackets : (limit : Nat) → Session.Control Nat
  | 0 => return 0
  | limit + 1 => do
    let _ ← Session.receivePacket
    let more ← receivePackets limit
    return more + 1

/-- Plays for some seconds.  What a peer sends has an end, and playing for any
time at all reaches it. -/
def playFor (seconds : Nat) : Session.Control Nat := do
  takeSteps [.readyToPaused, .pausedToPlaying]
  let messages := (← get).peer.incoming.length
  receivePackets (if seconds = 0 then 0 else messages + 1)

/-- Runs `play` with a server. -/
def Play.run (p : Play) (n : Network) (peer : Session.Peer) : Report :=
  match Session.State.ofLocation p.location with
  | .error e => .failed e
  | .ok session =>
    let world : Session.World :=
      { session, peer := { peer with connects := [connectOutcome n session.location] } }
    match Session.changeState .nullToReady world with
    | (.error e, w) => { history := w.history, error := some e }
    | (.ok (), w) =>
      let streams := streamLines w.session.streams
      match playFor p.seconds w with
      | (.error e, w) => { output := streams, history := w.history, error := some e }
      | (.ok count, w) =>
        let output := streams ++ s!"received {count} packets\n"
        match takeSteps [.playingToPaused, .pausedToReady, .readyToNull] w with
        | (.error e, w) => { output, history := w.history, error := some e }
        | (.ok (), w) => { output, history := w.history }

/-! ## The program -/

/-- What the program prints and returns. -/
structure Outcome where
  /-- The exit code. -/
  code : UInt8
  /-- What it prints. -/
  output : String
  /-- What it prints about an error. -/
  errors : String

/-- The outcome of a report: code 1 for an error and 0 otherwise. -/
def Report.outcome (r : Report) : Outcome :=
  match r.error with
  | some e => ⟨1, r.output, "Error: " ++ e.message ++ "\n"⟩
  | none => ⟨0, r.output, ""⟩

/-- The file that a command reads. -/
def Command.file? : Command → Option String
  | .send s => some s.file
  | _ => none

/-- Runs a command. -/
def Command.run (c : Command) (n : Network) (counters : Counters)
    (content : Except String (List UInt8)) (peer : Session.Peer) : Report :=
  match c with
  | .receive r => r.run n
  | .send s => s.run n counters content
  | .play p => p.run n peer

end MediaTransport.CommandLine
