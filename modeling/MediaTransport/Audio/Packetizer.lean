import MediaTransport.Audio.PayloadMap
import MediaTransport.Buffer
import MediaTransport.Bytes.Chunks
import MediaTransport.Rtp.Sender

/-!
# Sending audio

A packetizer turns buffers of samples into RTP packets.  Each packet carries as
many whole frames as fit below the size limit, in big-endian order, and the media
clock counts frames.  Bytes after the last whole frame of a buffer are dropped.

A packetizer exists only for a format that is not empty, has a payload type and
leaves room for a frame in a packet.  Its settings keep that: a setting that
would break it is refused and changes nothing.
-/

namespace MediaTransport.Audio

/-- The largest packet, unless it is set otherwise. -/
def defaultMtu : Nat := 1400

/-- A sender of audio. -/
structure Packetizer where
  /-- The header state of the stream. -/
  sender : Rtp.Sender
  /-- The format of the buffers. -/
  format : Format
  /-- The payload types that may be used. -/
  map : PayloadMap
  /-- The size of the largest packet, its header included. -/
  mtu : Nat
  deriving DecidableEq, Repr

/-- Refuses a packet size that leaves no room for a frame. -/
def checkMtu (mtu : Nat) (s : Sampling) : Except Error Unit :=
  if mtu < Rtp.headerLength + s.frameSize then
    .error (.invalidConfig (.noRoomForFrame mtu s.channels))
  else .ok ()

/-- The payload type of a format, when packets of a size can carry it. -/
def payloadTypeFor (format : Format) (map : PayloadMap) (mtu : Nat) : Except Error UInt8 := do
  format.check
  checkMtu mtu format.toSampling
  selectPayloadType format.toSampling map

/-- A packetizer with given counters. -/
def Packetizer.build (format : Format) (map : PayloadMap) (ssrc : UInt32) (sequence : UInt16)
    (timestamp : UInt32) : Except Error Packetizer := do
  let payloadType ← payloadTypeFor format map defaultMtu
  return ⟨.start payloadType ssrc sequence timestamp, format, map, defaultMtu⟩

/-- The packetizer with another packet size. -/
def Packetizer.withMtu (p : Packetizer) (mtu : Nat) : Except Error Packetizer := do
  checkMtu mtu p.format.toSampling
  return { p with mtu }

/-- The packetizer with another format. -/
def Packetizer.withFormat (p : Packetizer) (format : Format) : Except Error Packetizer := do
  let payloadType ← payloadTypeFor format p.map p.mtu
  return { p with sender := p.sender.withPayloadType payloadType, format }

/-- The packetizer after a break in the timeline: the media clock is at zero. -/
def Packetizer.discontinuity (p : Packetizer) : Packetizer :=
  { p with sender := p.sender.atTime 0 }

/-- The bytes with each pair swapped. -/
def swapPairs : List UInt8 → List UInt8
  | a :: b :: rest => b :: a :: swapPairs rest
  | _ => []

/-- Samples in the order of the wire. -/
def toWire : ByteOrder → List UInt8 → List UInt8
  | .big, samples => samples
  | .little, samples => swapPairs samples

/-- The most bytes of samples that a packet carries. -/
def Packetizer.space (p : Packetizer) : Nat :=
  (p.mtu - Rtp.headerLength) / p.format.frameSize * p.format.frameSize

/-- The whole frames at the start of some samples. -/
def wholeFrames (s : Sampling) (samples : List UInt8) : List UInt8 :=
  samples.take (samples.length / s.frameSize * s.frameSize)

/-- Sends one packet with the given frames. -/
def Packetizer.send (frames : List UInt8) : StateM Packetizer (List UInt8) :=
  fun p =>
    let count := UInt32.ofNat (frames.length / p.format.frameSize)
    (p.sender.header false ++ toWire p.format.order frames,
      { p with sender := p.sender.next.advance count })

/-- Sends the whole frames of a buffer. -/
def Packetizer.packetize (buffer : Buffer) : StateM Packetizer (List (List UInt8)) := do
  let p ← get
  (Bytes.chunks p.space (wholeFrames p.format.toSampling buffer.data)).mapM Packetizer.send

/-! ## Announcement -/

/-- The name of the encoding. -/
def encodingName : String := "L16"

/-- The attributes that announce the stream. -/
def Packetizer.attributes (p : Packetizer) : List Sdp.Attribute :=
  [⟨"rtpmap", some (toString p.sender.payloadType ++ " " ++ encodingName ++ "/"
    ++ p.format.render)⟩]

/-- The section that announces the stream. -/
def Packetizer.announcement (p : Packetizer) (media : String) (port : UInt16) : Sdp.Section :=
  .ofStream media port p.sender.payloadType p.attributes

end MediaTransport.Audio
