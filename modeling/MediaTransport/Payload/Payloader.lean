import MediaTransport.Buffer
import MediaTransport.Bytes.Chunks
import MediaTransport.Payload.SubHeader
import MediaTransport.Rtp.Sender
import MediaTransport.Sdp.Description
import MediaTransport.Text.Base64
import MediaTransport.Text.Utf8
import MediaTransport.Varint

/-!
# The generic payload format

A payloader sends buffers of any kind, together with the *caps* that describe
them and with events.  What is to be sent is collected in a queue of bytes.  A
*flush* sends the whole queue as one unit: packets of the largest size with
rising offsets, the last of which carries the marker bit.

* New caps are queued with their length in front and a null character at the
  end, and go out with the next flush.  Each has a version of three bits.
* An event is queued with its length in front and flushed at once.  Events that
  come before the first caps are held, and sent one by one when caps come.
* A buffer is queued as it is and flushed at once.

A flush keeps only the version bits of the flags.  The media clock follows the
presentation times, counted from the clock reading that the payloader started
with.
-/

namespace MediaTransport.Payload

open Text

/-- The largest packet, unless it is set otherwise. -/
def defaultMtu : Nat := 1400

/-- The rate of the media clock in hertz. -/
def clockRate : Nat := 90000

/-- The name of the format. -/
def encodingName : String := "X-GST"

/-- The bytes of a packet before its share of a unit. -/
def overhead : Nat := Rtp.headerLength + subHeaderLength

/-- The kinds of events. -/
inductive EventKind where
  /-- Tags of the media. -/
  | tag
  /-- A custom event that follows the media. -/
  | customDownstream
  /-- A custom event that may go either way. -/
  | customBoth
  /-- An event that this format does not carry. -/
  | other
  deriving DecidableEq, Repr

/-- The type under which an event is carried. -/
def EventKind.code? : EventKind → Option UInt8
  | .tag => some 1
  | .customDownstream => some 2
  | .customBoth => some 2
  | .other => none

/-- An event beside the media. -/
structure Event where
  /-- Its kind. -/
  kind : EventKind
  /-- Its text. -/
  text : String
  deriving DecidableEq, Repr

/-- A sender of the generic format. -/
structure Payloader where
  /-- The header state of the stream. -/
  sender : Rtp.Sender
  /-- The clock reading that presentation times are counted from. -/
  base : UInt32
  /-- The size of the largest packet, its headers included. -/
  mtu : Nat := defaultMtu
  /-- The bytes that the next flush sends. -/
  queue : List UInt8 := []
  /-- The flags of the next flush. -/
  flags : UInt8 := 0
  /-- The event type of the next flush. -/
  eventType : UInt8 := 0
  /-- The version of the last caps. -/
  capsVersion : UInt8 := 0
  /-- The version of the next caps. -/
  nextVersion : UInt8 := 0
  /-- Whether caps have come since the start or the last reset. -/
  hasCaps : Bool := false
  /-- The last caps. -/
  caps : Option String := none
  /-- The events that wait for caps, in order. -/
  held : List Event := []
  deriving DecidableEq, Repr

/-- A payloader with given counters. -/
def Payloader.start (payloadType : UInt8) (ssrc : UInt32) (sequence : UInt16)
    (timestamp : UInt32) : Payloader :=
  { sender := .start payloadType ssrc sequence timestamp, base := timestamp }

/-- The payloader with another packet size. -/
def Payloader.withMtu (p : Payloader) (mtu : Nat) : Except Error Payloader :=
  if mtu ≤ overhead then .error (.invalidConfig (.noRoomForPayload mtu))
  else .ok { p with mtu }

/-! ## Flushing -/

/-- A share of a unit. -/
structure Fragment where
  /-- Where it starts in the unit. -/
  offset : Nat
  /-- Whether it is the last. -/
  isLast : Bool
  /-- Its bytes. -/
  body : List UInt8

/-- The fragments of a unit.  None is empty. -/
def fragments (size : Nat) (unit : List UInt8) : List Fragment :=
  let bodies := Bytes.chunks size unit
  let count := bodies.length
  bodies.zipIdx.map fun (body, i) => ⟨i * size, i + 1 == count, body⟩

/-- Sends one fragment. -/
def Payloader.send (f : Fragment) : StateM Payloader (List UInt8) :=
  fun p =>
    (p.sender.header f.isLast ++ subHeader p.flags p.eventType (UInt32.ofNat f.offset) ++ f.body,
      { p with sender := p.sender.next })

/-- The payloader after its queue has been sent. -/
def Payloader.cleared (p : Payloader) : Payloader :=
  { p with queue := [], flags := p.flags &&& versionMask, eventType := 0 }

/-- Sends the queue as one unit. -/
def Payloader.flush : StateM Payloader (List (List UInt8)) := do
  let p ← get
  let packets ← (fragments (p.mtu - overhead) p.queue).mapM Payloader.send
  modify Payloader.cleared
  return packets

/-! ## Queueing -/

/-- Bytes with their number in front. -/
def framed (bytes : List UInt8) : List UInt8 :=
  Varint.encode (UInt64.ofNat bytes.length) ++ bytes

/-- The payloader with more bytes in its queue. -/
def Payloader.enqueue (p : Payloader) (bytes : List UInt8) : Payloader :=
  { p with queue := p.queue ++ bytes }

/-- Sends an event, if the format carries it. -/
def Payloader.sendEvent (e : Event) : StateM Payloader (List (List UInt8)) :=
  match e.kind.code? with
  | none => return []
  | some code => do
    modify fun p => { p with eventType := code }.enqueue (framed (Utf8.encode e.text))
    Payloader.flush

/-- The bytes of caps on the wire. -/
def capsBytes (caps : String) : List UInt8 :=
  Utf8.encode caps ++ [0]

/-- The payloader with new caps in force and in its queue. -/
def Payloader.queueCaps (p : Payloader) (caps : String) : Payloader :=
  { p with
    flags := capsFlag ||| (p.capsVersion <<< 4)
    nextVersion := (p.nextVersion + 1) &&& 0x07 }.enqueue (framed (capsBytes caps))

/-- Takes new caps: sends the held events and queues the caps. -/
def Payloader.setCaps (caps : String) : StateM Payloader (List (List UInt8)) := do
  let held := (← get).held
  modify fun p =>
    { p with capsVersion := p.nextVersion, hasCaps := true, caps := some caps, held := [] }
  let units ← held.mapM Payloader.sendEvent
  modify fun p => p.queueCaps caps
  return units.flatten

/-- Takes an event: sends it, or holds it until caps come. -/
def Payloader.handleEvent (e : Event) : StateM Payloader (List (List UInt8)) := do
  if (← get).hasCaps then Payloader.sendEvent e
  else
    modify fun p => { p with held := p.held ++ [e] }
    return []

/-- The flag bits of a buffer. -/
def flagBits (f : BufferFlags) : UInt8 :=
  (if f.deltaUnit then deltaUnitFlag else 0) ||| (if f.media1 then media1Flag else 0)
    ||| (if f.media2 then media2Flag else 0) ||| (if f.media3 then media3Flag else 0)

/-- The clock ticks in a number of nanoseconds, modulo the width of the clock. -/
def ticksOfNanos (time : Nat) : UInt32 :=
  UInt32.ofNat (time * clockRate / nanosPerSecond)

/-- The payloader with its media clock at a presentation time, if there is one. -/
def Payloader.atTime (p : Payloader) : Option Nat → Payloader
  | none => p
  | some time => { p with sender := p.sender.atTime (p.base + ticksOfNanos time) }

/-- Sends a buffer. -/
def Payloader.handleBuffer (b : Buffer) : StateM Payloader (List (List UInt8)) := do
  modify fun p => ({ p with flags := p.flags ||| flagBits b.flags }.atTime b.time).enqueue b.data
  Payloader.flush

/-- The payloader after a restart of the stream: held events are dropped and
caps have to come again.  The queue stays. -/
def Payloader.reset (p : Payloader) : Payloader :=
  { p with held := [], hasCaps := false }

/-! ## Announcement -/

/-- The attributes that announce the stream; the caps are in Base64. -/
def Payloader.attributes (p : Payloader) : List Sdp.Attribute :=
  let payloadType := toString p.sender.payloadType
  let rtpMap : Sdp.Attribute :=
    ⟨"rtpmap", some (payloadType ++ " " ++ encodingName ++ "/" ++ toString clockRate)⟩
  match p.caps with
  | none => [rtpMap]
  | some caps =>
    let digits := String.ofList (Base64.encode (Utf8.encode caps))
    [rtpMap, ⟨"fmtp", some (payloadType ++ " caps=" ++ digits ++ ";capsversion="
      ++ toString p.capsVersion)⟩]

/-- The section that announces the stream. -/
def Payloader.announcement (p : Payloader) (media : String) (port : UInt16) : Sdp.Section :=
  .ofStream media port p.sender.payloadType p.attributes

end MediaTransport.Payload
