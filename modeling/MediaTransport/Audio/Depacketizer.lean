import MediaTransport.Audio.PayloadMap
import MediaTransport.Buffer
import MediaTransport.Rtp.Packet

/-!
# Receiving audio

A depacketizer turns RTP packets back into buffers.  The first packet sets the
origin of time; every later one is due by as many clock ticks after it as its
timestamp is ahead, modulo the width of the clock.  When the payload type
changes, the depacketizer looks up what the new one stands for and reports a
change of format, or that the payload type is unknown and the old format is kept.

A packet that cannot be read changes nothing.
-/

namespace MediaTransport.Audio

/-- What a new payload type meant. -/
inductive FormatNotice where
  /-- The samples have another format from now on. -/
  | changed (format : Format)
  /-- Nothing is known about the payload type. -/
  | unmapped (payloadType : UInt8)
  deriving DecidableEq, Repr

/-- A receiver of audio. -/
structure Depacketizer where
  /-- The format in effect. -/
  format : Format := .initial
  /-- The payload type of the last packet. -/
  payloadType : UInt8 := stereoPayloadType
  /-- The meaning of payload types. -/
  map : PayloadMap
  /-- The timestamp of the first packet. -/
  origin : Option UInt32 := none
  deriving DecidableEq, Repr

/-- A received buffer. -/
structure Received where
  /-- The samples, in the order of the wire, and when they are due. -/
  buffer : Buffer
  /-- What a change of payload type meant, if there was one. -/
  notice : Option FormatNotice
  deriving DecidableEq, Repr

/-- The depacketizer after a packet of a payload type, with what it reports. -/
def Depacketizer.follow (d : Depacketizer) (payloadType : UInt8) :
    Option FormatNotice × Depacketizer :=
  if payloadType = d.payloadType then (none, d)
  else
    let d := { d with payloadType }
    match samplingOf? payloadType d.map with
    | none => (some (.unmapped payloadType), d)
    | some s =>
      let format : Format := { s with }
      if format = d.format then (none, d) else (some (.changed format), { d with format })

/-- The nanoseconds in a number of ticks of a clock. -/
def nanosOfTicks (ticks rate : UInt32) : Nat :=
  ticks.toNat * nanosPerSecond / rate.toNat

/-- The buffer of a packet, and the depacketizer after it. -/
def Depacketizer.accept (d : Depacketizer) (packet : Rtp.Packet) : Received × Depacketizer :=
  let (notice, d) := d.follow packet.payloadType
  let origin := d.origin.getD packet.timestamp
  let time := nanosOfTicks (packet.timestamp - origin) d.format.rate
  (⟨{ data := packet.payload, time := some time }, notice⟩, { d with origin := some origin })

/-- Reads a packet. -/
def Depacketizer.depacketize (bytes : List UInt8) :
    ExceptT Error (StateM Depacketizer) Received :=
  fun d =>
    match Rtp.Packet.parse bytes with
    | .error e => (.error e, d)
    | .ok packet =>
      let (received, d) := d.accept packet
      (.ok received, d)

/-- The depacketizer with a new origin of time. -/
def Depacketizer.reset (d : Depacketizer) : Depacketizer :=
  { d with origin := none }

/-- The depacketizer with other payload types. -/
def Depacketizer.withMap (d : Depacketizer) (map : PayloadMap) : Depacketizer :=
  { d with map }

end MediaTransport.Audio
