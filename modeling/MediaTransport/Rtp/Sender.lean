import MediaTransport.Bytes.NetworkOrder

/-!
# Sending RTP

The fixed header of an RTP packet (RFC 3550, section 5.1) has twelve bytes.  A
*sender* holds what the headers of one stream need: the payload type, the source
identifier, and the two counters.  Writing a header uses up one sequence number.
The media clock moves only when it is told to.  Both counters wrap.

A written header has version 2 and neither padding, extension nor contributing
sources.
-/

namespace MediaTransport.Rtp

/-- The number of bytes in a fixed header. -/
def headerLength : Nat := 12

/-- The state from which the headers of one stream are written. -/
structure Sender where
  /-- The payload type, of seven bits. -/
  payloadType : UInt8
  /-- The identifier of the synchronization source. -/
  ssrc : UInt32
  /-- The sequence number of the next packet. -/
  sequence : UInt16
  /-- The timestamp of the next packet. -/
  timestamp : UInt32
  deriving DecidableEq, Repr

/-- A sender with given counters.  Only seven bits of the payload type count. -/
def Sender.start (payloadType : UInt8) (ssrc : UInt32) (sequence : UInt16)
    (timestamp : UInt32) : Sender :=
  ⟨payloadType &&& 0x7F, ssrc, sequence, timestamp⟩

/-- The bytes of the next header. -/
def Sender.header (s : Sender) (marker : Bool) : List UInt8 :=
  [0x80, (if marker then 0x80 else 0) ||| s.payloadType]
    ++ Bytes.ofUInt16 s.sequence ++ Bytes.ofUInt32 s.timestamp ++ Bytes.ofUInt32 s.ssrc

/-- The sender after one header. -/
def Sender.next (s : Sender) : Sender :=
  { s with sequence := s.sequence + 1 }

/-- The sender with another payload type. -/
def Sender.withPayloadType (s : Sender) (payloadType : UInt8) : Sender :=
  { s with payloadType := payloadType &&& 0x7F }

/-- The sender with its media clock moved on. -/
def Sender.advance (s : Sender) (ticks : UInt32) : Sender :=
  { s with timestamp := s.timestamp + ticks }

/-- The sender with its media clock at a given reading. -/
def Sender.atTime (s : Sender) (timestamp : UInt32) : Sender :=
  { s with timestamp := timestamp }

/-- Writes a header and uses up its sequence number. -/
def Sender.write (marker : Bool) : StateM Sender (List UInt8) :=
  fun s => (s.header marker, s.next)

end MediaTransport.Rtp
