/-!
# Buffers

The unit of media that a stream is made from: bytes, a presentation time and
four flags.  Times are whole nanoseconds since the start of the stream.
-/

namespace MediaTransport

/-- What the payload format says about a buffer. -/
structure BufferFlags where
  /-- The buffer cannot be decoded on its own. -/
  deltaUnit : Bool := false
  /-- The first flag that a media format may define. -/
  media1 : Bool := false
  /-- The second one. -/
  media2 : Bool := false
  /-- The third one. -/
  media3 : Bool := false
  deriving DecidableEq, Repr

/-- A piece of media. -/
structure Buffer where
  /-- The media bytes. -/
  data : List UInt8
  /-- When the media is due, in nanoseconds. -/
  time : Option Nat := none
  /-- The flags. -/
  flags : BufferFlags := {}
  deriving DecidableEq, Repr

/-- The nanoseconds in a second. -/
def nanosPerSecond : Nat := 1000000000

end MediaTransport
