import MediaTransport.Error

/-!
# Sample formats

L16 audio (RFC 3551, section 4.5.11) is a sequence of *frames*, each with one
sample of sixteen bits for every channel.  A format is a rate, a number of
channels and the order of the two bytes of a sample.  On the wire the order is
always big-endian.

Two payload types have a fixed meaning: 10 is stereo and 11 is mono, both at
44100 Hz.
-/

namespace MediaTransport.Audio

/-- The order of the two bytes of a sample. -/
inductive ByteOrder where
  /-- The more significant byte comes first, as on the wire. -/
  | big
  /-- The less significant byte comes first. -/
  | little
  deriving DecidableEq, Repr

/-- How often and for how many channels samples are taken. -/
structure Sampling where
  /-- Frames in a second. -/
  rate : UInt32
  /-- Samples in a frame. -/
  channels : UInt16
  deriving DecidableEq, Repr

/-- The format of samples in a buffer. -/
structure Format extends Sampling where
  /-- The order of the bytes of a sample. -/
  order : ByteOrder := .big
  deriving DecidableEq, Repr

/-- The bytes of one frame. -/
def Sampling.frameSize (s : Sampling) : Nat :=
  2 * s.channels.toNat

/-- A sampling as it stands after the encoding name in an announcement. -/
def Sampling.render (s : Sampling) : String :=
  toString s.rate ++ "/" ++ toString s.channels

/-- Refuses a sampling without a rate or without channels. -/
def Sampling.check (s : Sampling) : Except Error Unit :=
  if s.rate = 0 ∨ s.channels = 0 then .error (.invalidConfig (.emptyFormat s.rate s.channels))
  else .ok ()

/-- The rate of the two fixed payload types. -/
def staticRate : UInt32 := 44100

/-- The sampling of payload type 10. -/
def stereo : Sampling := ⟨staticRate, 2⟩

/-- The sampling of payload type 11. -/
def mono : Sampling := ⟨staticRate, 1⟩

/-- The payload type of `stereo`. -/
def stereoPayloadType : UInt8 := 10

/-- The payload type of `mono`. -/
def monoPayloadType : UInt8 := 11

/-- The format that holds before anything is known: big-endian stereo. -/
def Format.initial : Format := { stereo with }

end MediaTransport.Audio
