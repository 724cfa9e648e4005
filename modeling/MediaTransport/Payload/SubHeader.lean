import MediaTransport.Bytes.NetworkOrder
import MediaTransport.Error

/-!
# Sub-headers

Every payload of the generic format starts with a sub-header of eight bytes: a
byte of flags, the type of an event, two zero bytes, and the number of payload
bytes that earlier packets of the same unit carry.

The flags say whether the unit starts with caps, which version of the caps is in
force (three bits), and what the buffer flags are.
-/

namespace MediaTransport.Payload

/-- The number of bytes in a sub-header. -/
def subHeaderLength : Nat := 8

/-- The flag of a unit with caps in it. -/
def capsFlag : UInt8 := 0x80

/-- The bits of the caps version. -/
def versionMask : UInt8 := 0x70

/-- The flag of a buffer that cannot be decoded on its own. -/
def deltaUnitFlag : UInt8 := 0x08

/-- The first flag of a media format. -/
def media1Flag : UInt8 := 0x04

/-- The second one. -/
def media2Flag : UInt8 := 0x02

/-- The third one. -/
def media3Flag : UInt8 := 0x01

/-- The fields of a sub-header. -/
structure SubHeader where
  /-- The unit starts with caps. -/
  capsInline : Bool
  /-- The version of the caps in force. -/
  capsVersion : UInt8
  /-- The buffer cannot be decoded on its own. -/
  deltaUnit : Bool
  /-- The first flag of the media format. -/
  media1 : Bool
  /-- The second one. -/
  media2 : Bool
  /-- The third one. -/
  media3 : Bool
  /-- The type of the event in the unit, or zero. -/
  eventType : UInt8
  /-- How many bytes of the unit came before. -/
  offset : UInt32
  deriving DecidableEq, Repr

/-- Reads a sub-header. -/
def SubHeader.parse : List UInt8 → Except Error SubHeader
  | flags :: eventType :: _ :: _ :: o₀ :: o₁ :: o₂ :: o₃ :: _ =>
    .ok {
      capsInline := flags &&& capsFlag ≠ 0
      capsVersion := (flags &&& versionMask) >>> 4
      deltaUnit := flags &&& deltaUnitFlag ≠ 0
      media1 := flags &&& media1Flag ≠ 0
      media2 := flags &&& media2Flag ≠ 0
      media3 := flags &&& media3Flag ≠ 0
      eventType
      offset := Bytes.toUInt32 o₀ o₁ o₂ o₃ }
  | _ => .error (.malformedPacket .shortSubHeader)

/-- The bytes of a sub-header with given flags. -/
def subHeader (flags eventType : UInt8) (offset : UInt32) : List UInt8 :=
  [flags, eventType, 0, 0] ++ Bytes.ofUInt32 offset

end MediaTransport.Payload
