import MediaTransport.Bytes.NetworkOrder
import MediaTransport.Error

/-!
# Received RTP packets

A packet is a fixed header of twelve bytes, up to fifteen contributing sources of
four bytes, an extension if its bit is set, the payload, and padding if its bit
is set.  The extension starts with four bytes, the last two of which count the
words of four bytes that follow.  The last byte of the padding counts the
padding, itself included.

A packet that is cut off, has another version or has impossible padding is
refused with the first fault in this order.
-/

namespace MediaTransport.Rtp

/-- The parts of a packet that a receiver uses. -/
structure Packet where
  /-- The marker bit. -/
  marker : Bool
  /-- The payload type, of seven bits. -/
  payloadType : UInt8
  /-- The sequence number. -/
  sequence : UInt16
  /-- The reading of the media clock. -/
  timestamp : UInt32
  /-- The synchronization source. -/
  ssrc : UInt32
  /-- The number of contributing sources. -/
  contributors : UInt8
  /-- The bytes between the header and the padding. -/
  payload : List UInt8
  deriving DecidableEq, Repr

/-- What follows a number of bytes, when there are so many. -/
def dropExactly? (count : Nat) (bytes : List UInt8) : Option (List UInt8) :=
  if bytes.length < count then none else some (bytes.drop count)

/-- What follows the extension. -/
def afterExtension : List UInt8 → Except PacketFault (List UInt8)
  | _ :: _ :: high :: low :: bytes =>
    match dropExactly? (4 * (Bytes.toUInt16 high low).toNat) bytes with
    | some rest => .ok rest
    | none => .error .extension
  | _ => .error .extensionHeader

/-- What precedes the padding. -/
def beforePadding (bytes : List UInt8) : Except PacketFault (List UInt8) :=
  match bytes.getLast? with
  | none => .error .padding
  | some count =>
    if count = 0 ∨ bytes.length < count.toNat then .error .padding
    else .ok (bytes.take (bytes.length - count.toNat))

/-- The payload among the bytes after the fixed header, whose first byte says
which parts there are. -/
def payloadOf (flags : UInt8) (bytes : List UInt8) : Except PacketFault (List UInt8) := do
  let some bytes := dropExactly? (4 * (flags &&& 0x0F).toNat) bytes
    | throw .contributors
  let bytes ← if flags &&& 0x10 = 0 then pure bytes else afterExtension bytes
  if flags &&& 0x20 = 0 then pure bytes else beforePadding bytes

/-- Reads a packet, or names its first fault. -/
def Packet.read : List UInt8 → Except PacketFault Packet
  | b₀ :: b₁ :: s₀ :: s₁ :: t₀ :: t₁ :: t₂ :: t₃ :: c₀ :: c₁ :: c₂ :: c₃ :: bytes =>
    if b₀ >>> 6 ≠ 2 then .error .version
    else do
      let payload ← payloadOf b₀ bytes
      return {
        marker := b₁ &&& 0x80 ≠ 0
        payloadType := b₁ &&& 0x7F
        sequence := Bytes.toUInt16 s₀ s₁
        timestamp := Bytes.toUInt32 t₀ t₁ t₂ t₃
        ssrc := Bytes.toUInt32 c₀ c₁ c₂ c₃
        contributors := b₀ &&& 0x0F
        payload }
  | _ => .error .shortHeader

/-- Reads a packet. -/
def Packet.parse (bytes : List UInt8) : Except Error Packet :=
  (Packet.read bytes).mapError .malformedPacket

end MediaTransport.Rtp
