import MediaTransport.Proofs.Bytes
import MediaTransport.Rtp.Packet
import MediaTransport.Rtp.Sender

/-!
# Reading a written header

A receiver that reads a packet with a written header finds what the sender put
there (`read_header`), with the payload untouched.  The payload type has to fit
in its seven bits, which every sender takes care of (`Sender.start_payloadType_lt`).
-/

namespace MediaTransport.Rtp

open Bytes

/-! ## The byte of the marker and the payload type -/

/-- The second byte of a header. -/
def markedType (marker : Bool) (payloadType : UInt8) : UInt8 :=
  (if marker then 0x80 else 0) ||| payloadType

/-- The low seven bits of the second byte are the payload type. -/
theorem markedType_and_low (marker : Bool) {payloadType : UInt8} (h : payloadType < 128) :
    markedType marker payloadType &&& 0x7F = payloadType := by
  have hall : ∀ n < 128, markedType marker (UInt8.ofNat n) &&& 0x7F = UInt8.ofNat n := by
    cases marker <;> decide
  simpa using hall payloadType.toNat h

/-- The high bit of the second byte is the marker. -/
theorem markedType_and_high (marker : Bool) {payloadType : UInt8} (h : payloadType < 128) :
    decide (markedType marker payloadType &&& 0x80 ≠ 0) = marker := by
  have hall : ∀ n < 128, decide (markedType marker (UInt8.ofNat n) &&& 0x80 ≠ 0) = marker := by
    cases marker <;> decide
  simpa using hall payloadType.toNat h

/-- A payload type cut to seven bits fits in seven bits. -/
theorem and_low_lt (payloadType : UInt8) : payloadType &&& 0x7F < 128 := by
  rw [UInt8.lt_iff_toNat_lt, UInt8.toNat_and]
  exact Nat.lt_of_le_of_lt Nat.and_le_right (by decide)

/-- A payload type that fits in seven bits is not cut. -/
theorem and_low_eq {payloadType : UInt8} (h : payloadType < 128) :
    payloadType &&& 0x7F = payloadType := by
  simpa [markedType] using markedType_and_low false h

/-! ## Headers -/

/-- The bytes of a header, one by one. -/
theorem header_eq (s : Sender) (marker : Bool) :
    s.header marker
      = [0x80, markedType marker s.payloadType,
        (s.sequence >>> 8).toUInt8, s.sequence.toUInt8,
        (s.timestamp >>> 24).toUInt8, (s.timestamp >>> 16).toUInt8,
        (s.timestamp >>> 8).toUInt8, s.timestamp.toUInt8,
        (s.ssrc >>> 24).toUInt8, (s.ssrc >>> 16).toUInt8,
        (s.ssrc >>> 8).toUInt8, s.ssrc.toUInt8] := rfl

@[simp] theorem length_header (s : Sender) (marker : Bool) :
    (s.header marker).length = headerLength := rfl

theorem drop_header (s : Sender) (marker : Bool) (payload : List UInt8) :
    (s.header marker ++ payload).drop headerLength = payload := rfl

/-- A written packet reads back: no part of it is taken for contributing
sources, an extension or padding. -/
theorem read_header {s : Sender} (hs : s.payloadType < 128) (marker : Bool)
    (payload : List UInt8) :
    Packet.read (s.header marker ++ payload) = .ok {
      marker
      payloadType := s.payloadType
      sequence := s.sequence
      timestamp := s.timestamp
      ssrc := s.ssrc
      contributors := 0
      payload } := by
  have hpayload : payloadOf 0x80 payload = .ok payload := by
    simp [payloadOf, dropExactly?]
    rfl
  rw [header_eq]
  simp only [List.cons_append, List.nil_append, Packet.read, hpayload, toUInt16_ofUInt16,
    toUInt32_ofUInt32, markedType_and_low marker hs, markedType_and_high marker hs]
  rfl

theorem parse_header {s : Sender} (hs : s.payloadType < 128) (marker : Bool)
    (payload : List UInt8) :
    Packet.parse (s.header marker ++ payload) = .ok {
      marker
      payloadType := s.payloadType
      sequence := s.sequence
      timestamp := s.timestamp
      ssrc := s.ssrc
      contributors := 0
      payload } := by
  rw [Packet.parse, read_header hs]
  rfl

theorem Sender.start_payloadType_lt (payloadType : UInt8) (ssrc : UInt32) (sequence : UInt16)
    (timestamp : UInt32) : (Sender.start payloadType ssrc sequence timestamp).payloadType < 128 :=
  and_low_lt payloadType

end MediaTransport.Rtp
