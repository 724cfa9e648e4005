import MediaTransport.Bytes.NetworkOrder

/-!
# Interleaved frames

Media may travel on the control connection between the messages (RFC 2326,
section 10.12).  A frame is a dollar sign, a channel number, a length of sixteen
bits and that many bytes.
-/

namespace MediaTransport.Rtsp

/-- The byte that starts every frame. -/
def frameStart : UInt8 := 0x24

/-- A piece of media on the control connection. -/
structure Frame where
  /-- The channel. -/
  channel : UInt8
  /-- The bytes. -/
  payload : List UInt8
  deriving DecidableEq, Repr

/-- The bytes of a frame.  The length is taken modulo its width. -/
def Frame.render (f : Frame) : List UInt8 :=
  [frameStart, f.channel] ++ Bytes.ofUInt16 (UInt16.ofNat f.payload.length) ++ f.payload

/-- Whether a frame reports on a stream instead of carrying its media: the
second byte is one of the report types. -/
def Frame.isReport (f : Frame) : Bool :=
  match f.payload with
  | _ :: kind :: _ => 200 ≤ kind && kind ≤ 204
  | _ => false

end MediaTransport.Rtsp
