import MediaTransport.Text.Blank
import MediaTransport.Text.Cut
import MediaTransport.Text.Numeral

/-!
# Delivery

The `Transport` header says how a stream is delivered (RFC 2326, section 12.39).
Here a stream always travels on the control connection, on a pair of channels:
one for the media and one for the reports.

The value is a profile and parameters, separated by semicolons.  `unicast` counts
in any letter case; `interleaved=` gives the channels, as two numbers or as the
first of two; `ssrc=` gives the sender in hexadecimal.  Other parameters are
ignored, and of repeated ones the last counts.  A value without channels, or with
channels that cannot be read, is refused; a sender that cannot be read is absent.
-/

namespace MediaTransport.Rtsp

open Text

/-- The profile of delivery on the control connection. -/
def interleavedProfile : String := "RTP/AVP/TCP"

/-- How a stream is delivered. -/
structure Delivery where
  /-- The profile. -/
  profile : String
  /-- Whether there is one receiver. -/
  unicast : Bool
  /-- The channel for the media. -/
  mediaChannel : UInt8
  /-- The channel for the reports. -/
  reportChannel : UInt8
  /-- The sender, if the server names one. -/
  ssrc : Option UInt32
  deriving DecidableEq, Repr

/-- The delivery to ask for: the stream of a number has the pair of channels of
that number, while there are any. -/
def Delivery.request? (stream : Nat) : Option Delivery :=
  if 2 * stream + 1 < 256 then
    some ⟨interleavedProfile, true, UInt8.ofNat (2 * stream), UInt8.ofNat (2 * stream + 1), none⟩
  else none

/-- The value of the header. -/
def Delivery.render (d : Delivery) : String :=
  d.profile ++ (if d.unicast then ";unicast" else "")
    ++ ";interleaved=" ++ toString d.mediaChannel ++ "-" ++ toString d.reportChannel
    ++ match d.ssrc with
      | some ssrc => ";ssrc=" ++ String.ofList (hexUpper 8 ssrc.toNat)
      | none => ""

/-- Reads a pair of channels. -/
def readChannels? (range : List Char) : Option (UInt8 × UInt8) :=
  match cut? '-' range with
  | some (media, report) => do return (← readUInt8? media, ← readUInt8? report)
  | none => do
    let media ← readUInt8? range
    if media = 255 then none else return (media, media + 1)

/-- What the parameters read so far say. -/
structure Parameters where
  /-- Whether there is one receiver. -/
  unicast : Bool := false
  /-- The channels. -/
  channels : Option (UInt8 × UInt8) := none
  /-- The sender. -/
  ssrc : Option UInt32 := none
  deriving DecidableEq, Repr

/-- The parameters with one more, or nothing when its channels cannot be read. -/
def Parameters.put? (p : Parameters) (parameter : List Char) : Option Parameters :=
  if equalsIgnoringCase parameter "unicast".toList then some { p with unicast := true }
  else
    match afterOpening? "interleaved=".toList parameter with
    | some range => (readChannels? range).map fun channels => { p with channels := some channels }
    | none =>
      match afterOpening? "ssrc=".toList parameter with
      | some ssrc => some { p with ssrc := readHexUInt32? ssrc }
      | none => some p

/-- Reads the value of the header. -/
def Delivery.parse? (value : String) : Option Delivery :=
  match (value.toList.splitOn ';').map trim with
  | [] => none
  | profile :: parameters => do
    let p ← parameters.foldlM Parameters.put? {}
    let (mediaChannel, reportChannel) ← p.channels
    return ⟨String.ofList profile, p.unicast, mediaChannel, reportChannel, p.ssrc⟩

end MediaTransport.Rtsp
