import MediaTransport.Text.Blank
import MediaTransport.Text.Cut
import MediaTransport.Text.Numeral

/-!
# Attributes

An attribute of a session description is a flag (`a=name`) or has a value
(`a=name:value`); the first colon ends the name.

The value of an `rtpmap` attribute ties a payload type to an encoding, a clock
rate and, for audio, a number of channels: `96 L16/48000/2`.
-/

namespace MediaTransport.Sdp

open Text

/-- An attribute line. -/
structure Attribute where
  /-- The part before the first colon. -/
  name : String
  /-- The part after it, or nothing for a flag. -/
  value : Option String
  deriving DecidableEq, Repr

/-- Reads what follows `a=`. -/
def Attribute.ofText (text : List Char) : Attribute :=
  match cut? ':' text with
  | some (name, value) => ⟨String.ofList name, some (String.ofList value)⟩
  | none => ⟨String.ofList text, none⟩

/-- The line of an attribute, without its end. -/
def Attribute.render (a : Attribute) : String :=
  match a.value with
  | some value => "a=" ++ a.name ++ ":" ++ value
  | none => "a=" ++ a.name

/-- The value of the first attribute of a name; a flag has the empty value. -/
def attribute? (attributes : List Attribute) (name : String) : Option String :=
  (attributes.find? (·.name == name)).map (·.value.getD "")

/-- What a payload type stands for. -/
structure RtpMap where
  /-- The payload type. -/
  payloadType : UInt8
  /-- The name of the encoding. -/
  encoding : String
  /-- The rate of the media clock in hertz. -/
  clockRate : UInt32
  /-- The number of channels, if it is given. -/
  channels : Option UInt16
  deriving DecidableEq, Repr

/-- Reads the value of an `rtpmap` attribute.  Parts after the channels are
ignored. -/
def RtpMap.ofText? (value : List Char) : Option RtpMap := do
  let (payloadType, rest) ← cut? ' ' (trim value)
  match (trim rest).splitOn '/' with
  | encoding :: rate :: more =>
    let clockRate ← readUInt32? rate
    let channels ← match more with
      | [] => some none
      | channels :: _ => (readUInt16? channels).map some
    let payloadType ← readUInt8? payloadType
    return ⟨payloadType, String.ofList encoding, clockRate, channels⟩
  | _ => none

end MediaTransport.Sdp
