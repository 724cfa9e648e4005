import MediaTransport.Audio.Format
import MediaTransport.Sdp.Description

/-!
# Payload-type maps

A map gives a sampling to payload types that have no fixed meaning.  Each
payload type has at most one entry, entries stand in increasing order of their
payload types, and an entry is refused when its type needs more than seven bits
or its sampling is empty.

A map is written as entries separated by commas, semicolons or newlines.  An
entry is `96:48000/2` or `96 L16/48000/2`, with an optional `rtpmap:` before it;
in the second form entries for encodings other than L16 are skipped.  A map can
also be collected from the `rtpmap` attributes of a session description.

`selectPayloadType` and `samplingOf?` are the two directions in which sender and
receiver use a map.
-/

namespace MediaTransport.Audio

open Text

/-- Samplings by payload type. -/
structure PayloadMap where
  /-- The entries, by increasing payload type. -/
  entries : List (UInt8 × Sampling)
  deriving DecidableEq, Repr

/-- The map without entries. -/
def PayloadMap.empty : PayloadMap := ⟨[]⟩

/-- The sampling of a payload type. -/
def PayloadMap.get? (m : PayloadMap) (payloadType : UInt8) : Option Sampling :=
  (m.entries.find? (·.1 == payloadType)).map (·.2)

/-- The lowest payload type of a sampling. -/
def PayloadMap.find? (m : PayloadMap) (s : Sampling) : Option UInt8 :=
  (m.entries.find? (·.2 == s)).map (·.1)

/-- Whether there is no entry. -/
def PayloadMap.isEmpty (m : PayloadMap) : Bool :=
  m.entries.isEmpty

/-- Entries with one more, which replaces that of the same payload type. -/
def insertEntry (payloadType : UInt8) (s : Sampling) :
    List (UInt8 × Sampling) → List (UInt8 × Sampling)
  | [] => [(payloadType, s)]
  | e :: entries =>
    if payloadType < e.1 then (payloadType, s) :: e :: entries
    else if payloadType = e.1 then (payloadType, s) :: entries
    else e :: insertEntry payloadType s entries

/-- The map with one more entry. -/
def PayloadMap.insert (m : PayloadMap) (payloadType : UInt8) (s : Sampling) :
    Except Error PayloadMap :=
  if payloadType > 127 then .error (.invalidConfig (.payloadTypeRange payloadType))
  else do
    s.check
    return ⟨insertEntry payloadType s m.entries⟩

/-! ## From session descriptions -/

/-- Whether an encoding is L16, in any letter case. -/
def isL16 (encoding : List Char) : Bool :=
  equalsIgnoringCase encoding "L16".toList

/-- The map with the entry of an `rtpmap` attribute.  An attribute for another
encoding or with an entry that is refused changes nothing, and a missing number
of channels means one. -/
def PayloadMap.addRtpMap (m : PayloadMap) (r : Sdp.RtpMap) : PayloadMap :=
  if isL16 r.encoding.toList then
    match m.insert r.payloadType ⟨r.clockRate, r.channels.getD 1⟩ with
    | .ok m => m
    | .error _ => m
  else m

/-- The map that a session description announces. -/
def PayloadMap.ofDescription (d : Sdp.Description) : PayloadMap :=
  (d.media.flatMap Sdp.Section.rtpMaps).foldl PayloadMap.addRtpMap .empty

/-! ## From text -/

/-- What an entry of a map text says. -/
inductive Entry where
  /-- A payload type has a sampling. -/
  | sampling (payloadType : UInt8) (s : Sampling)
  /-- The entry is for another encoding. -/
  | other
  deriving DecidableEq, Repr

/-- Reads `rate/channels` for a payload type. -/
def Entry.ofNumbers? (payloadType numbers : List Char) : Option Entry := do
  let (rate, channels) ← cut? '/' numbers
  let payloadType ← readUInt8? (trim payloadType)
  let rate ← readUInt32? (trim rate)
  let channels ← readUInt16? (trim channels)
  return .sampling payloadType ⟨rate, channels⟩

/-- Reads an entry that has no opening. -/
def Entry.ofBareText? (text : List Char) : Option Entry :=
  match cut? ':' text with
  | some (payloadType, numbers) => ofNumbers? payloadType (trim numbers)
  | none => do
    let (payloadType, rest) ← cutWhere? isBlank text
    let (encoding, numbers) ← cut? '/' (trim rest)
    if isL16 encoding then ofNumbers? payloadType numbers else return .other

/-- Reads an entry. -/
def Entry.ofText? (text : List Char) : Option Entry :=
  ofBareText? ((afterOpening? "rtpmap:".toList text).getD text)

/-- The map with the entry of a text. -/
def PayloadMap.addText (m : PayloadMap) (text : List Char) : Except Error PayloadMap :=
  match Entry.ofText? text with
  | none => .error (.invalidConfig (.payloadTypeEntry (String.ofList text)))
  | some .other => .ok m
  | some (.sampling payloadType s) => m.insert payloadType s

/-- The entries of a map text, without the blanks around them. -/
def entryTexts (text : List Char) : List (List Char) :=
  ((text.splitOnP fun c => c == ',' || c == ';' || c == '\n').map trim).filter fun entry =>
    !entry.isEmpty

/-- Reads a map.  The first entry that is refused refuses the map. -/
def PayloadMap.parse (text : String) : Except Error PayloadMap :=
  (entryTexts text.toList).foldlM PayloadMap.addText .empty

/-! ## Use -/

/-- The payload type under which samples of a sampling are sent. -/
def selectPayloadType (s : Sampling) (m : PayloadMap) : Except Error UInt8 :=
  if s = mono then .ok monoPayloadType
  else if s = stereo then .ok stereoPayloadType
  else
    match m.find? s with
    | some payloadType => .ok payloadType
    | none => .error (.unsupportedFormat s.rate s.channels)

/-- The sampling that a received payload type stands for. -/
def samplingOf? (payloadType : UInt8) (m : PayloadMap) : Option Sampling :=
  if payloadType = monoPayloadType then some mono
  else if payloadType = stereoPayloadType then some stereo
  else m.get? payloadType

end MediaTransport.Audio
