import MediaTransport.Error
import MediaTransport.Sdp.Attribute

/-!
# Session descriptions

A session description (RFC 8866) says what a presentation consists of.  It is a
list of lines `k=value` with a key of one letter.  Lines before the first `m=`
line speak of the whole session; each `m=` line opens a *section* for one medium,
and the `c=` and `a=` lines up to the next one belong to it.

Seven keys are understood: `v` for the version, `o` for the origin, `s` for the
name, `c` for the connection, `m` for a medium, `a` for an attribute, and `t`,
which is written as `0 0` and skipped when read like every other key.  Lines end
in a newline with any number of carriage returns before it, and blank lines are
skipped.  The reader stops at the first line that it cannot read and names it.
A description without a version line is refused at the end.
-/

namespace MediaTransport.Sdp

open Text

/-- One medium and the lines that belong to it. -/
structure Section where
  /-- The kind of medium, such as `audio`. -/
  media : String
  /-- The port for the medium. -/
  port : UInt16
  /-- The protocol that carries it. -/
  protocol : String
  /-- The formats that it may use. -/
  formats : List String
  /-- Its own connection line. -/
  connection : Option String := none
  /-- Its attributes, in order. -/
  attributes : List Attribute := []
  deriving DecidableEq, Repr

/-- A session description. -/
structure Description where
  /-- The version of the format. -/
  version : UInt32 := 0
  /-- Who made the session. -/
  origin : Option String := none
  /-- The name of the session. -/
  name : String
  /-- The connection line of the session. -/
  connection : Option String := none
  /-- The attributes of the session, in order. -/
  attributes : List Attribute := []
  /-- The media, in order. -/
  media : List Section := []
  deriving DecidableEq, Repr

/-! ## Look-up -/

/-- The value of the first attribute of a name in a section. -/
def Section.attribute? (s : Section) (name : String) : Option String :=
  Sdp.attribute? s.attributes name

/-- The text that names the stream of a section in requests.  A section without
one cannot be set up on its own. -/
def Section.control? (s : Section) : Option String :=
  s.attribute? "control"

/-- The payload types of a section, from its `rtpmap` attributes that can be
read. -/
def Section.rtpMaps (s : Section) : List RtpMap :=
  s.attributes.filterMap fun a =>
    if a.name = "rtpmap" then a.value.bind fun value => RtpMap.ofText? value.toList else none

/-- The value of the first attribute of a name before the first section. -/
def Description.attribute? (d : Description) (name : String) : Option String :=
  Sdp.attribute? d.attributes name

/-- The section that announces a stream of packets of one payload type. -/
def Section.ofStream (media : String) (port : UInt16) (payloadType : UInt8)
    (attributes : List Attribute) : Section :=
  { media, port, protocol := "RTP/AVP", formats := [toString payloadType], attributes }

/-! ## Writing -/

/-- A line with its end. -/
def line (text : String) : String := text ++ "\r\n"

/-- A connection line, if there is a connection. -/
def connectionLine : Option String → String
  | some connection => line ("c=" ++ connection)
  | none => ""

/-- The lines of some attributes. -/
def attributeLines (attributes : List Attribute) : String :=
  String.join (attributes.map fun a => line a.render)

/-- The line that opens a section. -/
def Section.heading (s : Section) : String :=
  "m=" ++ s.media ++ " " ++ toString s.port ++ " " ++ s.protocol ++ " " ++ joinWith ' ' s.formats

/-- The lines of a section. -/
def Section.render (s : Section) : String :=
  line s.heading ++ connectionLine s.connection ++ attributeLines s.attributes

/-- The origin that is written for a session without one. -/
def unknownOrigin : String := "- 0 0 IN IP4 0.0.0.0"

/-- The text of a description. -/
def Description.render (d : Description) : String :=
  line ("v=" ++ toString d.version)
    ++ line ("o=" ++ d.origin.getD unknownOrigin)
    ++ line ("s=" ++ d.name)
    ++ connectionLine d.connection
    ++ line "t=0 0"
    ++ attributeLines d.attributes
    ++ String.join (d.media.map Section.render)

/-! ## Reading -/

/-- Reads what follows `m=`: a medium, a port, a protocol and formats.  A count
after the port is ignored. -/
def Section.ofText? (value : List Char) : Option Section :=
  match words value with
  | media :: port :: protocol :: formats => do
    let port ← readUInt16? (before '/' port)
    return {
      media := String.ofList media
      port
      protocol := String.ofList protocol
      formats := formats.map String.ofList }
  | _ => none

/-- A description that is being read.  The sections stand newest first, so that
the head is the one to which the next lines belong. -/
structure Draft where
  /-- The version, once it has been read. -/
  version : Option UInt32 := none
  /-- The last origin. -/
  origin : Option String := none
  /-- The last name. -/
  name : String := ""
  /-- The last connection before the first section. -/
  connection : Option String := none
  /-- The attributes before the first section. -/
  attributes : List Attribute := []
  /-- The sections so far, newest first. -/
  sections : List Section := []

/-- The draft with a connection for the open section, or for the session. -/
def Draft.withConnection (d : Draft) (connection : String) : Draft :=
  match d.sections with
  | [] => { d with connection := some connection }
  | s :: earlier => { d with sections := { s with connection := some connection } :: earlier }

/-- The draft with one more attribute of the open section, or of the session. -/
def Draft.withAttribute (d : Draft) (a : Attribute) : Draft :=
  match d.sections with
  | [] => { d with attributes := d.attributes ++ [a] }
  | s :: earlier => { d with sections := { s with attributes := s.attributes ++ [a] } :: earlier }

/-- The draft after a line with a key and a value, or nothing when the value
cannot be read. -/
def Draft.put? (d : Draft) (key : Char) (value : List Char) : Option Draft :=
  match key with
  | 'v' => (readUInt32? (trim value)).map fun version => { d with version := some version }
  | 'o' => some { d with origin := some (String.ofList value) }
  | 's' => some { d with name := String.ofList value }
  | 'c' => some (d.withConnection (String.ofList value))
  | 'm' => (Section.ofText? value).map fun s => { d with sections := s :: d.sections }
  | 'a' => some (d.withAttribute (Attribute.ofText value))
  | _ => some d

/-- The draft after a line, or nothing when the line cannot be read.  A key is
one ASCII character. -/
def Draft.read? (d : Draft) (text : List Char) : Option Draft :=
  if isAllBlank text then some d
  else
    match cut? '=' text with
    | some ([key], value) => if key.toNat < 0x80 then d.put? key value else none
    | _ => none

/-- The draft after some lines, or the first line that cannot be read. -/
def Draft.readAll (d : Draft) : List (List Char) → Except (List Char) Draft
  | [] => .ok d
  | text :: rest =>
    match d.read? text with
    | some d => d.readAll rest
    | none => .error text

/-- The description of a draft that has a version. -/
def Draft.finish? (d : Draft) : Option Description :=
  d.version.map fun version => {
    version
    origin := d.origin
    name := d.name
    connection := d.connection
    attributes := d.attributes
    media := d.sections.reverse }

/-- The lines of a description, without their ends. -/
def contentLines (text : String) : List (List Char) :=
  (lines text.toList).map (dropEndWhile (· == '\r'))

/-- Reads a description, or says at which line it goes wrong. -/
def Description.read (text : String) : Except String Description :=
  match Draft.readAll {} (contentLines text) with
  | .error bad => .error (String.ofList bad)
  | .ok d =>
    match d.finish? with
    | some description => .ok description
    | none => .error "missing v= line"

/-- Reads a description. -/
def Description.parse (text : String) : Except Error Description :=
  (Description.read text).mapError fun bad => .protocol (.malformedDescription bad)

end MediaTransport.Sdp
