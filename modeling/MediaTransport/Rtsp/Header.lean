import MediaTransport.Error
import MediaTransport.Text.Blank
import MediaTransport.Text.Cut

/-!
# Headers

The headers of a control message are lines `Name: value` up to the first empty
line.  They keep their order and the letter case of their names; a look-up
ignores the case and finds the first match.
-/

namespace MediaTransport.Rtsp

open Text

/-- A header line. -/
structure Header where
  /-- The part before the first colon, trimmed. -/
  name : String
  /-- The part after it, trimmed. -/
  value : String
  deriving DecidableEq, Repr

/-- The line of a header, with its end. -/
def Header.render (h : Header) : String :=
  h.name ++ ": " ++ h.value ++ "\r\n"

/-- The lines of some headers. -/
def renderHeaders (headers : List Header) : String :=
  String.join (headers.map Header.render)

/-- Reads a header line. -/
def Header.ofLine? (line : List Char) : Option Header :=
  (cut? ':' line).map fun (name, value) => ⟨String.ofList (trim name), String.ofList (trim value)⟩

/-- Reads header lines up to the first empty one. -/
def readHeaders? : List (List Char) → Option (List Header)
  | [] => some []
  | line :: rest =>
    if line.isEmpty then some []
    else do
      let header ← Header.ofLine? line
      let headers ← readHeaders? rest
      return header :: headers

/-- The value of the first header of a name, in any letter case. -/
def headerValue? (headers : List Header) (name : String) : Option String :=
  (headers.find? fun h => equalsIgnoringCase h.name.toList name.toList).map (·.value)

end MediaTransport.Rtsp
