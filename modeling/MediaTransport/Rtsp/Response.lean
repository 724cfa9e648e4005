import MediaTransport.Rtsp.Request
import MediaTransport.Text.Numeral

/-!
# Responses

A response is a status line, headers, an empty line and a body of the length that
its `Content-Length` header declares.  The head is read on its own, since the
length is known only then.

The status line is a version that starts with `RTSP/`, a code of sixteen bits and
a reason, separated by single spaces; the reason may be missing.  Only the code
200 is a success.
-/

namespace MediaTransport.Rtsp

open Text

/-- A response. -/
structure Response where
  /-- The status code. -/
  code : UInt16
  /-- The reason in words. -/
  reason : String
  /-- The headers, in order. -/
  headers : List Header := []
  /-- The body, if there is one. -/
  body : Option String := none
  deriving DecidableEq, Repr

/-- The code of success. -/
def successCode : UInt16 := 200

/-- The response to a request that succeeded. -/
def Response.success : Response := { code := successCode, reason := "OK" }

/-- The response to a request for something that does not exist. -/
def Response.notFound : Response := { code := 404, reason := "Not Found" }

/-- Whether the request succeeded. -/
def Response.isSuccess (r : Response) : Bool :=
  r.code == successCode

/-- The value of a header. -/
def Response.header? (r : Response) (name : String) : Option String :=
  headerValue? r.headers name

/-- The header that declares the length of a body. -/
def lengthHeader (body : String) : Header :=
  ⟨"Content-Length", toString body.utf8ByteSize⟩

/-- The declared length of the body; a response without a length has none. -/
def Response.contentLength (r : Response) : Except ProtocolFault Nat :=
  match r.header? "Content-Length" with
  | none => .ok 0
  | some value =>
    match readUInt64? value.toList with
    | some length => .ok length.toNat
    | none => .error .invalidContentLength

/-- Reads a status line. -/
def readStatus? (line : List Char) : Option (UInt16 × String) := do
  let (version, rest) ← cut? ' ' line
  let _ ← afterOpening? "RTSP/".toList version
  let (code, reason) := (cut? ' ' rest).getD (rest, [])
  let code ← readUInt16? code
  return (code, String.ofList (trim reason))

/-- Reads the lines of a head. -/
def Response.ofLines : List (List Char) → Except ProtocolFault Response
  | [] => .error .emptyMessage
  | status :: rest =>
    if isAllBlank status then .error .emptyMessage
    else
      match readStatus? status with
      | none => .error .invalidStatusLine
      | some (code, reason) =>
        match readHeaders? rest with
        | none => .error .invalidHeader
        | some headers => .ok { code, reason, headers }

/-- Reads a head. -/
def Response.read (head : String) : Except ProtocolFault Response :=
  ofLines (lines head.toList)

/-- Reads a head. -/
def Response.parse (head : String) : Except Error Response :=
  (Response.read head).mapError .protocol

/-- The text of a response.  The length of a body is declared after the other
headers. -/
def Response.render (r : Response) : String :=
  let start := version ++ " " ++ toString r.code ++ " " ++ r.reason ++ "\r\n"
  match r.body with
  | none => start ++ renderHeaders r.headers ++ "\r\n"
  | some body => start ++ renderHeaders (r.headers ++ [lengthHeader body]) ++ "\r\n" ++ body

end MediaTransport.Rtsp
