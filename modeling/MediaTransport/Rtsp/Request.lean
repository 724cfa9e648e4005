import MediaTransport.Rtsp.Header

/-!
# Requests

A request is a start line, headers and an empty line; it never has a body.  Every
request names its sender in a first header.
-/

namespace MediaTransport.Rtsp

/-- The version in every start line. -/
def version : String := "RTSP/1.0"

/-- The header that names the sender of a request. -/
def userAgent : Header := ⟨"User-Agent", "medianet/0.1"⟩

/-- A request. -/
structure Request where
  /-- What is asked for. -/
  method : Method
  /-- What it is asked of. -/
  uri : String
  /-- The headers, in order. -/
  headers : List Header
  deriving DecidableEq, Repr

/-- A request with no header but the sender's. -/
def Request.start (method : Method) (uri : String) : Request :=
  ⟨method, uri, [userAgent]⟩

/-- The request with one more header. -/
def Request.adding (r : Request) (name value : String) : Request :=
  { r with headers := r.headers ++ [⟨name, value⟩] }

/-- The value of a header. -/
def Request.header? (r : Request) (name : String) : Option String :=
  headerValue? r.headers name

/-- The number that pairs the request with its response. -/
def Request.sequence? (r : Request) : Option String :=
  r.header? "CSeq"

/-- The text of a request. -/
def Request.render (r : Request) : String :=
  r.method.word ++ " " ++ r.uri ++ " " ++ version ++ "\r\n" ++ renderHeaders r.headers ++ "\r\n"

end MediaTransport.Rtsp
