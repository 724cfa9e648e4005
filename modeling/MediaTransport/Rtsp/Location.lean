import MediaTransport.Address.Endpoint

/-!
# Locations

A location is `rtsp://`, in any letter case, an authority and a path.  The
authority is a host with an optional port, after credentials that are ignored;
an IPv6 host stands in square brackets.

Requests name the location by its text without trailing slashes.  A stream is
named by its control text: an absolute one stands for itself, `*` and the empty
one stand for the location, and every other one is appended to it.
-/

namespace MediaTransport.Rtsp

open Text Address

/-- The port of a location that names none. -/
def defaultPort : UInt16 := 554

/-- The opening of every location. -/
def scheme : List Char := "rtsp://".toList

/-- A location. -/
structure Location where
  /-- The host of the server. -/
  host : Host
  /-- The port of the server. -/
  port : UInt16
  /-- The path, which starts with a slash. -/
  path : String
  /-- The text that requests use. -/
  text : String
  deriving DecidableEq, Repr

/-- What follows the scheme, if a text starts with it. -/
def afterScheme? (text : List Char) : Option (List Char) :=
  if equalsIgnoringCase (text.take scheme.length) scheme then some (text.drop scheme.length)
  else none

/-- The host and the port in an authority without credentials. -/
def splitAuthority? (authority : List Char) : Option (List Char × UInt16) :=
  match afterOpening? ['['] authority with
  | some bracketed => do
    let (host, tail) ← cut? ']' bracketed
    match tail with
    | [] => return (host, defaultPort)
    | ':' :: port => return (host, ← readUInt16? port)
    | _ => none
  | none =>
    match cutLast? ':' authority with
    | some (host, port) => do return (host, ← readUInt16? port)
    | none => some (authority, defaultPort)

/-- An authority without its credentials. -/
def withoutCredentials (authority : List Char) : List Char :=
  match cutLast? '@' authority with
  | some (_, rest) => rest
  | none => authority

/-- A text without the slashes that it ends with. -/
def withoutSlashes (text : List Char) : List Char :=
  dropEndWhile (· == '/') text

/-- Reads a location. -/
def Location.ofText? (text : List Char) : Option Location := do
  let rest ← afterScheme? text
  let authority := before '/' rest
  let path := rest.drop authority.length
  let (host, port) ← splitAuthority? (withoutCredentials authority)
  let host ← (Host.parse host).toOption
  return {
    host
    port
    path := if path.isEmpty then "/" else String.ofList path
    text := String.ofList (withoutSlashes text) }

/-- Reads a location. -/
def Location.parse (text : String) : Except Error Location :=
  match Location.ofText? text.toList with
  | some location => .ok location
  | none => .error (.protocol (.invalidUrl text))

/-- Where the server is. -/
def Location.endpoint (l : Location) : Endpoint :=
  ⟨l.host, l.port⟩

/-- The request URI of a stream with a control text. -/
def Location.streamUri (l : Location) (control : String) : String :=
  let text := control.toList
  if (afterScheme? text).isSome then control
  else if text = [] ∨ text = ['*'] then l.text
  else l.text ++ "/" ++ String.ofList (text.dropWhile (· == '/'))

end MediaTransport.Rtsp
