import MediaTransport.Rtsp.Frame
import MediaTransport.Rtsp.Response
import MediaTransport.Text.Utf8

/-!
# Reading a control connection

A control connection is read as a list of bytes from which messages are taken
one by one.  Line ends between messages are skipped.  A dollar sign starts a
frame; every other byte starts a response.

The head of a response ends with the first line that is empty, and has to end
within a limit.  The declared length of the body has a limit too, which is
checked before any byte of the body is taken.  A message that is cut off by the
end of the connection uses up all that is left.  Every other failure uses up what
it has looked at: the head, or as many bytes as the limit allows.
-/

namespace MediaTransport.Rtsp

open Text

/-- Anything read from a control connection. -/
inductive Message where
  /-- A response. -/
  | response (r : Response)
  /-- A piece of media. -/
  | frame (f : Frame)
  deriving DecidableEq, Repr

/-- The most bytes in the head of a response. -/
def headLimit : Nat := 16384

/-- The most bytes in a body. -/
def bodyLimit : Nat := 1048576

/-- The carriage return. -/
def carriageReturn : UInt8 := 0x0D

/-- The newline. -/
def lineFeed : UInt8 := 0x0A

/-- How far a line has been read. -/
inductive LineState where
  /-- Nothing of the line has been read. -/
  | empty
  /-- A carriage return has been read, and nothing else. -/
  | afterReturn
  /-- Something else has been read. -/
  | text
  deriving DecidableEq

/-- The state of a line after one more byte that does not end it. -/
def LineState.push : LineState → UInt8 → LineState
  | .empty, b => if b = carriageReturn then .afterReturn else .text
  | _, _ => .text

/-- The number of bytes up to the end of the first empty line. -/
def headLength? (state : LineState) (count : Nat) : List UInt8 → Option Nat
  | [] => none
  | b :: rest =>
    if b = lineFeed then
      if state = .text then headLength? .empty (count + 1) rest else some (count + 1)
    else headLength? (state.push b) (count + 1) rest

/-- A result and the bytes that are left. -/
abbrev Taken (α : Type) := Except ProtocolFault α × List UInt8

/-- Takes the bytes of a head. -/
def takeHead (bytes : List UInt8) : Taken (List UInt8) :=
  match headLength? .empty 0 (bytes.take headLimit) with
  | some n => (.ok (bytes.take n), bytes.drop n)
  | none =>
    if bytes.length < headLimit then (.error .connectionClosed, [])
    else (.error .headTooLarge, bytes.drop headLimit)

/-- Takes a number of bytes. -/
def takeExactly (n : Nat) (bytes : List UInt8) : Taken (List UInt8) :=
  if bytes.length < n then (.error .connectionClosed, []) else (.ok (bytes.take n), bytes.drop n)

/-- The response of a head, with the declared length of its body. -/
def readHead (head : List UInt8) : Except ProtocolFault (Response × Nat) := do
  let some head := Utf8.decode? head
    | throw .invalidEncoding
  let response ← Response.read head
  let length ← response.contentLength
  if length > bodyLimit then throw .invalidContentLength
  return (response, length)

/-- Takes a response. -/
def takeResponse (bytes : List UInt8) : Taken Response :=
  match takeHead bytes with
  | (.error fault, rest) => (.error fault, rest)
  | (.ok head, rest) =>
    match readHead head with
    | .error fault => (.error fault, rest)
    | .ok (response, 0) => (.ok response, rest)
    | .ok (response, length) =>
      match takeExactly length rest with
      | (.error fault, rest) => (.error fault, rest)
      | (.ok body, rest) => (.ok { response with body := some (Utf8.decodeLossy body) }, rest)

/-- Takes a frame, its first byte included. -/
def takeFrame (bytes : List UInt8) : Taken Frame :=
  match bytes with
  | _ :: channel :: high :: low :: rest =>
    match takeExactly (Bytes.toUInt16 high low).toNat rest with
    | (.error fault, rest) => (.error fault, rest)
    | (.ok payload, rest) => (.ok ⟨channel, payload⟩, rest)
  | _ => (.error .connectionClosed, [])

/-- Takes the next message. -/
def takeMessage : List UInt8 → Taken Message
  | [] => (.error .connectionClosed, [])
  | b :: rest =>
    if b = carriageReturn ∨ b = lineFeed then takeMessage rest
    else if b = frameStart then
      let (frame, rest) := takeFrame (b :: rest)
      (frame.map .frame, rest)
    else
      let (response, rest) := takeResponse (b :: rest)
      (response.map .response, rest)

/-- Takes messages until the connection is found closed, or up to a limit. -/
def takeMessages : (limit : Nat) → List UInt8 → List (Except ProtocolFault Message)
  | 0, _ => []
  | limit + 1, bytes =>
    match takeMessage bytes with
    | (.error .connectionClosed, _) => [.error .connectionClosed]
    | (message, rest) => message :: takeMessages limit rest

end MediaTransport.Rtsp
