import MediaTransport.Rtsp.Reader

/-!
# The other side of a session

A session is driven by what it does itself and by what the network and the server
do.  The second part is a *peer*: the outcomes of the coming attempts to connect
and to send, and the messages that are coming in.  Attempts after the given
outcomes succeed, and the connection closes after the given messages.

Two readings of the incoming messages are needed.  A request waits for the next
response and skips media.  Playback waits for the next piece of media and skips
reports and responses.  Both stop at an error and use up what they have seen.
-/

namespace MediaTransport.Session

open Rtsp

/-- What the network and the server will do. -/
structure Peer where
  /-- The errors of the coming attempts to connect, with `none` for success. -/
  connects : List (Option Error) := []
  /-- The errors of the coming attempts to send, with `none` for success. -/
  sends : List (Option Error) := []
  /-- The messages that come in, and errors in their place. -/
  incoming : List (Except Error Message) := []

/-- The error of a connection on which nothing more comes in. -/
def connectionClosed : Error := .protocol .connectionClosed

/-- The next response, and what comes in after it. -/
def nextResponse : List (Except Error Message) →
    Except Error Response × List (Except Error Message)
  | [] => (.error connectionClosed, [])
  | .error e :: rest => (.error e, rest)
  | .ok (.response r) :: rest => (.ok r, rest)
  | .ok (.frame _) :: rest => nextResponse rest

/-- The next piece of media, and what comes in after it. -/
def nextMedia : List (Except Error Message) → Except Error Frame × List (Except Error Message)
  | [] => (.error connectionClosed, [])
  | .error e :: rest => (.error e, rest)
  | .ok (.response _) :: rest => nextMedia rest
  | .ok (.frame f) :: rest => if f.isReport then nextMedia rest else (.ok f, rest)

/-- The first of the coming outcomes as a result, and those after it. -/
def nextOutcome : List (Option Error) → Except Error Unit × List (Option Error)
  | [] => (.ok (), [])
  | none :: rest => (.ok (), rest)
  | some e :: rest => (.error e, rest)

end MediaTransport.Session
