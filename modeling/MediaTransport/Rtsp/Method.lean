/-!
# Methods

The methods of the requests that a session sends (RFC 2326, section 10).
-/

namespace MediaTransport.Rtsp

/-- What a request asks the server to do. -/
inductive Method where
  /-- Report the description of the presentation. -/
  | describe
  /-- Set up one stream. -/
  | setup
  /-- Start delivery. -/
  | play
  /-- Suspend delivery. -/
  | pause
  /-- End the session. -/
  | teardown
  deriving DecidableEq, Repr

/-- The word for a method in a request line. -/
def Method.word : Method → String
  | .describe => "DESCRIBE"
  | .setup => "SETUP"
  | .play => "PLAY"
  | .pause => "PAUSE"
  | .teardown => "TEARDOWN"

end MediaTransport.Rtsp
