import MediaTransport.Rtsp.Delivery
import MediaTransport.Rtsp.Location
import MediaTransport.Sdp.Description
import MediaTransport.Session.Peer

/-!
# Control sessions

A session turns the steps of a pipeline into requests.

* `nullToReady` connects, asks for the description of the location, and sets up
  every stream of the description that has a control text.
* `pausedToPlaying` and `playingToPaused` start and suspend delivery.
* `readyToNull` ends the session when there is one, and drops the connection.
* The other two steps send nothing.

An *exchange* sends one request and waits for the next response.  Requests are
numbered through the whole life of the session, over all its connections.  Every
answer but success fails the exchange, nothing is tried again, and a step that
fails leaves the session in the phase where it stopped.
-/

namespace MediaTransport.Session

open Rtsp

/-- A stream that was set up. -/
structure Stream where
  /-- The number of its section in the description. -/
  index : Nat
  /-- Its section. -/
  media : Sdp.Section
  /-- The URI under which it was set up. -/
  uri : String
  /-- The delivery that the server confirmed, or the one that was asked for. -/
  delivery : Delivery
  deriving DecidableEq, Repr

/-- A session. -/
structure State where
  /-- The presentation. -/
  location : Location
  /-- Where the session stands. -/
  phase : Phase := .closed
  /-- Whether there is a connection. -/
  isConnected : Bool := false
  /-- The number of the last request. -/
  sequence : UInt32 := 0
  /-- The identifier that the server has given to the session. -/
  identifier : Option String := none
  /-- The description of the presentation. -/
  description : Option Sdp.Description := none
  /-- The streams that have been set up, in order. -/
  streams : List Stream := []
  deriving DecidableEq, Repr

/-- What a session has done on the network. -/
inductive Event where
  /-- A connection was opened. -/
  | connected
  /-- A request was sent. -/
  | sent (request : Request)
  /-- A request could not be sent. -/
  | unsent (request : Request)
  deriving DecidableEq, Repr

/-- A session, its peer, and what has happened between them. -/
structure World where
  /-- The session. -/
  session : State
  /-- The other side. -/
  peer : Peer := {}
  /-- What has happened, in order. -/
  history : List Event := []

/-- An activity of a session.  It may fail half-way and keeps what it has done. -/
abbrev Control (α : Type) := ExceptT Error (StateM World) α

/-- A new session for a location. -/
def State.ofLocation (location : String) : Except Error State :=
  (Location.parse location).map fun location => { location }

/-! ## Exchanges -/

/-- Changes the session. -/
def update (f : State → State) : Control Unit :=
  modify fun w => { w with session := f w.session }

/-- Notes what has happened. -/
def note (e : Event) : Control Unit :=
  modify fun w => { w with history := w.history ++ [e] }

/-- Moves the session to a phase. -/
def enter (phase : Phase) : Control Unit :=
  update fun s => { s with phase }

/-- Opens a connection. -/
def connect : Control Unit := do
  let w ← get
  let (outcome, connects) := nextOutcome w.peer.connects
  set { w with peer := { w.peer with connects } }
  outcome
  note .connected
  update fun s => { s with isConnected := true }

/-- The request that a session sends under its current number. -/
def State.request (s : State) (method : Method) (uri : String) (headers : List Header) : Request :=
  let numbered := (Request.start method uri).adding "CSeq" (toString s.sequence)
  let identified := match s.identifier with
    | some identifier => numbered.adding "Session" identifier
    | none => numbered
  { identified with headers := identified.headers ++ headers }

/-- Sends a request. -/
def send (request : Request) : Control Unit := do
  let w ← get
  let (outcome, sends) := nextOutcome w.peer.sends
  set { w with peer := { w.peer with sends } }
  match outcome with
  | .ok () => note (.sent request)
  | .error e =>
    note (.unsent request)
    throw e

/-- Waits for the next response. -/
def awaitResponse : Control Response := do
  let w ← get
  let (outcome, incoming) := nextResponse w.peer.incoming
  set { w with peer := { w.peer with incoming } }
  outcome

/-- Sends a request and waits for its success. -/
def exchange (method : Method) (uri : String) (headers : List Header) : Control Response := do
  if !(← get).session.isConnected then throw .notActive
  update fun s => { s with sequence := s.sequence + 1 }
  send ((← get).session.request method uri headers)
  let response ← awaitResponse
  if response.isSuccess then return response
  else throw (.protocol (.errorStatus method response.code response.reason))

/-! ## Opening -/

/-- The identifier in a session header: its value up to the first semicolon,
trimmed. -/
def identifierOf (value : String) : String :=
  String.ofList (Text.trim (Text.before ';' value.toList))

/-- Sets up the stream of a section.  A section without a control text has no
stream of its own. -/
def setUp (index : Nat) (media : Sdp.Section) : Control Unit := do
  let some control := media.control? | return
  let s := (← get).session
  let uri := s.location.streamUri control
  let some requested := Delivery.request? s.streams.length
    | throw (.invalidConfig .tooManyStreams)
  let response ← exchange .setup uri [⟨"Transport", requested.render⟩]
  let delivery := ((response.header? "Transport").bind Delivery.parse?).getD requested
  update fun s => { s with
    identifier := s.identifier <|> (response.header? "Session").map identifierOf
    streams := s.streams ++ [⟨index, media, uri, delivery⟩] }

/-- Sets up the streams of some sections, numbered from `index` on. -/
def setUpAll (index : Nat) : List Sdp.Section → Control Unit
  | [] => return
  | media :: rest => do
    setUp index media
    setUpAll (index + 1) rest

/-- Opens the session. -/
def openSession : Control Unit := do
  update fun s => { s with
    phase := .describing, streams := [], identifier := none, description := none }
  connect
  let uri := (← get).session.location.text
  let response ← exchange .describe uri [⟨"Accept", "application/sdp"⟩]
  let description ← Sdp.Description.parse (response.body.getD "")
  setUpAll 0 description.media
  update fun s => { s with description := some description, phase := .ready }

/-! ## Closing -/

/-- Whether the server knows of a session in this phase. -/
def Phase.isEstablished : Phase → Bool
  | .ready => true
  | .playing => true
  | .paused => true
  | _ => false

/-- Ends the session.  The connection is dropped even when the server does not
confirm; the session then has to be ended once more. -/
def closeSession : Control Unit := do
  let s := (← get).session
  enter .tearingDown
  try
    if s.phase.isEstablished && s.isConnected then
      let _ ← exchange .teardown s.location.text []
  catch e =>
    update fun s => { s with isConnected := false }
    throw e
  update fun s => { s with isConnected := false, phase := .closed }

/-! ## Steps -/

/-- Takes one step of the pipeline. -/
def changeState (transition : Transition) : Control Unit := do
  let s := (← get).session
  match transition, s.phase with
  | .nullToReady, .closed => openSession
  | .readyToPaused, .ready => enter .paused
  | .pausedToPlaying, .paused => do
    let _ ← exchange .play s.location.text []
    enter .playing
  | .playingToPaused, .playing => do
    let _ ← exchange .pause s.location.text []
    enter .paused
  | .pausedToReady, .paused => enter .ready
  | .readyToNull, .describing
  | .readyToNull, .ready
  | .readyToNull, .playing
  | .readyToNull, .paused
  | .readyToNull, .tearingDown => closeSession
  | transition, phase => throw (.invalidTransition phase transition)

/-- The next piece of media. -/
def receivePacket : Control Frame := do
  let w ← get
  if w.session.phase ≠ .playing ∨ !w.session.isConnected then throw .notActive
  let (outcome, incoming) := nextMedia w.peer.incoming
  set { w with peer := { w.peer with incoming } }
  outcome

end MediaTransport.Session
