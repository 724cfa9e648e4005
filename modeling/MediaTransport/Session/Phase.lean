/-!
# Phases and transitions

Where a session stands, and the steps by which the surrounding pipeline moves
it.

    closed --nullToReady--> describing ... ready
    ready --readyToPaused--> paused --pausedToPlaying--> playing
    playing --playingToPaused--> paused --pausedToReady--> ready
    any but closed --readyToNull--> tearingDown ... closed
-/

namespace MediaTransport.Session

/-- Where a session stands. -/
inductive Phase where
  /-- There is no session. -/
  | closed
  /-- The presentation is being described and set up. -/
  | describing
  /-- The streams are set up. -/
  | ready
  /-- Media is delivered. -/
  | playing
  /-- Delivery is suspended. -/
  | paused
  /-- The session is being ended. -/
  | tearingDown
  deriving DecidableEq, Repr

/-- The word for a phase. -/
def Phase.word : Phase → String
  | .closed => "Closed"
  | .describing => "Describing"
  | .ready => "Ready"
  | .playing => "Playing"
  | .paused => "Paused"
  | .tearingDown => "TearingDown"

/-- A step of the pipeline. -/
inductive Transition where
  /-- Open the session. -/
  | nullToReady
  /-- Prepare for delivery. -/
  | readyToPaused
  /-- Start delivery. -/
  | pausedToPlaying
  /-- Suspend delivery. -/
  | playingToPaused
  /-- Give up delivery. -/
  | pausedToReady
  /-- End the session. -/
  | readyToNull
  deriving DecidableEq, Repr

/-- The word for a transition. -/
def Transition.word : Transition → String
  | .nullToReady => "NullToReady"
  | .readyToPaused => "ReadyToPaused"
  | .pausedToPlaying => "PausedToPlaying"
  | .playingToPaused => "PlayingToPaused"
  | .pausedToReady => "PausedToReady"
  | .readyToNull => "ReadyToNull"

end MediaTransport.Session
