import MediaTransport.Proofs.Session.Congruence
import MediaTransport.Proofs.Session.Lifecycle

/-!
# Media among the answers

Media comes in on the connection on which the requests are answered, so frames may stand
anywhere among the answers, and a server may send them whenever it likes.  An exchange skips
them, but how many it skips depends on where they stand, so two runs that differ in the frames
soon wait at different places of what comes in.

They are related by what comes in still: the messages of one run are those of the other one
with frames put between them (`Interleaved`).  A wait for a response keeps that and has the same
outcome in both runs (`Interleaved.nextResponse_snd`, `Interleaved.nextResponse_fst`).  Nothing
else looks at the messages, so no activity can tell the runs apart (`isCongruence_undisturbed`).
-/

namespace MediaTransport.Session

open Rtsp

/-! ## What comes in -/

/-- The second messages are the first ones with frames put between them, anywhere. -/
inductive Interleaved : List (Except Error Message) → List (Except Error Message) → Prop where
  | nil : Interleaved [] []
  /-- A message of both. -/
  | message {messages messages' : List (Except Error Message)} (m : Except Error Message)
      (h : Interleaved messages messages') : Interleaved (m :: messages) (m :: messages')
  /-- One more frame. -/
  | frame {messages messages' : List (Except Error Message)} (f : Frame)
      (h : Interleaved messages messages') : Interleaved messages (.ok (.frame f) :: messages')

namespace Interleaved

variable {messages messages' : List (Except Error Message)}

/-- Frames between responses are passed over, so the next response is the same one. -/
theorem nextResponse_fst (h : Interleaved messages messages') :
    (nextResponse messages').1 = (nextResponse messages).1 := by
  induction h with
  | nil => rfl
  | message m h ih =>
    rcases m with e | (r | f)
    · rfl
    · rfl
    · exact ih
  | frame f h ih => exact ih

/-- Behind it the messages are interleaved as before. -/
theorem nextResponse_snd (h : Interleaved messages messages') :
    Interleaved (nextResponse messages).2 (nextResponse messages').2 := by
  induction h with
  | nil => exact .nil
  | message m h ih =>
    rcases m with e | (r | f)
    · exact h
    · exact h
    · exact ih
  | frame f h ih => exact ih

end Interleaved

/-! ## Two runs -/

/-- Two sessions that have come equally far, and will meet peers that differ in the frames
among their messages only. -/
structure Undisturbed (w w' : World) : Prop where
  session : w.session = w'.session
  history : w.history = w'.history
  connects : w.peer.connects = w'.peer.connects
  sends : w.peer.sends = w'.peer.sends
  incoming : Interleaved w.peer.incoming w'.peer.incoming

namespace Undisturbed

variable {w w' : World}

theorem update (h : Undisturbed w w') (f : State → State) :
    Undisturbed { w with session := f w.session } { w' with session := f w'.session } :=
  { h with session := congrArg f h.session }

theorem connecting (h : Undisturbed w w') : w.peer.connecting = w'.peer.connecting := by
  rw [Peer.connecting, Peer.connecting, h.connects]

theorem sending (h : Undisturbed w w') : w.peer.sending 0 = w'.peer.sending 0 := by
  rw [Peer.sending, Peer.sending, h.sends]

/-- The reply that is waited for is the same one. -/
theorem reply (h : Undisturbed w w') : w.peer.reply 0 = w'.peer.reply 0 := by
  rw [Peer.reply, Peer.reply, ← nextResponse_fst, ← nextResponse_fst, h.incoming.nextResponse_fst]

theorem agrees_connect (h : Undisturbed w w') : Agrees Undisturbed connect connect w w' := by
  unfold Agrees
  have hconnects : (nextOutcome w.peer.connects).2 = (nextOutcome w'.peer.connects).2 := by
    rw [h.connects]
  cases hconnecting : w'.peer.connecting with
  | error e =>
    rw [connect_run_error hconnecting, connect_run_error (h.connecting.trans hconnecting)]
    exact ⟨rfl, { h with connects := hconnects }⟩
  | ok u =>
    rw [connect_run_ok hconnecting, connect_run_ok (h.connecting.trans hconnecting)]
    refine ⟨rfl, { h with session := ?_, history := ?_, connects := hconnects }⟩
    · rw [h.session]
    · rw [h.history]

/-- The same request is sent, or not, and has the same answer, wherever that stands. -/
theorem agrees_exchange (h : Undisturbed w w') (method : Method) (uri : String)
    (headers : List Header) : Agrees Undisturbed (exchange method uri headers)
      (exchange method uri headers) w w' := by
  unfold Agrees
  have hsends : w.peer.sends.tail = w'.peer.sends.tail := congrArg List.tail h.sends
  have hcounted : w.session.counted = w'.session.counted := congrArg State.counted h.session
  cases hconnected : w'.session.isConnected with
  | false =>
    have hconnected' : w.session.isConnected = false := by rw [h.session, hconnected]
    rw [exchange_unconnected w hconnected', exchange_unconnected w' hconnected]
    exact ⟨rfl, h⟩
  | true =>
    have hconnected' : w.session.isConnected = true := by rw [h.session, hconnected]
    cases hsending : w'.peer.sending 0 with
    | error e =>
      have hsending' : w.peer.sending 0 = .error e := h.sending.trans hsending
      rw [exchange_unsent hconnected hsending, exchange_unsent hconnected' hsending']
      refine ⟨rfl, hcounted, ?_, h.connects, hsends, h.incoming⟩
      rw [World.refused, World.refused, Peer.event, Peer.event, h.history, hsending, hsending',
        hcounted]
    | ok u =>
      have hsending' : w.peer.sending 0 = .ok () := h.sending.trans hsending
      rw [exchange_sent hconnected hsending, exchange_sent hconnected' hsending', h.reply]
      refine ⟨rfl, hcounted, ?_, h.connects, hsends, h.incoming.nextResponse_snd⟩
      rw [World.confirmed, World.confirmed, h.history, hcounted]

end Undisturbed

/-- A session cannot tell the two worlds apart. -/
theorem isCongruence_undisturbed : IsCongruence Undisturbed where
  session h := ⟨_, h.session⟩
  update h _ := h.update _
  agrees_connect h := h.agrees_connect
  agrees_exchange method uri headers h := h.agrees_exchange method uri headers

/-! ## Runs -/

/-- A step as it is seen from outside: what it returns, the session that it leaves, and all
that has been done on the network by then. -/
structure Passage where
  result : Except Error Unit
  session : State
  history : List Event

/-- The steps of a session, one after the other, with the peer that it meets. -/
def World.passages : World → List Transition → List Passage
  | _, [] => []
  | w, t :: rest =>
    let after := ((changeState t).run.run w).2
    ⟨((changeState t).run.run w).1, after.session, after.history⟩ :: after.passages rest

/-- So the transitions go through or fail together. -/
theorem Undisturbed.passages {w w' : World} (h : Undisturbed w w') (ts : List Transition) :
    w'.passages ts = w.passages ts := by
  induction ts generalizing w w' with
  | nil => rfl
  | cons t rest ih =>
    obtain ⟨hresult, hafter⟩ := isCongruence_undisturbed.agrees_changeState h t
    rw [World.passages, World.passages, ih hafter, hresult, hafter.session, hafter.history]

/-- Frames among the messages that come in change nothing in any sequence of steps: neither
what a step returns, nor the session that it leaves, nor what is sent. -/
theorem passages_interleaved (w : World) {incoming : List (Except Error Message)}
    (h : Interleaved w.peer.incoming incoming) (ts : List Transition) :
    World.passages { w with peer := { w.peer with incoming } } ts = w.passages ts := by
  have hstart : Undisturbed w { w with peer := { w.peer with incoming } } :=
    ⟨rfl, rfl, rfl, rfl, h⟩
  exact hstart.passages ts

/-- What comes in from a camera that is opened and played, does not suspend delivery, and is
closed. -/
def plainMessages : List (Except Error Message) :=
  twoTrackCamera.incoming
    ++ [.ok (.response .success), .error (.protocol .emptyMessage), .ok (.response .success)]

/-- The camera sends before it is asked to, and goes on to the end. -/
def talkativeMessages : List (Except Error Message) := [
  .ok (.frame ⟨0, [0x80, 96, 0, 1]⟩),
  .ok (.response { code := 200, reason := "OK", body := some cameraDescription }),
  .ok (.response .success),
  .ok (.frame ⟨1, [0x80, 200, 0, 6]⟩),
  .ok (.frame ⟨2, []⟩),
  .ok (.response .success),
  .ok (.response .success),
  .ok (.frame ⟨0, [0x80, 96, 0, 2]⟩),
  .error (.protocol .emptyMessage),
  .ok (.frame ⟨0, [0x80, 96, 0, 3]⟩),
  .ok (.response .success),
  .ok (.frame ⟨0, [0x80, 96, 0, 4]⟩)]

/-- From the opening to the closing. -/
def watching : List Transition :=
  [.nullToReady, .readyToPaused, .pausedToPlaying, .playingToPaused, .readyToNull]

theorem passages_interleaved_watching :
    Interleaved plainMessages talkativeMessages ∧
    World.passages { session := cameraSession, peer := { incoming := talkativeMessages } } watching
      = World.passages { session := cameraSession, peer := { incoming := plainMessages } }
          watching ∧
    (World.passages { session := cameraSession, peer := { incoming := plainMessages } }
        watching).map (fun p => (p.result.toBool, p.session.phase, p.history.length))
      = [(true, .ready, 4), (true, .paused, 4), (true, .playing, 5), (false, .playing, 6),
          (true, .closed, 7)] := by
  have hmessages : Interleaved plainMessages talkativeMessages :=
    .frame _ <| .message _ <| .message _ <| .frame _ <| .frame _ <| .message _ <| .message _ <|
      .frame _ <| .message _ <| .frame _ <| .message _ <| .frame _ .nil
  have hpassages := passages_interleaved
    { session := cameraSession, peer := { incoming := plainMessages } } hmessages watching
  exact ⟨hmessages, hpassages, by decide +kernel⟩

end MediaTransport.Session
