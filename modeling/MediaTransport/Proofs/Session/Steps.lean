import MediaTransport.Proofs.Session.Exchange

/-!
# Steps

Every transition but the last one starts in one phase, and the last one in every
phase but the first (`Transition.StartsIn`).  Where it starts, a step is what its
transition stands for (`Transition.activity`, `changeState_starts`); anywhere else it
is refused and nothing happens (`changeState_refused`).
-/

namespace MediaTransport.Session

open Rtsp

variable {w : World} {t : Transition}

/-- The phases in which a transition starts. -/
def Transition.StartsIn : Transition → Phase → Prop
  | .nullToReady, phase => phase = .closed
  | .readyToPaused, phase => phase = .ready
  | .pausedToPlaying, phase => phase = .paused
  | .playingToPaused, phase => phase = .playing
  | .pausedToReady, phase => phase = .paused
  | .readyToNull, phase => phase ≠ .closed

/-- Asks the server for something and then moves to a phase. -/
def exchangeAndEnter (method : Method) (l : Location) (phase : Phase) : Control Unit := do
  let _ ← exchange method l.text []
  enter phase

/-- What a transition stands for in a session with a location. -/
def Transition.activity (l : Location) : Transition → Control Unit
  | .nullToReady => openSession
  | .readyToPaused => enter .paused
  | .pausedToPlaying => exchangeAndEnter .play l .playing
  | .playingToPaused => exchangeAndEnter .pause l .paused
  | .pausedToReady => enter .ready
  | .readyToNull => closeSession

/-- A transition that does not start in the phase is refused, and the world stays as it is. -/
theorem changeState_refused (h : ¬t.StartsIn w.session.phase) :
    (changeState t).run.run w = (.error (.invalidTransition w.session.phase t), w) := by
  unfold changeState
  rw [run_get_bind]
  cases t with
  | readyToNull =>
    have hphase : w.session.phase = .closed := not_not.mp h
    simp only [hphase]
    rfl
  | _ =>
    -- One phase contradicts the hypothesis, and in the others no rule applies but the last.
    cases hphase : w.session.phase <;>
      first
      | exact absurd hphase h
      | simp only [hphase]
        rfl

/-- Any other transition goes through its activity, at the location of the session. -/
theorem changeState_starts (h : t.StartsIn w.session.phase) :
    (changeState t).run.run w = (t.activity w.session.location).run.run w := by
  unfold changeState
  rw [run_get_bind]
  -- All transitions but the last name their phase; for the last one the phases are gone through.
  cases t with
  | readyToNull =>
    cases hphase : w.session.phase with
    | closed => exact absurd hphase h
    | _ =>
      simp only [hphase]
      rfl
  | _ =>
    have hphase : w.session.phase = _ := h
    simp only [hphase]
    rfl

theorem eq_nullToReady_of_startsIn_closed (h : t.StartsIn .closed) : t = .nullToReady := by
  cases t with
  | nullToReady => rfl
  | readyToNull => exact absurd rfl h
  | _ => cases h

/-- The phase is entered just when the exchange succeeds; the request is counted in any case. -/
theorem exchangeAndEnter_run (h : w.session.isConnected = true) (method : Method) (l : Location)
    (phase : Phase) : ∃ outcome after,
    (exchangeAndEnter method l phase).run.run w = (outcome, after) ∧
      (outcome = .ok () → after.session = { w.session.counted with phase }) ∧
      (outcome ≠ .ok () → after.session = w.session.counted) := by
  unfold exchangeAndEnter
  obtain ⟨r, -, hrun⟩ | ⟨-, e, p, hrun⟩ := exchange_run w h method l.text []
  · rw [run_bind_ok _ hrun]
    exact ⟨_, _, rfl, fun _ => rfl, fun hne => absurd rfl hne⟩
  · rw [run_bind_error _ hrun]
    exact ⟨_, _, rfl, nofun, fun _ => rfl⟩

end MediaTransport.Session
