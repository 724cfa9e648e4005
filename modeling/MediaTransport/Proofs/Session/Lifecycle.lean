import MediaTransport.Proofs.Session.Opening

/-!
# The life of a session

A session is *reachable* when some calls lead to it from a new one, each with a peer
of its own, so that connections, sendings and answers may go well or fail in every
way.  What every reachable session satisfies is `State.IsCoherent`: whether there is
a connection, a description and streams is decided by the phase.

It is kept by every step (`changeState_isCoherent`).  A step over an exchange either
moves the session or only counts the request, and closing always drops the connection,
so that a session that could not be closed is closed by the next attempt
(`closeSession_run`, `changeState_tearingDown`).
-/

namespace MediaTransport.Session

open Rtsp Sdp

variable {w : World}

/-! ## Closing -/

/-- A session that the server does not know is closed without a word. -/
theorem closeSession_silent
    (h : (w.session.phase.isEstablished && w.session.isConnected) = false) :
    closeSession.run.run w
      = (.ok (), { w with session := { w.session with isConnected := false, phase := .closed } }) := by
  unfold closeSession
  rw [run_get_bind]
  simp only [h]
  rfl

/-- Drops the connection because of an error. -/
def dropConnection (e : Error) : Control Unit := do
  update fun s => { s with isConnected := false }
  throw e

/-- The phase changes before the server is asked, so a failure leaves it behind. -/
theorem closeSession_established
    (h : (w.session.phase.isEstablished && w.session.isConnected) = true) :
    closeSession.run.run w
      = (tryCatch (exchange .teardown w.session.location.text [] >>= fun _ => pure ())
          dropConnection >>= fun _ =>
        update fun s => { s with isConnected := false, phase := .closed }).run.run
        { w with session := { w.session with phase := .tearingDown } } := by
  unfold closeSession
  rw [run_get_bind]
  simp only [h]
  rfl

/-- Closing drops the connection, also when it fails. -/
theorem closeSession_run (w : World) : ∃ outcome after,
    closeSession.run.run w = (outcome, after) ∧ after.session.isConnected = false ∧
      (outcome = .ok () → after.session.phase = .closed) ∧
      (outcome ≠ .ok () → after.session.phase = .tearingDown) := by
  cases h : w.session.phase.isEstablished && w.session.isConnected with
  | false =>
    rw [closeSession_silent h]
    exact ⟨_, _, rfl, rfl, fun _ => rfl, fun hne => absurd rfl hne⟩
  | true =>
    have hconnected : w.session.isConnected = true := (Bool.and_eq_true_iff.mp h).2
    rw [closeSession_established h]
    obtain ⟨r, -, hrun⟩ | ⟨-, e, p, hrun⟩ := exchange_run
      { w with session := { w.session with phase := .tearingDown } } hconnected .teardown
      w.session.location.text []
    · rw [run_bind_ok _ (run_tryCatch_ok dropConnection (run_bind_ok (fun _ => pure ()) hrun))]
      exact ⟨_, _, rfl, rfl, fun _ => rfl, fun hne => absurd rfl hne⟩
    · rw [run_bind_error _ (run_tryCatch_error dropConnection (run_bind_error _ hrun))]
      exact ⟨_, _, rfl, rfl, nofun, fun _ => rfl⟩

/-- Closing always drops the connection; the session is closed only if it succeeds. -/
theorem changeState_readyToNull_run (h : w.session.phase ≠ .closed) : ∃ outcome after,
    (changeState .readyToNull).run.run w = (outcome, after) ∧ after.session.isConnected = false ∧
      (outcome = .ok () → after.session.phase = .closed) ∧
      (outcome ≠ .ok () → after.session.phase = .tearingDown) := by
  obtain ⟨outcome, after, hrun, hclosed⟩ := closeSession_run w
  exact ⟨outcome, after, (changeState_starts (t := .readyToNull) h).trans hrun, hclosed⟩

/-! ## Coherence -/

/-- What the phase of a session says of its connection, its description and its streams. -/
structure State.IsCoherent (s : State) : Prop where
  /-- A session that is closed or being closed has no connection. -/
  disconnected : s.phase = .closed ∨ s.phase = .tearingDown → s.isConnected = false
  /-- A session that is set up has a connection and a description, and its streams are the
  tracks of the description. -/
  established : s.phase = .ready ∨ s.phase = .paused ∨ s.phase = .playing →
    s.isConnected = true ∧ ∃ d, s.description = some d ∧
      s.streams.map (fun stream => (stream.index, stream.media, stream.uri))
        = (tracks d).map fun t => (t.index, t.media, s.location.streamUri t.control)
  /-- A session that is being set up has no description. -/
  describing : s.phase = .describing → s.description = none

namespace State.IsCoherent

variable {s : State}

theorem of_closing (hconnected : s.isConnected = false)
    (hphase : s.phase = .closed ∨ s.phase = .tearingDown) : s.IsCoherent where
  disconnected := fun _ => hconnected
  established := by
    intro h
    rcases hphase with hphase | hphase <;> rw [hphase] at h <;> simp at h
  describing := by
    intro h
    rcases hphase with hphase | hphase <;> rw [hphase] at h <;> cases h

theorem of_describing (hphase : s.phase = .describing) (hdescription : s.description = none) :
    s.IsCoherent where
  disconnected := by
    intro h
    rw [hphase] at h
    simp at h
  established := by
    intro h
    rw [hphase] at h
    simp at h
  describing := fun _ => hdescription

/-- Among the phases that are set up a session may move freely. -/
theorem move (h : s.IsCoherent) (hfrom : s.phase = .ready ∨ s.phase = .paused ∨ s.phase = .playing)
    {phase : Phase} (hto : phase = .ready ∨ phase = .paused ∨ phase = .playing) (n : UInt32) :
    State.IsCoherent { s with phase, sequence := n } where
  disconnected := by
    intro hphase
    rcases hto with rfl | rfl | rfl <;> simp at hphase
  established := fun _ => h.established hfrom
  describing := by
    intro hphase
    rcases hto with rfl | rfl | rfl <;> cases hphase

end State.IsCoherent

/-- However an opening ends, its session is coherent. -/
theorem Opens.isCoherent {outcome : Except Error Unit} {after : World}
    (h : Opens w outcome after) : after.session.IsCoherent := by
  by_cases hok : outcome = .ok ()
  · obtain ⟨hphase, hconnected, d, -, hdescription, hlength, hstreams⟩ := h.ready hok
    refine ⟨?_, fun _ => ⟨hconnected, d, hdescription, ?_⟩, ?_⟩
    · intro hclosed
      rw [hphase] at hclosed
      simp at hclosed
    · apply List.ext_getElem?
      intro i
      rw [List.getElem?_map, List.getElem?_map]
      cases ht : (tracks d)[i]? with
      | none =>
        rw [List.getElem?_eq_none_iff, ← hlength, ← List.getElem?_eq_none_iff] at ht
        rw [ht]
        rfl
      | some t =>
        obtain ⟨r, -, hstream⟩ := hstreams i t ht
        rw [hstream, h.location]
        rfl
    · intro hdescribing
      rw [hphase] at hdescribing
      cases hdescribing
  · obtain ⟨hphase, hdescription⟩ := h.failed hok
    exact .of_describing hphase hdescription

theorem exchangeAndEnter_isCoherent (h : w.session.IsCoherent)
    (hfrom : w.session.phase = .ready ∨ w.session.phase = .paused ∨ w.session.phase = .playing)
    (method : Method) (l : Location) {phase : Phase}
    (hto : phase = .ready ∨ phase = .paused ∨ phase = .playing) :
    ((exchangeAndEnter method l phase).run.run w).2.session.IsCoherent := by
  obtain ⟨outcome, after, hrun, hok, herror⟩ :=
    exchangeAndEnter_run (h.established hfrom).1 method l phase
  rw [hrun]
  by_cases hcase : outcome = .ok ()
  · rw [hok hcase]
    exact h.move hfrom hto _
  · rw [herror hcase]
    exact h.move hfrom hfrom _

/-- Every step keeps a session coherent. -/
theorem changeState_isCoherent (h : w.session.IsCoherent) (t : Transition) :
    ((changeState t).run.run w).2.session.IsCoherent := by
  by_cases hstarts : t.StartsIn w.session.phase
  · rw [changeState_starts hstarts]
    cases t with
    | nullToReady =>
      obtain ⟨outcome, after, hrun, hopens⟩ := openSession_run w
      rw [Transition.activity, hrun]
      exact hopens.isCoherent
    | readyToPaused => exact h.move (.inl hstarts) (.inr (.inl rfl)) _
    | pausedToPlaying =>
      exact exchangeAndEnter_isCoherent h (.inr (.inl hstarts)) _ _ (.inr (.inr rfl))
    | playingToPaused =>
      exact exchangeAndEnter_isCoherent h (.inr (.inr hstarts)) _ _ (.inr (.inl rfl))
    | pausedToReady => exact h.move (.inr (.inl hstarts)) (.inl rfl) _
    | readyToNull =>
      obtain ⟨outcome, after, hrun, hconnected, hok, herror⟩ := closeSession_run w
      rw [Transition.activity, hrun]
      refine .of_closing hconnected ?_
      by_cases hcase : outcome = .ok ()
      · exact .inl (hok hcase)
      · exact .inr (herror hcase)
  · rw [changeState_refused hstarts]
    exact h

/-- Only a connected session that plays receives anything. -/
theorem receivePacket_refused (h : w.session.phase ≠ .playing ∨ (!w.session.isConnected) = true) :
    receivePacket.run.run w = (.error .notActive, w) := by
  unfold receivePacket
  rw [run_get_bind]
  simp only [if_pos h]
  rfl

/-- Asking for media changes nothing but what is coming in. -/
theorem receivePacket_run (w : World) :
    ∃ outcome p, receivePacket.run.run w = (outcome, { w with peer := p }) := by
  by_cases h : w.session.phase ≠ .playing ∨ (!w.session.isConnected) = true
  · exact ⟨_, w.peer, receivePacket_refused h⟩
  · unfold receivePacket
    rw [run_get_bind]
    simp only [if_neg h]
    exact ⟨_, _, rfl⟩

/-! ## Reachable sessions -/

/-- A call of the pipeline. -/
inductive Call where
  /-- A step. -/
  | change (transition : Transition)
  /-- Asking for the next piece of media. -/
  | receive

/-- What is left after a call that meets a peer. -/
def World.after (w : World) (p : Peer) : Call → World
  | .change t => ((changeState t).run.run { w with peer := p }).2
  | .receive => (receivePacket.run.run { w with peer := p }).2

/-- What is left after some calls, each of which may meet another peer. -/
def World.afterAll (w : World) (calls : List (Peer × Call)) : World :=
  calls.foldl (fun w call => w.after call.1 call.2) w

/-- Some calls lead here from a new session.  Every call may meet another peer. -/
inductive Reachable : World → Prop where
  /-- A new session. -/
  | new {location : String} {s : State} (p : Peer) (h : State.ofLocation location = .ok s) :
      Reachable { session := s, peer := p }
  /-- One more call. -/
  | call {w : World} (p : Peer) (c : Call) : Reachable w → Reachable (w.after p c)

theorem ofLocation_eq_ok {location : String} {s : State}
    (h : State.ofLocation location = .ok s) : s = { location := s.location } := by
  unfold State.ofLocation at h
  cases hparse : Location.parse location with
  | error e =>
    rw [hparse] at h
    cases h
  | ok l =>
    rw [hparse] at h
    cases h
    rfl

theorem ofLocation_isCoherent {location : String} {s : State}
    (h : State.ofLocation location = .ok s) : s.IsCoherent := by
  rw [ofLocation_eq_ok h]
  exact .of_closing rfl (.inl rfl)

theorem Reachable.afterAll (h : Reachable w) (calls : List (Peer × Call)) :
    Reachable (w.afterAll calls) := by
  induction calls generalizing w with
  | nil => exact h
  | cons call rest ih => exact ih (h.call call.1 call.2)

theorem after_isCoherent (h : w.session.IsCoherent) (p : Peer) (c : Call) :
    (w.after p c).session.IsCoherent := by
  cases c with
  | change t => exact changeState_isCoherent (w := { w with peer := p }) h t
  | receive =>
    obtain ⟨outcome, q, hrun⟩ := receivePacket_run { w with peer := p }
    rw [World.after, hrun]
    exact h

/-- Every session that comes up is coherent. -/
theorem Reachable.isCoherent (h : Reachable w) : w.session.IsCoherent := by
  induction h with
  | new p h => exact ofLocation_isCoherent h
  | call p c _ ih => exact after_isCoherent ih p c

/-! ## The life of a session -/

/-- What the next calls do to a session that stands here, whatever their peers do. -/
structure Lifecycle (w : World) : Prop where
  /-- The session is coherent. -/
  coherent : w.session.IsCoherent
  /-- A step that does not start in the phase is refused and nothing happens. -/
  refused : ∀ (t : Transition) (p : Peer), ¬t.StartsIn w.session.phase →
    (changeState t).run.run { w with peer := p }
      = (.error (.invalidTransition w.session.phase t), { w with peer := p })
  /-- Starting or suspending delivery in vain only counts the request. -/
  unmoved : ∀ (t : Transition) (p : Peer) (e : Error) (after : World),
    t = .pausedToPlaying ∨ t = .playingToPaused → t.StartsIn w.session.phase →
    (changeState t).run.run { w with peer := p } = (.error e, after) →
    after.session = { w.session with sequence := w.session.sequence + 1 }
  /-- Closing in vain drops the connection, and closing once more succeeds without a word. -/
  dropped : ∀ (p : Peer) (e : Error) (after : World), w.session.phase ≠ .closed →
    (changeState .readyToNull).run.run { w with peer := p } = (.error e, after) →
    after.session.phase = .tearingDown ∧ after.session.isConnected = false ∧
      ∀ q : Peer, (changeState .readyToNull).run.run { after with peer := q }
        = (.ok (), { after with
            session := { after.session with phase := .closed }
            peer := q })
  /-- The session is closed by one attempt or by two. -/
  closes : w.session.phase ≠ .closed → ∀ p q : Peer,
    (w.after p (.change .readyToNull)).session.phase = .closed ∨
      ((w.after p (.change .readyToNull)).after q (.change .readyToNull)).session.phase = .closed

/-- A session that could not be closed is closed by the next attempt. -/
theorem changeState_tearingDown (hphase : w.session.phase = .tearingDown)
    (hconnected : w.session.isConnected = false) :
    (changeState .readyToNull).run.run w
      = (.ok (), { w with session := { w.session with phase := .closed } }) := by
  have hstarts : w.session.phase ≠ .closed := by
    rw [hphase]
    decide
  have hsilent : (w.session.phase.isEstablished && w.session.isConnected) = false := by
    rw [hphase]
    rfl
  rw [changeState_starts (t := .readyToNull) hstarts, Transition.activity,
    closeSession_silent hsilent, ← hconnected]

theorem Reachable.lifecycle (h : Reachable w) : Lifecycle w where
  coherent := h.isCoherent
  refused := by
    intro t p hstarts
    exact changeState_refused (w := { w with peer := p }) hstarts
  unmoved := by
    intro t p e after ht hstarts hrun
    have hestablished : w.session.phase = .paused ∨ w.session.phase = .playing := by
      rcases ht with rfl | rfl
      · exact .inl hstarts
      · exact .inr hstarts
    have hconnected : w.session.isConnected = true :=
      (h.isCoherent.established (.inr hestablished)).1
    obtain ⟨method, phase, hactivity⟩ : ∃ method phase,
        t.activity w.session.location = exchangeAndEnter method w.session.location phase := by
      rcases ht with rfl | rfl
      · exact ⟨_, _, rfl⟩
      · exact ⟨_, _, rfl⟩
    obtain ⟨outcome, last, hlast, -, herror⟩ := exchangeAndEnter_run
      (w := { w with peer := p }) hconnected method w.session.location phase
    rw [changeState_starts (w := { w with peer := p }) hstarts, hactivity, hlast] at hrun
    cases hrun
    exact herror nofun
  dropped := by
    intro p e after hstarts hrun
    obtain ⟨outcome, last, hlast, hconnected, -, herror⟩ :=
      changeState_readyToNull_run (w := { w with peer := p }) hstarts
    rw [hlast] at hrun
    cases hrun
    have hphase := herror nofun
    exact ⟨hphase, hconnected, fun q =>
      changeState_tearingDown (w := { after with peer := q }) hphase hconnected⟩
  closes := by
    intro hstarts p q
    obtain ⟨outcome, last, hlast, hconnected, hok, herror⟩ :=
      changeState_readyToNull_run (w := { w with peer := p }) hstarts
    have hafter : w.after p (.change .readyToNull) = last := by
      rw [World.after, hlast]
    rw [hafter]
    by_cases hcase : outcome = .ok ()
    · exact .inl (hok hcase)
    · right
      rw [World.after, changeState_tearingDown (w := { last with peer := q }) (herror hcase)
        hconnected]

/-- A camera that sets up both of its tracks. -/
def twoTrackCamera : Peer where
  incoming := [
    .ok (.response { code := 200, reason := "OK", body := some cameraDescription }),
    .ok (.response .success),
    .ok (.response .success)]

theorem lifecycle_twoTrackCamera :
    Reachable (World.after { session := cameraSession } twoTrackCamera (.change .nullToReady)) ∧
    Lifecycle (World.after { session := cameraSession } twoTrackCamera (.change .nullToReady)) ∧
    (World.after { session := cameraSession } twoTrackCamera
      (.change .nullToReady)).session.phase = .ready := by
  have hnew : State.ofLocation "rtsp://cam/live" = .ok cameraSession := rfl
  have hreachable := Reachable.call twoTrackCamera (.change .nullToReady) (.new {} hnew)
  exact ⟨hreachable, hreachable.lifecycle, by decide +kernel⟩

end MediaTransport.Session
