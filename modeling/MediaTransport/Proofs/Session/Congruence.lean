import MediaTransport.Proofs.Session.Opening

/-!
# Two runs of a session

Two sessions take the same steps when nothing that a step looks at tells them apart.  Of the
session a step looks at everything but the number of the last request, and of the peer at
the outcomes of a connection attempt and of an exchange.  So a relation between two worlds is
kept by every step as soon as it is kept by these two, and by a change of the session that has
nothing to do with the number (`IsCongruence`).

The lemmas follow the activities of a session up to its steps
(`IsCongruence.agrees_changeState`).  An opening is special: it drops what is left of the last
connection, so it asks less of the two sessions than the other activities do
(`IsCongruence.agrees_openSession`).
-/

namespace MediaTransport.Session

open Rtsp

/-- A change of the session that neither looks at the number nor moves it. -/
def IgnoresNumber (f : State → State) : Prop :=
  ∀ (s : State) (n : UInt32), f { s with sequence := n } = { f s with sequence := n }

/-- What ignores the sequence number does not change it either. -/
theorem IgnoresNumber.sequence {f : State → State} (hf : IgnoresNumber f) (s : State) :
    (f s).sequence = s.sequence := by
  have hsame : f s = { f s with sequence := s.sequence } := hf s s.sequence
  rw [hsame]

/-- A relation between two worlds that no activity can tell apart. -/
structure IsCongruence (rel : World → World → Prop) : Prop where
  /-- The sessions differ in their numbers at most. -/
  session {w w' : World} : rel w w' → ∃ n, w.session = { w'.session with sequence := n }
  /-- A change that has nothing to do with the numbers keeps the relation. -/
  update {w w' : World} {f : State → State} : rel w w' → IgnoresNumber f →
    rel { w with session := f w.session } { w' with session := f w'.session }
  /-- So does an attempt to connect. -/
  agrees_connect {w w' : World} : rel w w' → Agrees rel connect connect w w'
  /-- So does an exchange. -/
  agrees_exchange {w w' : World} (method : Method) (uri : String) (headers : List Header) :
    rel w w' → Agrees rel (exchange method uri headers) (exchange method uri headers) w w'

namespace IsCongruence

variable {rel : World → World → Prop} {w w' : World}

/-- Related worlds are in the same phase. -/
theorem phase (hrel : IsCongruence rel) (h : rel w w') : w.session.phase = w'.session.phase := by
  obtain ⟨n, hsession⟩ := hrel.session h
  rw [hsession]

theorem location (hrel : IsCongruence rel) (h : rel w w') :
    w.session.location = w'.session.location := by
  obtain ⟨n, hsession⟩ := hrel.session h
  rw [hsession]

theorem streams (hrel : IsCongruence rel) (h : rel w w') :
    w.session.streams = w'.session.streams := by
  obtain ⟨n, hsession⟩ := hrel.session h
  rw [hsession]

theorem isConnected (hrel : IsCongruence rel) (h : rel w w') :
    w.session.isConnected = w'.session.isConnected := by
  obtain ⟨n, hsession⟩ := hrel.session h
  rw [hsession]

/-- They stay related when both sessions are changed in a way that ignores the number. -/
theorem agrees_update (hrel : IsCongruence rel) (h : rel w w') {f : State → State}
    (hf : IgnoresNumber f) : Agrees rel (Session.update f) (Session.update f) w w' :=
  ⟨rfl, hrel.update h hf⟩

theorem agrees_enter (hrel : IsCongruence rel) (h : rel w w') (phase : Phase) :
    Agrees rel (enter phase) (enter phase) w w' :=
  hrel.agrees_update h fun _ _ => rfl

/-- They set up a track alike. -/
theorem agrees_setUp (hrel : IsCongruence rel) (h : rel w w') (index : ℕ) (media : Sdp.Section) :
    Agrees rel (setUp index media) (setUp index media) w w' := by
  unfold setUp
  split
  next control _ =>
    refine agrees_get_bind ?_
    simp only
    rw [hrel.location h, hrel.streams h]
    split
    next =>
      refine (hrel.agrees_exchange _ _ _ h).bind fun _ _ _ h => ?_
      exact hrel.agrees_update h fun _ _ => rfl
    next => exact agrees_throw h _
  next => exact agrees_pure h ()

theorem agrees_setUpAll (hrel : IsCongruence rel) (h : rel w w') (index : ℕ)
    (sections : List Sdp.Section) :
    Agrees rel (setUpAll index sections) (setUpAll index sections) w w' := by
  induction sections generalizing index w w' with
  | nil => exact agrees_pure h ()
  | cons media rest ih =>
    exact (hrel.agrees_setUp h index media).bind fun _ _ _ h => ih h (index + 1)

/-- They read the same description, and so have the same tracks to set up. -/
theorem agrees_describeAndSetUp (hrel : IsCongruence rel) (h : rel w w') (l : Location) :
    Agrees rel (describeAndSetUp l) (describeAndSetUp l) w w' := by
  unfold describeAndSetUp
  refine (hrel.agrees_exchange _ _ _ h).bind fun r _ _ h => ?_
  refine (agrees_liftM h _).bind fun d _ _ h => ?_
  refine (hrel.agrees_setUpAll h 0 d.media).bind fun _ _ _ h => ?_
  exact hrel.agrees_update h fun _ _ => rfl

/-- It is enough that the sessions are related once they are cleared. -/
theorem agrees_openSession (hrel : IsCongruence rel)
    (h : rel { w with session := w.session.cleared } { w' with session := w'.session.cleared }) :
    Agrees rel openSession openSession w w' := by
  have hclear : Agrees rel (Session.update State.cleared) (Session.update State.cleared) w w' :=
    ⟨rfl, h⟩
  rw [openSession_eq]
  refine hclear.bind fun _ _ _ h => (hrel.agrees_connect h).bind fun _ w w' h => ?_
  refine agrees_get_bind ?_
  rw [hrel.location h]
  exact hrel.agrees_describeAndSetUp h _

theorem agrees_exchangeAndEnter (hrel : IsCongruence rel) (h : rel w w') (method : Method)
    (l : Location) (phase : Phase) :
    Agrees rel (exchangeAndEnter method l phase) (exchangeAndEnter method l phase) w w' :=
  (hrel.agrees_exchange method l.text [] h).bind fun _ _ _ h => hrel.agrees_enter h phase

/-- They close alike, whether or not there is someone to tell. -/
theorem agrees_closeSession (hrel : IsCongruence rel) (h : rel w w') :
    Agrees rel closeSession closeSession w w' := by
  unfold closeSession
  refine agrees_get_bind ?_
  simp only
  rw [hrel.phase h, hrel.isConnected h, hrel.location h]
  refine (hrel.agrees_enter h _).bind fun _ _ _ h => Agrees.bind (Agrees.tryCatch ?_ ?_) ?_
  · split
    next => exact (hrel.agrees_exchange _ _ _ h).bind fun _ _ _ h => agrees_pure h ()
    next => exact agrees_pure h ()
  · intro e _ _ h
    refine (hrel.agrees_update h ?_).bind fun _ _ _ h => agrees_throw h e
    exact fun _ _ => rfl
  · exact fun _ _ _ h => hrel.agrees_update h fun _ _ => rfl

/-- Every step has the same outcome in both sessions and keeps the relation. -/
theorem agrees_changeState (hrel : IsCongruence rel) (h : rel w w') (t : Transition) :
    Agrees rel (changeState t) (changeState t) w w' := by
  unfold Agrees
  have hphase := hrel.phase h
  by_cases hstarts : t.StartsIn w'.session.phase
  · rw [changeState_starts hstarts, changeState_starts (hphase ▸ hstarts), hrel.location h]
    cases t with
    | nullToReady => exact hrel.agrees_openSession (hrel.update h fun _ _ => rfl)
    | readyToPaused => exact hrel.agrees_enter h .paused
    | pausedToPlaying => exact hrel.agrees_exchangeAndEnter h .play _ .playing
    | playingToPaused => exact hrel.agrees_exchangeAndEnter h .pause _ .paused
    | pausedToReady => exact hrel.agrees_enter h .ready
    | readyToNull => exact hrel.agrees_closeSession h
  · rw [changeState_refused hstarts, changeState_refused (hphase ▸ hstarts), hphase]
    exact ⟨rfl, h⟩

end IsCongruence

end MediaTransport.Session
