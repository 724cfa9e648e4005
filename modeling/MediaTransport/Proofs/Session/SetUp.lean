import MediaTransport.Proofs.Session.Plan

/-!
# Setting up tracks

One section is skipped, refused for want of channels, or asked for and then
confirmed or not (`setUp_skipped`, `setUp_full`, `setUp_run`).  All sections
together carry out the plan for their tracks (`setUpAll_run`).  The induction goes
over the sections; it is carried by what is said of a session that may have streams
already (`SetsUp`), since the number of a track is the number of streams before it.
-/

namespace MediaTransport.Session

open Rtsp Sdp

/-! ## One track -/

variable {w : World} {media : Section} {control : String}

theorem setUp_skipped (h : media.control? = none) (index : ℕ) (w : World) :
    (setUp index media).run.run w = (.ok (), w) := by
  unfold setUp
  rw [h]
  rfl

/-- Without channels the track is not asked for. -/
theorem setUp_full (hcontrol : media.control? = some control)
    (hfull : trackLimit ≤ w.session.streams.length) (index : ℕ) :
    (setUp index media).run.run w = (.error (.invalidConfig .tooManyStreams), w) := by
  have hrequest : Delivery.request? w.session.streams.length = none := by
    rw [request?_eq, if_neg (by omega)]
  unfold setUp
  rw [hcontrol]
  simp only
  rw [run_get_bind, hrequest]
  rfl

/-- What is left when a track was set up with a response. -/
def World.withTrack (w : World) (t : Track) (r : Response) : World :=
  { w with session := { w.session with
      identifier := w.session.identifier <|> (r.header? "Session").map identifierOf
      streams := w.session.streams
        ++ [t.stream w.session.location w.session.streams.length r] } }

@[simp]
theorem length_streams_withTrack (w : World) (request : Request) (t : Track) (r : Response) :
    ((w.confirmed request).withTrack t r).session.streams.length
      = w.session.streams.length + 1 := by
  simp [World.withTrack, World.confirmed, State.counted]

/-- A track is asked for, and becomes a stream when that is confirmed. -/
theorem setUp_run (hconnected : w.session.isConnected = true)
    (hcontrol : media.control? = some control) (hroom : w.session.streams.length < trackLimit)
    (index : ℕ) : ∃ request,
    (settingUp w.session.location w.session.streams.length ⟨index, media, control⟩).IsAskedBy
        (w.session.sequence + 1) request ∧
      ((∃ r, w.peer.Confirms 0 r ∧ (setUp index media).run.run w
        = (.ok (), (w.confirmed request).withTrack ⟨index, media, control⟩ r)) ∨
      ((¬∃ r, w.peer.Confirms 0 r) ∧ ∃ e p,
        (setUp index media).run.run w = (.error e, w.refused request p))) := by
  have hrequest : Delivery.request? w.session.streams.length
      = some (requested w.session.streams.length) := by
    rw [request?_eq, if_pos hroom]
  have hrun : (setUp index media).run.run w = (do
      let response ← exchange .setup (w.session.location.streamUri control)
        [⟨"Transport", (requested w.session.streams.length).render⟩]
      update fun s => { s with
        identifier := s.identifier <|> (response.header? "Session").map identifierOf
        streams := s.streams ++ [Track.stream ⟨index, media, control⟩ w.session.location
          w.session.streams.length response] } : Control Unit).run.run w := by
    unfold setUp
    rw [hcontrol]
    simp only
    rw [run_get_bind, hrequest]
    rfl
  rw [hrun]
  obtain ⟨request, hasked, ⟨r, hconfirms, hexchange⟩ | ⟨hrefused, e, p, hexchange⟩⟩ :=
    exchange_asks w hconnected
      (settingUp w.session.location w.session.streams.length ⟨index, media, control⟩)
  · refine ⟨request, hasked, .inl ⟨r, hconfirms, ?_⟩⟩
    exact run_bind_ok _ hexchange
  · refine ⟨request, hasked, .inr ⟨hrefused, e, p, ?_⟩⟩
    exact run_bind_error _ hexchange

/-! ## All tracks -/

/-- What it does to set up some tracks in a session that may have streams already. -/
structure SetsUp (w : World) (ts : List Track) (outcome : Except Error Unit) (after : World) :
    Prop where
  /-- Only the number of the last request, the identifier and the streams change. -/
  frame : ∃ sequence identifier streams,
    after.session = { w.session with sequence, identifier, streams }
  /-- The tracks are asked for in order, while there are channels. -/
  requests : ∃ requests, after.history = w.history ++ requests.mapIdx w.peer.event ∧
    Attempts w.peer (w.session.sequence + 1)
      (settingUpFrom w.session.location w.session.streams.length ts) requests
  /-- It succeeds when there are channels for all tracks and all are confirmed. -/
  succeeds : outcome = .ok () ↔ w.session.streams.length + ts.length ≤ trackLimit ∧
    ∀ j < ts.length, ∃ r, w.peer.Confirms j r
  /-- Then every track is a stream. -/
  streams : outcome = .ok () → ∃ added, after.session.streams = w.session.streams ++ added ∧
    added.length = ts.length ∧ ∀ (j : ℕ) (t : Track), ts[j]? = some t → ∃ r, w.peer.Confirms j r ∧
      added[j]? = some (t.stream w.session.location (w.session.streams.length + j) r)

namespace SetsUp

variable {t : Track} {ts : List Track} {outcome : Except Error Unit} {after : World}

theorem nil (h : w.session.streams.length ≤ trackLimit) : SetsUp w [] (.ok ()) w where
  frame := ⟨_, _, _, rfl⟩
  requests := by
    refine ⟨[], by simp, ?_⟩
    rw [settingUpFrom_nil]
    exact .nil _ _
  succeeds := by simp [h]
  streams := by
    intro _
    exact ⟨[], by simp⟩

/-- Without channels no track is asked for. -/
theorem full (h : trackLimit ≤ w.session.streams.length) (e : Error) :
    SetsUp w (t :: ts) (.error e) w where
  frame := ⟨_, _, _, rfl⟩
  requests := by
    refine ⟨[], by simp, ?_⟩
    rw [settingUpFrom_full h]
    exact .nil _ _
  succeeds := by
    constructor
    · intro hok
      cases hok
    · rintro ⟨hroom, -⟩
      simp only [List.length_cons] at hroom
      omega
  streams := by
    intro hok
    cases hok

/-- A track that is not confirmed is the last one. -/
theorem refused (hroom : w.session.streams.length < trackLimit)
    (hrefused : ¬∃ r, w.peer.Confirms 0 r) {request : Request}
    (hasked : (settingUp w.session.location w.session.streams.length t).IsAskedBy
      (w.session.sequence + 1) request) (e : Error) (p : Peer) :
    SetsUp w (t :: ts) (.error e) (w.refused request p) where
  frame := ⟨_, _, _, rfl⟩
  requests := by
    refine ⟨[request], by simp [World.refused], ?_⟩
    rw [settingUpFrom_cons hroom]
    exact .refused hrefused hasked
  succeeds := by
    constructor
    · intro hok
      cases hok
    · rintro ⟨-, hall⟩
      exact absurd (hall 0 (by simp)) hrefused
  streams := by
    intro hok
    cases hok

/-- A track that is confirmed comes before the others. -/
theorem confirmed (hroom : w.session.streams.length < trackLimit) {r : Response}
    (hconfirms : w.peer.Confirms 0 r) {request : Request}
    (hasked : (settingUp w.session.location w.session.streams.length t).IsAskedBy
      (w.session.sequence + 1) request)
    (rest : SetsUp ((w.confirmed request).withTrack t r) ts outcome after) :
    SetsUp w (t :: ts) outcome after where
  frame := by
    obtain ⟨sequence, identifier, streams, hframe⟩ := rest.frame
    exact ⟨sequence, identifier, streams, hframe⟩
  requests := by
    obtain ⟨requests, hhistory, hattempts⟩ := rest.requests
    -- The later tracks meet the peer as it is after the first exchange.
    refine ⟨request :: requests, ?_, ?_⟩
    · exact hhistory.trans (World.history_confirmed hconfirms request requests)
    · rw [settingUpFrom_cons hroom]
      refine .confirmed hconfirms hasked ?_
      rw [length_streams_withTrack] at hattempts
      exact hattempts
  succeeds := by
    have hlength : w.session.streams.length + 1 + ts.length
        = w.session.streams.length + (ts.length + 1) := by omega
    rw [rest.succeeds, length_streams_withTrack, List.length_cons, hlength, hconfirms.forall_succ]
    rfl
  streams := by
    intro hok
    obtain ⟨added, hstreams, hlength, hadded⟩ := rest.streams hok
    refine ⟨t.stream w.session.location w.session.streams.length r :: added, ?_, ?_, ?_⟩
    · rw [hstreams]
      exact List.append_assoc _ _ _
    · rw [List.length_cons, List.length_cons, hlength]
    · intro j u hu
      cases j with
      | zero =>
        cases hu
        exact ⟨r, hconfirms, rfl⟩
      | succ j =>
        obtain ⟨r', hr', hstream⟩ := hadded j u hu
        have hnumber : w.session.streams.length + 1 + j = w.session.streams.length + (j + 1) := by
          omega
        rw [length_streams_withTrack, hnumber] at hstream
        exact ⟨r', (w.peer.confirms_next j r').mp hr', hstream⟩

end SetsUp

theorem setUpAll_run (sections : List Section) (index : ℕ) (w : World)
    (hconnected : w.session.isConnected = true)
    (hroom : w.session.streams.length ≤ trackLimit) : ∃ outcome after,
    (setUpAll index sections).run.run w = (outcome, after) ∧
      SetsUp w (tracksFrom index sections) outcome after := by
  induction sections generalizing index w with
  | nil => exact ⟨_, _, rfl, .nil hroom⟩
  | cons media rest ih =>
    unfold setUpAll
    -- A section that is skipped has a number in the description but no channels.
    cases hcontrol : media.control? with
    | none =>
      rw [run_bind_ok _ (setUp_skipped hcontrol index w), tracksFrom_cons_none hcontrol]
      exact ih (index + 1) w hconnected hroom
    | some control =>
      rw [tracksFrom_cons_some hcontrol]
      obtain hroom | hfull := Nat.lt_or_ge w.session.streams.length trackLimit
      · obtain ⟨request, hasked, ⟨r, hconfirms, hrun⟩ | ⟨hrefused, e, p, hrun⟩⟩ :=
          setUp_run hconnected hcontrol hroom index
        · rw [run_bind_ok _ hrun]
          have hmore : ((w.confirmed request).withTrack ⟨index, media, control⟩
              r).session.streams.length ≤ trackLimit := by
            rw [length_streams_withTrack]
            exact hroom
          obtain ⟨outcome, after, hrest, hsets⟩ := ih (index + 1)
            ((w.confirmed request).withTrack ⟨index, media, control⟩ r) hconnected hmore
          exact ⟨outcome, after, hrest, .confirmed hroom hconfirms hasked hsets⟩
        · rw [run_bind_error _ hrun]
          exact ⟨_, _, rfl, .refused hroom hrefused hasked e p⟩
      · rw [run_bind_error _ (setUp_full hcontrol hfull index)]
        exact ⟨_, _, rfl, .full hfull _⟩

end MediaTransport.Session
