import MediaTransport.Proofs.Session.SetUp
import MediaTransport.Proofs.Session.Steps

/-!
# Opening

To open a closed session is to connect, to ask for the description of the location,
and to set up its tracks in order, each on channels of its own.  `Opens` says all of
what this does with any peer: what is sent and where it ends, when it succeeds, and
what is left of the session in both cases (`changeState_nullToReady`).
-/

namespace MediaTransport.Session

open Rtsp Sdp

variable {w : World}

/-! ## What is asked for -/

/-- The description with which a peer answers the first request. -/
def Peer.described (p : Peer) : Option Description :=
  match p.reply 0 with
  | .ok r => (Description.parse (r.body.getD "")).toOption
  | .error _ => none

/-- What a session asks for to open: the description, and then every track for which
there are channels. -/
def opening (l : Location) (ts : List Track) : List Ask :=
  describing l :: (ts.take trackLimit).mapIdx (settingUp l)

theorem opening_eq (l : Location) (ts : List Track) :
    opening l ts = describing l :: settingUpFrom l 0 ts := by
  simp [opening, settingUpFrom]

/-- There is one request for the description and one for each track. -/
theorem length_opening (l : Location) {ts : List Track} (h : ts.length ≤ trackLimit) :
    (opening l ts).length = ts.length + 1 := by
  simp [opening, h]

theorem opening_succ {l : Location} {ts : List Track} {i : ℕ} {a : Ask}
    (h : (opening l ts)[i + 1]? = some a) : i < trackLimit ∧ ∃ t, a = settingUp l i t := by
  rw [opening, List.getElem?_cons_succ, List.getElem?_mapIdx] at h
  obtain ⟨t, ht, ha⟩ := Option.map_eq_some_iff.mp h
  obtain ⟨hi, -⟩ := List.getElem?_eq_some_iff.mp ht
  rw [List.length_take] at hi
  exact ⟨by omega, t, ha.symm⟩

/-- A track asks for two channels of its own, by its place. -/
theorem Attempts.channels_succ {p : Peer} {n : UInt32} {l : Location} {ts : List Track}
    {requests : List Request} (h : Attempts p n (opening l ts) requests) {i : ℕ}
    {request : Request} (hi : requests[i + 1]? = some request) : i < trackLimit ∧
      channels request = [UInt8.ofNat (2 * i), UInt8.ofNat (2 * i + 1)] := by
  obtain ⟨a, ha, hasked⟩ := h.follows (i + 1) request hi
  obtain ⟨hlimit, t, rfl⟩ := opening_succ ha
  exact ⟨hlimit, channels_settingUp hasked⟩

/-- No two requests of an opening ask for the same channel. -/
theorem Attempts.pairwise_channels {p : Peer} {n : UInt32} {l : Location} {ts : List Track}
    {requests : List Request} (h : Attempts p n (opening l ts) requests) :
    requests.Pairwise fun a b => (channels a).Disjoint (channels b) := by
  rw [List.pairwise_iff_getElem]
  intro i j hi hj hij
  have hlater : requests[j]? = some requests[j] := List.getElem?_eq_getElem hj
  -- The later of the two is for a track; the earlier one may be for the description.
  obtain ⟨j, rfl⟩ : ∃ k, j = k + 1 := ⟨j - 1, by omega⟩
  obtain ⟨hlimit, hchannels⟩ := h.channels_succ hlater
  rw [hchannels]
  cases i with
  | zero =>
    obtain ⟨a, ha, hasked⟩ := h.follows 0 _ (List.getElem?_eq_getElem hi)
    cases ha
    rw [channels_describing hasked]
    exact List.disjoint_nil_left _
  | succ i =>
    obtain ⟨-, hearlier⟩ := h.channels_succ (List.getElem?_eq_getElem hi)
    rw [hearlier]
    exact disjoint_channels (by omega) hlimit

/-! ## What it does -/

/-- What it does to open a closed session. -/
structure Opens (w : World) (outcome : Except Error Unit) (after : World) : Prop where
  /-- The session keeps its location. -/
  location : after.session.location = w.session.location
  /-- Without a connection nothing is sent. -/
  unconnected : ∀ e, w.peer.connecting = .error e →
    outcome = .error e ∧ after.history = w.history
  /-- On a connection the opening is attempted in order, up to the first request that is
  not confirmed.  Every track is asked for on channels of its own. -/
  requests : w.peer.connecting = .ok () → ∃ requests,
    after.history = w.history ++ .connected :: requests.mapIdx w.peer.event ∧
    Attempts w.peer (w.session.sequence + 1)
      (opening w.session.location (w.peer.described.elim [] tracks)) requests ∧
    (∀ (i : ℕ) (request : Request), requests[i + 1]? = some request →
      (channels request).map UInt8.toNat = [2 * i, 2 * i + 1]) ∧
    requests.Pairwise (fun a b => (channels a).Disjoint (channels b)) ∧
    (outcome = .ok () → requests.mapIdx w.peer.event = requests.map .sent ∧
      requests.length = (w.peer.described.elim [] tracks).length + 1)
  /-- The opening succeeds when the connection is opened, the description can be read,
  there are channels for all tracks and every request is confirmed. -/
  succeeds : outcome = .ok () ↔ w.peer.connecting = .ok () ∧ ∃ d, w.peer.described = some d ∧
    (tracks d).length ≤ 128 ∧ ∀ j ≤ (tracks d).length, ∃ r, w.peer.Confirms j r
  /-- Then the session is ready, with one stream for every track. -/
  ready : outcome = .ok () → after.session.phase = .ready ∧ after.session.isConnected = true ∧
    ∃ d, w.peer.described = some d ∧ after.session.description = some d ∧
      after.session.streams.length = (tracks d).length ∧
      ∀ (i : ℕ) (t : Track), (tracks d)[i]? = some t → ∃ r, w.peer.Confirms (i + 1) r ∧
        after.session.streams[i]? = some (t.stream w.session.location i r)
  /-- Otherwise it has no description. -/
  failed : outcome ≠ .ok () →
    after.session.phase = .describing ∧ after.session.description = none

/-! ## Connecting -/

/-- The session that is about to be described. -/
def State.cleared (s : State) : State :=
  { s with phase := .describing, streams := [], identifier := none, description := none }

/-- A session to be opened, on its new connection. -/
def World.linked (w : World) : World :=
  { session := { w.session.cleared with isConnected := true }
    peer := { w.peer with connects := (nextOutcome w.peer.connects).2 }
    history := w.history ++ [.connected] }

theorem connect_run_error {e : Error} (h : w.peer.connecting = .error e) :
    connect.run.run w = (.error e,
      { w with peer := { w.peer with connects := (nextOutcome w.peer.connects).2 } }) := by
  have hnext : nextOutcome w.peer.connects = (.error e, (nextOutcome w.peer.connects).2) :=
    Prod.ext h rfl
  unfold connect
  rw [run_get_bind, hnext]
  rfl

theorem connect_run_ok (h : w.peer.connecting = .ok ()) :
    connect.run.run w = (.ok (),
      { session := { w.session with isConnected := true }
        peer := { w.peer with connects := (nextOutcome w.peer.connects).2 }
        history := w.history ++ [.connected] }) := by
  have hnext : nextOutcome w.peer.connects = (.ok (), (nextOutcome w.peer.connects).2) :=
    Prod.ext h rfl
  unfold connect
  rw [run_get_bind, hnext]
  rfl

/-- What is left of an opening on the new connection. -/
def describeAndSetUp (l : Location) : Control Unit := do
  let response ← exchange (describing l).method (describing l).uri (describing l).headers
  let description ← Description.parse (response.body.getD "")
  setUpAll 0 description.media
  update fun s => { s with description := some description, phase := .ready }

theorem openSession_eq : openSession = (do
    update State.cleared
    connect
    describeAndSetUp (← get).session.location) :=
  rfl

/-- Without a connection the session only forgets what it knew of an earlier one. -/
theorem openSession_unconnected {e : Error} (h : w.peer.connecting = .error e) :
    openSession.run.run w = (.error e,
      { session := w.session.cleared
        peer := { w.peer with connects := (nextOutcome w.peer.connects).2 }
        history := w.history }) := by
  have hclear : (update State.cleared).run.run w
      = (.ok (), { w with session := w.session.cleared }) := rfl
  have hconnect := connect_run_error (w := { w with session := w.session.cleared }) h
  rw [openSession_eq, run_bind_ok _ hclear, run_bind_error _ hconnect]

/-- With one, the rest is up to the description. -/
theorem openSession_connected (h : w.peer.connecting = .ok ()) :
    openSession.run.run w = (describeAndSetUp w.session.location).run.run w.linked := by
  have hclear : (update State.cleared).run.run w
      = (.ok (), { w with session := w.session.cleared }) := rfl
  have hconnect := connect_run_ok (w := { w with session := w.session.cleared }) h
  rw [openSession_eq, run_bind_ok _ hclear, run_bind_ok _ hconnect, run_get_bind]
  rfl

/-! ## How far it comes -/

/-- On its connection an opening is known by what it attempts and when it succeeds. -/
theorem Opens.linked {outcome : Except Error Unit} {after : World} {requests : List Request}
    (h : w.peer.connecting = .ok ())
    (hlocation : after.session.location = w.session.location)
    (hhistory : after.history = w.history ++ .connected :: requests.mapIdx w.peer.event)
    (hattempts : Attempts w.peer (w.session.sequence + 1)
      (opening w.session.location (w.peer.described.elim [] tracks)) requests)
    (hsucceeds : outcome = .ok () ↔ ∃ d, w.peer.described = some d ∧
      (tracks d).length ≤ trackLimit ∧ ∀ j ≤ (tracks d).length, ∃ r, w.peer.Confirms j r)
    (hready : outcome = .ok () → after.session.phase = .ready ∧ after.session.isConnected = true ∧
      ∃ d, w.peer.described = some d ∧ after.session.description = some d ∧
        after.session.streams.length = (tracks d).length ∧
        ∀ (i : ℕ) (t : Track), (tracks d)[i]? = some t → ∃ r, w.peer.Confirms (i + 1) r ∧
          after.session.streams[i]? = some (t.stream w.session.location i r))
    (hfailed : outcome ≠ .ok () →
      after.session.phase = .describing ∧ after.session.description = none) :
    Opens w outcome after where
  location := hlocation
  unconnected := by
    intro e he
    rw [h] at he
    cases he
  requests := by
    intro _
    refine ⟨requests, hhistory, hattempts, ?_, hattempts.pairwise_channels, ?_⟩
    · intro i request hi
      obtain ⟨hlimit, hchannels⟩ := hattempts.channels_succ hi
      rw [hchannels]
      exact toNat_channels hlimit
    · intro hok
      obtain ⟨d, hdescribed, hroom, hall⟩ := hsucceeds.mp hok
      have hlength : (opening w.session.location (w.peer.described.elim [] tracks)).length
          = (w.peer.described.elim [] tracks).length + 1 := by
        rw [hdescribed]
        exact length_opening _ hroom
      have hconfirmed : ∀ j < (opening w.session.location
          (w.peer.described.elim [] tracks)).length, ∃ r, w.peer.Confirms j r := by
        intro j hj
        rw [hlength, hdescribed] at hj
        exact hall j (Nat.le_of_lt_succ hj)
      exact ⟨hattempts.all_sent hconfirmed, hlength ▸ hattempts.length_eq hconfirmed⟩
  succeeds := by
    rw [hsucceeds, h]
    simp [trackLimit]
  ready := hready
  failed := hfailed

/-- There is no connection. -/
theorem Opens.unlinked {e : Error} (h : w.peer.connecting = .error e) (p : Peer) :
    Opens w (.error e) { session := w.session.cleared, peer := p, history := w.history } where
  location := rfl
  unconnected := by
    intro e' he
    rw [h] at he
    cases he
    exact ⟨rfl, rfl⟩
  requests := by
    intro hok
    rw [h] at hok
    cases hok
  succeeds := by
    constructor
    · intro hok
      cases hok
    · rintro ⟨hok, -⟩
      rw [h] at hok
      cases hok
  ready := by
    intro hok
    cases hok
  failed := fun _ => ⟨rfl, rfl⟩

/-- The request for the description is not confirmed. -/
theorem Opens.undescribed (h : w.peer.connecting = .ok ()) (hrefused : ¬∃ r, w.peer.Confirms 0 r)
    {request : Request} (hasked : (describing w.session.location).IsAskedBy
      (w.session.sequence + 1) request) (e : Error) (p : Peer) :
    Opens w (.error e) (w.linked.refused request p) := by
  refine .linked h rfl ?_ (.refused hrefused hasked) ?_ ?_ fun _ => ⟨rfl, rfl⟩
  · simp [World.refused, World.linked]
    rfl
  · constructor
    · intro hok
      cases hok
    · rintro ⟨d, -, -, hall⟩
      exact absurd (hall 0 (Nat.zero_le _)) hrefused
  · intro hok
    cases hok

theorem World.history_linked {r : Response} (hconfirms : w.linked.peer.Confirms 0 r) (request : Request)
    (requests : List Request) : (w.linked.confirmed request).history
        ++ requests.mapIdx (w.linked.confirmed request).peer.event
      = w.history ++ .connected :: (request :: requests).mapIdx w.peer.event := by
  rw [World.history_confirmed hconfirms]
  exact List.append_assoc _ _ _

/-- The description cannot be read. -/
theorem Opens.unreadable (h : w.peer.connecting = .ok ()) {r : Response}
    (hconfirms : w.linked.peer.Confirms 0 r) (hdescribed : w.peer.described = none)
    {request : Request} (hasked : (describing w.session.location).IsAskedBy
      (w.session.sequence + 1) request) (e : Error) :
    Opens w (.error e) (w.linked.confirmed request) := by
  have hattempts : Attempts w.peer (w.session.sequence + 1)
      (opening w.session.location (w.peer.described.elim [] tracks)) [request] := by
    rw [hdescribed]
    exact .confirmed hconfirms hasked (.nil _ _)
  refine .linked h rfl ?_ hattempts ?_ ?_ fun _ => ⟨rfl, rfl⟩
  · rw [← World.history_linked hconfirms]
    exact (List.append_nil _).symm
  · constructor
    · intro hok
      cases hok
    · rintro ⟨d, hd, -⟩
      rw [hdescribed] at hd
      cases hd
  · intro hok
    cases hok

/-- The tracks of the description are set up, and then the session is made ready. -/
theorem Opens.described (h : w.peer.connecting = .ok ()) {r : Response}
    (hconfirms : w.linked.peer.Confirms 0 r) {d : Description}
    (hdescribed : w.peer.described = some d) {request : Request}
    (hasked : (describing w.session.location).IsAskedBy (w.session.sequence + 1) request)
    {outcome : Except Error Unit} {after last : World}
    (hsets : SetsUp (w.linked.confirmed request) (tracks d) outcome after)
    (hhistory : last.history = after.history)
    (hok : outcome = .ok () →
      last.session = { after.session with description := some d, phase := .ready })
    (herror : outcome ≠ .ok () → last.session = after.session) :
    Opens w outcome last := by
  -- Streams of an earlier life of the session were dropped, so the first track has number 0.
  have hnone : (w.linked.confirmed request).session.streams.length = 0 := rfl
  obtain ⟨sequence, identifier, streams, hframe⟩ := hsets.frame
  obtain ⟨requests, hafter, hattempts⟩ := hsets.requests
  have hattempts : Attempts w.peer (w.session.sequence + 1)
      (opening w.session.location (w.peer.described.elim [] tracks)) (request :: requests) := by
    rw [hdescribed, opening_eq]
    exact .confirmed hconfirms hasked ⟨hattempts.follows, hattempts.reaches⟩
  refine .linked h ?_ ?_ hattempts ?_ ?_ ?_
  · by_cases hcase : outcome = .ok ()
    · rw [hok hcase, hframe]
      rfl
    · rw [herror hcase, hframe]
      rfl
  · rw [hhistory, hafter, World.history_linked hconfirms]
  · rw [hsets.succeeds, hnone, Nat.zero_add]
    constructor
    · rintro ⟨hroom, hall⟩
      refine ⟨d, hdescribed, hroom, ?_⟩
      intro j hj
      exact (hconfirms.forall_succ _).mpr hall j (Nat.lt_succ_of_le hj)
    · rintro ⟨d', hd', hroom, hall⟩
      cases hdescribed.symm.trans hd'
      refine ⟨hroom, (hconfirms.forall_succ _).mp ?_⟩
      intro j hj
      exact hall j (Nat.le_of_lt_succ hj)
  · intro hcase
    obtain ⟨added, hstreams, hlength, hadded⟩ := hsets.streams hcase
    have hlast : last.session.streams = added := by
      rw [hok hcase]
      exact hstreams
    refine ⟨by rw [hok hcase], by rw [hok hcase, hframe]; rfl, d, hdescribed, by rw [hok hcase], ?_⟩
    rw [hlast]
    refine ⟨hlength, ?_⟩
    intro i t ht
    obtain ⟨r', hr', hstream⟩ := hadded i t ht
    rw [hnone, Nat.zero_add] at hstream
    exact ⟨r', (w.linked.peer.confirms_next i r').mp hr', hstream⟩
  · intro hcase
    rw [herror hcase, hframe]
    exact ⟨rfl, rfl⟩

theorem describeAndSetUp_run (h : w.peer.connecting = .ok ()) : ∃ outcome after,
    (describeAndSetUp w.session.location).run.run w.linked = (outcome, after) ∧
      Opens w outcome after := by
  obtain ⟨request, hasked, ⟨r, hconfirms, hrun⟩ | ⟨hrefused, e, p, hrun⟩⟩ :=
    exchange_asks w.linked rfl (describing w.session.location)
  · have hdescribed : w.peer.described = (Description.parse (r.body.getD "")).toOption := by
      rw [Peer.described, show w.peer.reply 0 = .ok r from hconfirms.2.1]
    rw [describeAndSetUp, run_bind_ok _ hrun, run_liftM_bind]
    cases hparse : Description.parse (r.body.getD "") with
    | error e =>
      rw [hparse] at hdescribed
      exact ⟨_, _, rfl, .unreadable h hconfirms hdescribed hasked e⟩
    | ok d =>
      rw [hparse] at hdescribed
      dsimp only
      obtain ⟨outcome, after, hsetUp, hsets⟩ :=
        setUpAll_run d.media 0 (w.linked.confirmed request) rfl (Nat.zero_le _)
      cases outcome with
      | error e =>
        rw [run_bind_error _ hsetUp]
        exact ⟨_, _, rfl, .described h hconfirms hdescribed hasked hsets rfl nofun fun _ => rfl⟩
      | ok u =>
        rw [run_bind_ok _ hsetUp]
        exact ⟨_, _, rfl, .described h hconfirms hdescribed hasked hsets rfl (fun _ => rfl)
          fun hne => absurd rfl hne⟩
  · refine ⟨_, _, run_bind_error _ hrun, ?_⟩
    exact .undescribed h hrefused hasked e p

/-- Every opening ends in one of the ways of `Opens`. -/
theorem openSession_run (w : World) : ∃ outcome after,
    openSession.run.run w = (outcome, after) ∧ Opens w outcome after := by
  cases hconnecting : w.peer.connecting with
  | error e => exact ⟨_, _, openSession_unconnected hconnecting, .unlinked hconnecting _⟩
  | ok u =>
    rw [openSession_connected hconnecting]
    exact describeAndSetUp_run hconnecting

/-- Opening a closed session follows the description and ends at the first failure. -/
theorem changeState_nullToReady (w : World) (closed : w.session.phase = .closed) :
    Opens w ((changeState .nullToReady).run.run w).1 ((changeState .nullToReady).run.run w).2 := by
  obtain ⟨outcome, after, hrun, hopens⟩ := openSession_run w
  have hchange : (changeState .nullToReady).run.run w = (outcome, after) :=
    (changeState_starts (t := .nullToReady) closed).trans hrun
  rw [hchange]
  exact hopens

/-- A session with the camera at `rtsp://cam/live`. -/
def cameraSession : State :=
  { location := { host := .name "cam", port := 554, path := "/live", text := "rtsp://cam/live" } }

/-- What the camera offers: two tracks, and between them a section that is none. -/
def cameraDescription : String :=
  "v=0\nm=audio 0 RTP/AVP 96\na=control:a\nm=text 0 RTP/AVP 98\nm=video 0 RTP/AVP 26\na=control:b\n"

/-- A camera that sets up its first track only. -/
def oneTrackCamera : World :=
  { session := cameraSession
    peer := { incoming := [
      .ok (.response { code := 200, reason := "OK", body := some cameraDescription }),
      .ok (.response .success),
      .ok (.response .notFound)] } }

theorem changeState_nullToReady_oneTrackCamera : oneTrackCamera.session.phase = .closed ∧
    Opens oneTrackCamera ((changeState .nullToReady).run.run oneTrackCamera).1
      ((changeState .nullToReady).run.run oneTrackCamera).2 ∧
    ((changeState .nullToReady).run.run oneTrackCamera).1
      = .error (.protocol (.errorStatus .setup 404 "Not Found")) :=
  ⟨rfl, changeState_nullToReady oneTrackCamera rfl, by decide +kernel⟩

end MediaTransport.Session
