import MediaTransport.Proofs.Rtsp.Readable
import MediaTransport.Proofs.Rtsp.RequestHead
import MediaTransport.Proofs.Session.Pairing

/-!
# What a session writes

The requests of a session are put together from what it is given: the location, the
control texts of the descriptions that it was offered (`Names`), and the identifier in an
answer.  Whatever the answers are, the headers can be written, since a reader leaves no
newline in a value and the identifier is trimmed.  That is an invariant of the session
(`World.IsSound`), which every activity keeps while it hears readable answers only
(`keeps_exchange`, `keeps_activity`).

The URIs are written as they come.  So of every run each request reads back exactly when
its URI is plain (`requests_readBack`), and a control text with a space in it makes a
request that cannot be read (`requests_unreadable`).
-/

namespace MediaTransport.Session

open Rtsp Sdp Text

/-! ## What is written -/

/-- What a session may ask for: its location, and the streams of a description in an
answer that was offered. -/
inductive Names (offered : Response → Prop) (l : Location) : String → Prop where
  /-- The location. -/
  | location : Names offered l l.text
  /-- A stream with a control text. -/
  | stream {r : Response} {d : Description} {media : Section} {control : String}
      (hr : offered r) (hd : Description.parse (r.body.getD "") = .ok d)
      (hmedia : media ∈ d.media) (hcontrol : media.control? = some control) :
      Names offered l (l.streamUri control)

/-- What holds of the requests of a session, and of what it puts into them. -/
structure World.IsSound (offered : Response → Prop) (l : Location) (w : World) : Prop where
  /-- The session stays with its location. -/
  location : w.session.location = l
  /-- The identifier can be written. -/
  identifier : ∀ value ∈ w.session.identifier, IsField value
  /-- The requests ask for what they may ask for, and their headers can be written. -/
  requests : ∀ request ∈ w.requests,
    Names offered l request.uri ∧ ∀ h ∈ request.headers, h.IsSendable

/-- The same, while nothing but what is offered comes in. -/
structure World.Hears (offered : Response → Prop) (l : Location) (w : World) : Prop where
  /-- The session is sound. -/
  sound : w.IsSound offered l
  /-- The answers are among those that are offered. -/
  answers : ∀ r, .ok r ∈ w.answers → offered r

variable {offered : Response → Prop} {l : Location}

/-! ## Headers -/

/-- What is cut out of a line to identify a session can be the value of a header. -/
theorem isField_identifierOf {value : String} (h : '\n' ∉ value.toList) :
    IsField (identifierOf value) := by
  constructor <;> rw [identifierOf, String.toList_ofList]
  · intro hmem
    exact h ((List.takeWhile_sublist _).subset (mem_of_mem_trim hmem))
  · exact isTrimmed_trim _

theorem isField_identifier {r : Response} (hr : r.IsReadable) {identifier : String}
    (h : (r.header? "Session").map identifierOf = some identifier) : IsField identifier := by
  obtain ⟨value, hvalue, rfl⟩ := Option.map_eq_some_iff.1 h
  obtain ⟨header, hheader, rfl⟩ := Option.map_eq_some_iff.1 hvalue
  exact isField_identifierOf (hr.newline_not_mem header (List.mem_of_find?_eq_some hheader))

theorem isSendable_named {name value : String} (hname : name.toList.any isBlank = false)
    (hcolon : ':' ∉ name.toList) (hvalue : IsField value) : Header.IsSendable ⟨name, value⟩ :=
  ⟨isField_of_solid hname, hcolon, hvalue⟩

theorem solid_render {d : Delivery} (hssrc : d.ssrc = none)
    (hprofile : d.profile.toList.any isBlank = false) : d.render.toList.any isBlank = false := by
  have hchannel : ∀ n : UInt8, (toString n).toList.any isBlank = false :=
    fun n => solid_toString n.toNat
  have hunicast : (if d.unicast then ";unicast" else "").toList.any isBlank = false := by
    cases d.unicast <;> rfl
  have hopening : ";interleaved=".toList.any isBlank = false := rfl
  have hdash : "-".toList.any isBlank = false := rfl
  rw [Delivery.render, hssrc]
  simp only [String.append_empty, String.toList_append, List.any_append, hprofile, hunicast,
    hopening, hchannel, hdash, Bool.or_false]

/-- The transport header for a track has nothing in it that came from the peer. -/
theorem isSendable_transport {i : ℕ} {d : Delivery} (h : Delivery.request? i = some d) :
    Header.IsSendable ⟨"Transport", d.render⟩ := by
  rw [request?_eq] at h
  split at h
  next =>
    cases h
    have hprofile : interleavedProfile.toList.any isBlank = false := rfl
    have hsolid := solid_render (d := requested i) rfl hprofile
    exact isSendable_named rfl (by decide) (isField_of_solid hsolid)
  next => cases h

/-- The headers that a session adds to a request can be sent too. -/
theorem isSendable_request {s : State} (hs : ∀ value ∈ s.identifier, IsField value)
    {headers : List Header} (hh : ∀ h ∈ headers, h.IsSendable) (method : Method) (uri : String) :
    ∀ h ∈ (s.request method uri headers).headers, h.IsSendable := by
  have hagent : userAgent.IsSendable :=
    isSendable_named rfl (by decide) (isField_of_solid rfl)
  have hnumber : Header.IsSendable ⟨"CSeq", toString s.sequence⟩ :=
    isSendable_named rfl (by decide) (isField_toString s.sequence.toNat)
  unfold State.request
  cases hcase : s.identifier with
  | none =>
    simp only [Request.start, Request.adding, List.forall_mem_append, List.forall_mem_singleton]
    exact ⟨⟨hagent, hnumber⟩, hh⟩
  | some value =>
    have hidentifier : Header.IsSendable ⟨"Session", value⟩ :=
      isSendable_named rfl (by decide) (hs value hcase)
    simp only [Request.start, Request.adding, List.forall_mem_append, List.forall_mem_singleton]
    exact ⟨⟨⟨hagent, hnumber⟩, hidentifier⟩, hh⟩

/-! ## Activities -/

theorem keeps_update {f : State → State} (hlocation : ∀ s, (f s).location = s.location)
    (hidentifier : ∀ s : State, (∀ value ∈ s.identifier, IsField value) →
      ∀ value ∈ (f s).identifier, IsField value) :
    Keeps (World.Hears offered l) (update f) fun _ => True := by
  intro w hw
  refine ⟨⟨⟨?_, ?_, hw.sound.requests⟩, hw.answers⟩, fun _ _ => trivial⟩
  · exact (hlocation w.session).trans hw.sound.location
  · exact hidentifier w.session hw.sound.identifier

theorem keeps_enter (phase : Phase) :
    Keeps (World.Hears offered l) (enter phase) fun _ => True :=
  keeps_update (fun _ => rfl) fun _ h => h

theorem keeps_connect : Keeps (World.Hears offered l) connect fun _ => True := by
  intro w hw
  refine ⟨?_, fun _ _ => trivial⟩
  cases hconnecting : w.peer.connecting with
  | error e =>
    rw [connect_run_error hconnecting]
    exact ⟨⟨hw.sound.location, hw.sound.identifier, hw.sound.requests⟩, hw.answers⟩
  | ok u =>
    rw [connect_run_ok hconnecting]
    refine ⟨⟨hw.sound.location, hw.sound.identifier, ?_⟩, hw.answers⟩
    simpa [World.requests, Event.request?] using hw.sound.requests

/-- What is sent is among the requests, and what comes back is among the answers. -/
theorem keeps_exchange (method : Method) {uri : String} (huri : Names offered l uri)
    {headers : List Header} (hh : ∀ h ∈ headers, h.IsSendable) :
    Keeps (World.Hears offered l) (exchange method uri headers) offered := by
  intro w hw
  cases hconnected : w.session.isConnected with
  | false =>
    rw [exchange_unconnected w hconnected]
    exact ⟨hw, nofun⟩
  | true =>
    cases hsending : w.peer.sending 0 with
    | error e =>
      rw [exchange_unsent hconnected hsending]
      refine ⟨⟨⟨hw.sound.location, hw.sound.identifier, ?_⟩, hw.answers⟩, nofun⟩
      rw [requests_unsent hsending]
      exact hw.sound.requests
    | ok u =>
      rw [exchange_sent hconnected hsending]
      refine ⟨⟨⟨hw.sound.location, hw.sound.identifier, ?_⟩, ?_⟩, ?_⟩
      · rw [requests_confirmed, List.forall_mem_append, List.forall_mem_singleton, uri_request]
        exact ⟨hw.sound.requests, huri,
          isSendable_request (s := w.session.counted) hw.sound.identifier hh method uri⟩
      · intro r hr
        rw [answers_next rfl] at hr
        exact hw.answers r (List.mem_of_mem_drop hr)
      · intro r hr
        have hreply := reply_of_judge hr
        exact hw.answers r (List.mem_of_getElem? (answers_of_reply hreply))

/-- Setting up a track asks for its own address, which the description must have named. -/
theorem keeps_setUp (index : ℕ) {media : Section} (hread : ∀ r, offered r → r.IsReadable)
    (hmedia : ∀ control, media.control? = some control → Names offered l (l.streamUri control)) :
    Keeps (World.Hears offered l) (setUp index media) fun _ => True := by
  unfold setUp
  split
  next control hcontrol =>
    refine keeps_get.bind fun w hw => ?_
    simp only
    split
    next requested hrequested =>
      have huri : Names offered l (w.session.location.streamUri control) := by
        rw [hw.sound.location]
        exact hmedia control hcontrol
      have hheaders : ∀ h ∈ [Header.mk "Transport" requested.render], h.IsSendable :=
        List.forall_mem_singleton.2 (isSendable_transport hrequested)
      refine (keeps_exchange _ huri hheaders).bind fun r hr => keeps_update (fun _ => rfl) ?_
      intro s hs value hvalue
      rw [Option.mem_def, Option.orElse_eq_orElse, Option.orElse_eq_or] at hvalue
      obtain hold | ⟨-, hnew⟩ := Option.or_eq_some_iff.1 hvalue
      · exact hs value hold
      · exact isField_identifier (hread r hr) hnew
    next => exact keeps_throw _
  next => exact keeps_pure trivial

/-- Over several tracks, each has to be named. -/
theorem keeps_setUpAll (index : ℕ) {sections : List Section}
    (hread : ∀ r, offered r → r.IsReadable)
    (hsections : ∀ media ∈ sections, ∀ control, media.control? = some control →
      Names offered l (l.streamUri control)) :
    Keeps (World.Hears offered l) (setUpAll index sections) fun _ => True := by
  induction sections generalizing index with
  | nil => exact keeps_pure trivial
  | cons media rest ih =>
    obtain ⟨hmedia, hrest⟩ := List.forall_mem_cons.1 hsections
    exact (keeps_setUp index hread hmedia).bind fun _ _ => ih (index + 1) hrest

/-- Opening a session asks for its location first, and then only for what the description names. -/
theorem keeps_openSession (hread : ∀ r, offered r → r.IsReadable) :
    Keeps (World.Hears offered l) openSession fun _ => True := by
  have haccept : ∀ h ∈ [Header.mk "Accept" "application/sdp"], h.IsSendable :=
    List.forall_mem_singleton.2 (isSendable_named rfl (by decide) (isField_of_solid rfl))
  unfold openSession
  refine Keeps.bind (keeps_update (fun _ => rfl) fun _ _ => nofun) fun _ _ => ?_
  refine keeps_connect.bind fun _ _ => keeps_get.bind fun w hw => ?_
  have huri : Names offered l w.session.location.text := by
    rw [hw.sound.location]
    exact .location
  refine (keeps_exchange _ huri haccept).bind fun r hr => (keeps_liftM _).bind fun d hd => ?_
  have hsections : ∀ media ∈ d.media, ∀ control, media.control? = some control →
      Names offered l (l.streamUri control) :=
    fun media hmedia control hcontrol => .stream hr hd hmedia hcontrol
  refine (keeps_setUpAll 0 hread hsections).bind fun _ _ => ?_
  exact keeps_update (fun _ => rfl) fun _ h => h

theorem keeps_exchangeAndEnter (method : Method) (phase : Phase) :
    Keeps (World.Hears offered l) (exchangeAndEnter method l phase) fun _ => True :=
  (keeps_exchange method .location (List.forall_mem_nil _)).bind fun _ _ => keeps_enter phase

/-- Closing a session asks for its location once more. -/
theorem keeps_closeSession : Keeps (World.Hears offered l) closeSession fun _ => True := by
  have hteardown : Keeps (World.Hears offered l) (exchange .teardown l.text []) offered :=
    keeps_exchange .teardown .location (List.forall_mem_nil _)
  unfold closeSession
  refine keeps_get.bind fun w hw => (keeps_enter _).bind fun _ _ => ?_
  refine (Keeps.tryCatch ?_ fun e => ?_).bind fun _ (_ : True) =>
    keeps_update (fun _ => rfl) fun _ h => h
  · split
    next =>
      rw [hw.sound.location]
      exact hteardown.bind fun _ _ => keeps_pure trivial
    next => exact keeps_pure trivial
  · refine Keeps.bind (keeps_update (fun _ => rfl) fun _ h => h) fun _ _ => keeps_throw e

theorem keeps_activity (hread : ∀ r, offered r → r.IsReadable) (t : Transition) :
    Keeps (World.Hears offered l) (t.activity l) fun _ => True := by
  cases t with
  | nullToReady => exact keeps_openSession hread
  | readyToPaused => exact keeps_enter .paused
  | pausedToPlaying => exact keeps_exchangeAndEnter .play .playing
  | playingToPaused => exact keeps_exchangeAndEnter .pause .paused
  | pausedToReady => exact keeps_enter .ready
  | readyToNull => exact keeps_closeSession

/-! ## Runs -/

/-- A response that comes in at one of some calls. -/
def Offered (calls : List (Peer × Call)) (r : Response) : Prop :=
  ∃ call ∈ calls, .ok (.response r) ∈ call.1.incoming

/-- One call keeps a world sound, if the peer says only what was offered. -/
theorem World.IsSound.after {w : World} (hw : w.IsSound offered l)
    (hread : ∀ r, offered r → r.IsReadable) {p : Peer}
    (hp : ∀ r, .ok (.response r) ∈ p.incoming → offered r) (c : Call) :
    (w.after p c).IsSound offered l := by
  have hsound : World.IsSound offered l { w with peer := p } :=
    ⟨hw.location, hw.identifier, hw.requests⟩
  cases c with
  | change t =>
    have hhears : World.Hears offered l { w with peer := p } := by
      refine ⟨hsound, fun r hr => hp r ?_⟩
      obtain ⟨_ | _ | _, hmessage, hanswer⟩ := List.mem_filterMap.1 hr <;> cases hanswer
      exact hmessage
    rw [World.after]
    by_cases hstarts : t.StartsIn w.session.phase
    · rw [changeState_starts (w := { w with peer := p }) hstarts, hw.location]
      exact (keeps_activity hread t _ hhears).1.sound
    · rw [changeState_refused (w := { w with peer := p }) hstarts]
      exact hsound
  | receive =>
    obtain ⟨outcome, q, hrun⟩ := receivePacket_run { w with peer := p }
    rw [World.after, hrun]
    exact ⟨hw.location, hw.identifier, hw.requests⟩

/-- So does a whole run. -/
theorem World.IsSound.afterAll {w : World} (hw : w.IsSound offered l)
    (hread : ∀ r, offered r → r.IsReadable) {calls : List (Peer × Call)}
    (hcalls : ∀ r, Offered calls r → offered r) : (w.afterAll calls).IsSound offered l := by
  induction calls generalizing w with
  | nil => exact hw
  | cons call rest ih =>
    refine ih (hw.after hread (fun r hr => hcalls r ?_) call.2) fun r hr => hcalls r ?_
    · exact ⟨call, List.mem_cons_self, hr⟩
    · obtain ⟨other, hother, hmem⟩ := hr
      exact ⟨other, List.mem_cons_of_mem call hother, hmem⟩

/-- Every request of a run asks for the location or for a stream that was offered, and
reads back exactly when this name is plain. -/
theorem requests_readBack {location : String} {s : State}
    (hs : State.ofLocation location = .ok s) (calls : List (Peer × Call))
    (hread : ∀ r, Offered calls r → r.IsReadable) :
    ∀ request ∈ (World.afterAll { session := s } calls).requests,
      Names (Offered calls) s.location request.uri ∧
      (Request.read? request.render = some request ↔ IsPlain request.uri) := by
  have hnew : World.IsSound (Offered calls) s.location { session := s } := by
    rw [ofLocation_eq_ok hs]
    exact ⟨rfl, nofun, List.forall_mem_nil _⟩
  intro request hrequest
  obtain ⟨huri, hheaders⟩ := (hnew.afterAll hread fun _ h => h).requests request hrequest
  exact ⟨huri, read?_render_iff hheaders⟩

/-- A peer that answers with some bytes. -/
def Peer.ofBytes (bytes : List UInt8) : Peer where
  incoming := (takeMessages bytes.length bytes).map (·.mapError .protocol)

/-- Responses that were read from a stream have no line breaks inside. -/
theorem isReadable_of_mem_ofBytes {bytes : List UInt8} {r : Response}
    (h : .ok (.response r) ∈ (Peer.ofBytes bytes).incoming) : r.IsReadable := by
  obtain ⟨_ | message, hmessage, hr⟩ := List.mem_map.1 h <;> cases hr
  exact isReadable_of_mem_takeMessages hmessage

/-- A camera that describes one track and names the session, and then does not play. -/
def playedTrack : List (Peer × Call) := [
  (.ofBytes (Utf8.encode ("RTSP/1.0 200 OK\r\nContent-Length: 37\r\n\r\n" ++ trackDescription
    ++ "RTSP/1.0 200 OK\r\nSession: 7 ;timeout=60\r\n\r\n")), .change .nullToReady),
  ({}, .change .readyToPaused),
  (.ofBytes (Utf8.encode "RTSP/1.0 404 Not Found\r\n\r\n"), .change .pausedToPlaying)]

theorem requests_readBack_playedTrack :
    State.ofLocation "rtsp://cam/live" = .ok cameraSession ∧
    (∀ r, Offered playedTrack r → r.IsReadable) ∧
    (World.afterAll { session := cameraSession } playedTrack).requests.map (·.uri)
      = ["rtsp://cam/live", "rtsp://cam/live/a", "rtsp://cam/live"] ∧
    ∀ request ∈ (World.afterAll { session := cameraSession } playedTrack).requests,
      Names (Offered playedTrack) cameraSession.location request.uri ∧
      (Request.read? request.render = some request ↔ IsPlain request.uri) := by
  have hread : ∀ r, Offered playedTrack r → r.IsReadable := by
    rintro r ⟨call, hcall, hr⟩
    simp only [playedTrack, List.mem_cons, List.not_mem_nil, or_false] at hcall
    rcases hcall with rfl | rfl | rfl
    · exact isReadable_of_mem_ofBytes hr
    · cases hr
    · exact isReadable_of_mem_ofBytes hr
  have hnew : State.ofLocation "rtsp://cam/live" = .ok cameraSession := rfl
  exact ⟨hnew, hread, by decide +kernel, requests_readBack hnew playedTrack hread⟩

/-- A camera whose track has a space in its control text. -/
def spacedTrack : List (Peer × Call) := [
  (.ofBytes (Utf8.encode ("RTSP/1.0 200 OK\r\nContent-Length: 43\r\n\r\n"
    ++ "v=0\nm=audio 0 RTP/AVP 96\na=control:track 1\n" ++ "RTSP/1.0 200 OK\r\n\r\n")),
    .change .nullToReady)]

/-- The request for this track is no request. -/
theorem requests_unreadable :
    State.ofLocation "rtsp://cam/live" = .ok cameraSession ∧
    (∀ r, Offered spacedTrack r → r.IsReadable) ∧
    ∃ request ∈ (World.afterAll { session := cameraSession } spacedTrack).requests,
      request.uri = "rtsp://cam/live/track 1" ∧ Request.read? request.render = none := by
  refine ⟨rfl, ?_, by decide +kernel⟩
  rintro r ⟨call, hcall, hr⟩
  obtain rfl := List.mem_singleton.1 hcall
  exact isReadable_of_mem_ofBytes hr

end MediaTransport.Session
