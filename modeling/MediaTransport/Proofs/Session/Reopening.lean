import Mathlib.Data.List.Forall2
import MediaTransport.Proofs.Session.Congruence
import MediaTransport.Proofs.Session.Record

/-!
# Reopening a session

A closed session keeps the streams, the description and the identifier of its last
connection.  Until it is opened again they are not used, since every other call is refused;
and the first thing that its opening does is to drop them.  So it goes on like a new session,
under higher numbers.

That is a relation between two runs that meet the same peers.  Two sessions are *alike* when
they differ in the number of the last request only, by the same amount all the time (`Alike`).
No activity can tell them apart (`isCongruence_alike`).  An opening makes two closed sessions
alike, since they are once they are cleared.
-/

namespace MediaTransport.Session

open Rtsp

variable {c : UInt32}

/-! ## Shifted numbers -/

/-- The session with its number shifted. -/
def State.shifted (c : UInt32) (s : State) : State :=
  { s with sequence := s.sequence + c }

/-- The first request is the second one under a number that is shifted. -/
def Renumbered (c : UInt32) (request request' : Request) : Prop :=
  ∃ method uri n headers,
    request = ⟨method, uri, userAgent :: ⟨"CSeq", toString (n + c)⟩ :: headers⟩ ∧
    request' = ⟨method, uri, userAgent :: ⟨"CSeq", toString n⟩ :: headers⟩

/-- The same happens, but perhaps to a request under a number that is shifted. -/
inductive Event.Renumbered (c : UInt32) : Event → Event → Prop where
  | connected : Event.Renumbered c .connected .connected
  | sent {request request' : Request} (h : Session.Renumbered c request request') :
      Event.Renumbered c (.sent request) (.sent request')
  | unsent {request request' : Request} (h : Session.Renumbered c request request') :
      Event.Renumbered c (.unsent request) (.unsent request')

/-- Counting goes on alike from any number. -/
theorem counted_shifted (s : State) : (s.shifted c).counted = s.counted.shifted c := by
  have hsequence : s.sequence + c + 1 = s.sequence + 1 + c := by
    rw [UInt32.add_assoc, UInt32.add_assoc, UInt32.add_comm c]
  rw [State.counted, State.shifted, hsequence]
  rfl

/-- Requests of the two sessions differ in their numbers only. -/
theorem renumbered_request (s : State) (method : Method) (uri : String) (headers : List Header) :
    Renumbered c ((s.shifted c).request method uri headers) (s.request method uri headers) := by
  rw [request_eq, request_eq]
  exact ⟨method, uri, s.sequence, _, rfl, rfl⟩

theorem renumbered_event (p : Peer) {request request' : Request}
    (h : Renumbered c request request') :
    Event.Renumbered c (p.event 0 request) (p.event 0 request') := by
  unfold Peer.event
  cases p.sending 0 with
  | ok u => exact .sent h
  | error e => exact .unsent h

/-! ## Two runs -/

/-- Two sessions that differ in the number of the last request only, meet the same peer, and
have done the same on the network since their histories were `past` and `past'`. -/
structure Alike (c : UInt32) (past past' : List Event) (w w' : World) : Prop where
  session : w.session = w'.session.shifted c
  peer : w.peer = w'.peer
  history : ∃ events events', w.history = past ++ events ∧ w'.history = past' ++ events' ∧
    List.Forall₂ (Event.Renumbered c) events events'

section

variable {past past' : List Event} {w w' : World}

/-- Sessions that are alike are in the same phase. -/
theorem Alike.phase (h : Alike c past past' w w') : w.session.phase = w'.session.phase := by
  rw [h.session]
  rfl

theorem Alike.isConnected (h : Alike c past past' w w') :
    w.session.isConnected = w'.session.isConnected := by
  rw [h.session]
  rfl

/-- They stay alike when each notes its own request. -/
theorem Alike.note (h : Alike c past past' w w') {e e' : Event} (he : Event.Renumbered c e e') :
    ∃ events events', w.history ++ [e] = past ++ events ∧ w'.history ++ [e'] = past' ++ events' ∧
      List.Forall₂ (Event.Renumbered c) events events' := by
  obtain ⟨events, events', hhistory, hhistory', hevents⟩ := h.history
  refine ⟨events ++ [e], events' ++ [e'], ?_, ?_, List.rel_append hevents (.cons he .nil)⟩
  · rw [hhistory, List.append_assoc]
  · rw [hhistory', List.append_assoc]

theorem agrees_connect (h : Alike c past past' w w') :
    Agrees (Alike c past past') connect connect w w' := by
  unfold Agrees
  cases hconnecting : w'.peer.connecting with
  | error e =>
    have hconnecting' : w.peer.connecting = .error e := by rw [h.peer, hconnecting]
    rw [connect_run_error hconnecting, connect_run_error hconnecting']
    refine ⟨rfl, h.session, ?_, h.history⟩
    rw [h.peer]
  | ok u =>
    have hconnecting' : w.peer.connecting = .ok () := by rw [h.peer, hconnecting]
    rw [connect_run_ok hconnecting, connect_run_ok hconnecting']
    refine ⟨rfl, ?_, ?_, h.note .connected⟩
    · rw [h.session]
      rfl
    · rw [h.peer]

theorem agrees_send (h : Alike c past past' w w') {request request' : Request}
    (hrequest : Renumbered c request request') :
    Agrees (Alike c past past') (send request) (send request') w w' := by
  unfold Agrees
  rw [send_run, send_run, h.peer]
  exact ⟨rfl, h.session, rfl, h.note (renumbered_event _ hrequest)⟩

theorem agrees_awaitResponse (h : Alike c past past' w w') :
    Agrees (Alike c past past') awaitResponse awaitResponse w w' := by
  unfold Agrees
  rw [awaitResponse_run, awaitResponse_run, h.peer]
  exact ⟨rfl, h.session, rfl, h.history⟩

/-- The requests of both sessions differ in their numbers, and the answers do not differ. -/
theorem agrees_exchange (h : Alike c past past' w w') (method : Method) (uri : String)
    (headers : List Header) : Agrees (Alike c past past') (exchange method uri headers)
      (exchange method uri headers) w w' := by
  cases hconnected : w'.session.isConnected with
  | false =>
    rw [Agrees, exchange_unconnected w' hconnected,
      exchange_unconnected w (h.isConnected.trans hconnected)]
    exact ⟨rfl, h⟩
  | true =>
    rw [Agrees, exchange_connected w' hconnected,
      exchange_connected w (h.isConnected.trans hconnected)]
    have hcounted : w.session.counted = w'.session.counted.shifted c := by
      rw [h.session, counted_shifted]
    have hrequest : Renumbered c (w.session.counted.request method uri headers)
        (w'.session.counted.request method uri headers) := by
      rw [hcounted]
      exact renumbered_request _ _ _ _
    have halike : Alike c past past' { w with session := w.session.counted }
        { w' with session := w'.session.counted } := ⟨hcounted, h.peer, h.history⟩
    refine (agrees_send halike hrequest).bind fun _ _ _ h => ?_
    refine (agrees_awaitResponse h).bind fun response _ _ h => ?_
    cases response.isSuccess with
    | true => exact agrees_pure h response
    | false => exact agrees_throw h _

theorem Alike.update (h : Alike c past past' w w') {f : State → State} (hf : IgnoresNumber f) :
    Alike c past past' { w with session := f w.session } { w' with session := f w'.session } := by
  refine ⟨?_, h.peer, h.history⟩
  change f w.session = (f w'.session).shifted c
  rw [h.session, State.shifted, State.shifted, hf, hf.sequence]

/-- No activity can tell two sessions apart that are alike. -/
theorem isCongruence_alike : IsCongruence (Alike c past past') where
  session h := ⟨_, h.session⟩
  update h hf := h.update hf
  agrees_connect h := agrees_connect h
  agrees_exchange method uri headers h := agrees_exchange h method uri headers

theorem agrees_receivePacket (h : Alike c past past' w w') :
    Agrees (Alike c past past') receivePacket receivePacket w w' := by
  unfold receivePacket
  refine agrees_get_bind ?_
  rw [h.phase, h.isConnected, h.peer]
  by_cases hrefused : w'.session.phase ≠ .playing ∨ (!w'.session.isConnected) = true
  · simp only [if_pos hrefused]
    exact ⟨rfl, h⟩
  · simp only [if_neg hrefused]
    exact ⟨rfl, h.session, rfl, h.history⟩

end

/-! ## Runs -/

/-- A call is the same in two sessions, but for the numbers of its requests. -/
structure Visit.Matches (c : UInt32) (v v' : Visit) : Prop where
  /-- It is the same call. -/
  call : v.call = v'.call
  /-- It finds the sessions in the same phase. -/
  phase : v.phase = v'.phase
  /-- It returns the same. -/
  result : v.result = v'.result
  /-- It does the same on the network. -/
  events : List.Forall₂ (Event.Renumbered c) v.events v'.events
  /-- It leaves the sessions in the same phase. -/
  after : v.after.phase = v'.after.phase

/-- Some calls go in one session as they do in another one. -/
structure GoesLike (c : UInt32) (w w' : World) (calls : List (Peer × Call)) : Prop where
  /-- The calls match one by one. -/
  visits : List.Forall₂ (Visit.Matches c) (w.visits calls) (w'.visits calls)
  /-- From the first opening on both are the same session, but for the numbers. -/
  sessions : ∀ first rest, calls = first ++ rest →
    (∃ call ∈ first, call.2 = .change .nullToReady) →
    (w.afterAll first).session = (w'.afterAll first).session.shifted c

section

variable {w w' : World}

theorem Alike.visit {p : Peer} {call : Call} (hphase : w.session.phase = w'.session.phase)
    (hresult : w.result p call = w'.result p call)
    (h : Alike c w.history w'.history (w.after p call) (w'.after p call)) :
    Visit.Matches c (w.visit p call) (w'.visit p call) := by
  obtain ⟨events, events', hhistory, hhistory', hevents⟩ := h.history
  refine ⟨rfl, hphase, hresult, ?_, ?_⟩
  · rw [visit_events hhistory, visit_events hhistory']
    exact hevents
  · exact h.phase

/-- Two sessions have done nothing yet when a call finds them. -/
theorem Alike.start {s s' : State} (h : s = s'.shifted c) (past past' : List Event) (p : Peer) :
    Alike c past past' ⟨s, p, past⟩ ⟨s', p, past'⟩ :=
  ⟨h, rfl, [], [], (List.append_nil _).symm, (List.append_nil _).symm, .nil⟩

/-- A call matches in two sessions that are alike, and they stay alike. -/
theorem visit_alike (h : w.session = w'.session.shifted c) (p : Peer) (call : Call) :
    Visit.Matches c (w.visit p call) (w'.visit p call) ∧
      (w.after p call).session = (w'.after p call).session.shifted c := by
  have hstart := Alike.start h w.history w'.history p
  have hphase := hstart.phase
  cases call with
  | change t =>
    obtain ⟨houtcome, halike⟩ := isCongruence_alike.agrees_changeState hstart t
    exact ⟨halike.visit hphase (congrArg (Except.map fun _ => none) houtcome), halike.session⟩
  | receive =>
    obtain ⟨houtcome, halike⟩ := agrees_receivePacket hstart
    exact ⟨halike.visit hphase (congrArg (Except.map some) houtcome), halike.session⟩

theorem visits_alike (h : w.session = w'.session.shifted c) (calls : List (Peer × Call)) :
    List.Forall₂ (Visit.Matches c) (w.visits calls) (w'.visits calls) ∧
      (w.afterAll calls).session = (w'.afterAll calls).session.shifted c := by
  induction calls generalizing w w' with
  | nil => exact ⟨.nil, h⟩
  | cons call rest ih =>
    obtain ⟨hmatches, hafter⟩ := visit_alike h call.1 call.2
    obtain ⟨hvisits, hsession⟩ := ih hafter
    exact ⟨.cons hmatches hvisits, hsession⟩

/-! ## Closed sessions -/

/-- Two closed sessions that differ in the number of the last request, and in what an opening
drops. -/
structure Dormant (c : UInt32) (w w' : World) : Prop where
  closed : w.session.phase = .closed
  closed' : w'.session.phase = .closed
  cleared : w.session.cleared = w'.session.cleared.shifted c

/-- A closed session refuses every call but an opening. -/
theorem refused_of_closed {call : Call} (hcall : call ≠ .change .nullToReady) :
    ∃ e, ∀ (w : World) (p : Peer), w.session.phase = .closed →
      w.result p call = .error e ∧ w.after p call = { w with peer := p } := by
  cases call with
  | change t =>
    refine ⟨.invalidTransition .closed t, fun w p hclosed => ?_⟩
    have hrefused : ¬t.StartsIn w.session.phase := by
      rw [hclosed]
      exact fun hstarts => hcall (congrArg Call.change (eq_nullToReady_of_startsIn_closed hstarts))
    have hrun := changeState_refused (w := { w with peer := p }) hrefused
    rw [hclosed] at hrun
    rw [World.result, World.after, hrun]
    exact ⟨rfl, rfl⟩
  | receive =>
    refine ⟨.notActive, fun w p hclosed => ?_⟩
    have hidle : w.session.phase ≠ .playing := by
      rw [hclosed]
      decide
    rw [World.result, World.after, receivePacket_refused (w := { w with peer := p }) (.inl hidle)]
    exact ⟨rfl, rfl⟩

theorem Dormant.opened (h : Dormant c w w') (p : Peer) :
    Visit.Matches c (w.visit p (.change .nullToReady)) (w'.visit p (.change .nullToReady)) ∧
      (w.after p (.change .nullToReady)).session
        = (w'.after p (.change .nullToReady)).session.shifted c := by
  have hagrees : Agrees (Alike c w.history w'.history) openSession openSession
      { w with peer := p } { w' with peer := p } :=
    isCongruence_alike.agrees_openSession (Alike.start h.cleared w.history w'.history p)
  obtain ⟨houtcome, halike⟩ := hagrees
  have hopen := changeState_starts (w := { w with peer := p }) (t := .nullToReady) h.closed
  have hopen' := changeState_starts (w := { w' with peer := p }) (t := .nullToReady) h.closed'
  have hafter : w.after p (.change .nullToReady) = (openSession.run.run { w with peer := p }).2 :=
    congrArg Prod.snd hopen
  have hafter' : w'.after p (.change .nullToReady)
      = (openSession.run.run { w' with peer := p }).2 := congrArg Prod.snd hopen'
  rw [← hafter, ← hafter'] at halike
  have hresult : w.result p (.change .nullToReady) = w'.result p (.change .nullToReady) := by
    rw [World.result, World.result, hopen, hopen']
    exact congrArg (Except.map fun _ => none) houtcome
  exact ⟨halike.visit (h.closed.trans h.closed'.symm) hresult, halike.session⟩

/-- Any other call leaves both as they are. -/
theorem Dormant.refused (h : Dormant c w w') (p : Peer) {call : Call}
    (hcall : call ≠ .change .nullToReady) :
    Visit.Matches c (w.visit p call) (w'.visit p call) ∧
      Dormant c (w.after p call) (w'.after p call) := by
  obtain ⟨e, hrefused⟩ := refused_of_closed hcall
  obtain ⟨hresult, hafter⟩ := hrefused w p h.closed
  obtain ⟨hresult', hafter'⟩ := hrefused w' p h.closed'
  have hsilent : (w.visit p call).events = [] := visit_events (by rw [hafter, List.append_nil])
  have hsilent' : (w'.visit p call).events = [] :=
    visit_events (by rw [hafter', List.append_nil])
  constructor
  · refine ⟨rfl, h.closed.trans h.closed'.symm, hresult.trans hresult'.symm, ?_, ?_⟩
    · rw [hsilent, hsilent']
      exact .nil
    · change (w.after p call).session.phase = (w'.after p call).session.phase
      rw [hafter, hafter']
      exact h.closed.trans h.closed'.symm
  · rw [hafter, hafter']
    exact ⟨h.closed, h.closed', h.cleared⟩

/-- A closed session that is opened again goes like a new one, whatever calls follow. -/
theorem Dormant.goesLike (h : Dormant c w w') (calls : List (Peer × Call)) :
    GoesLike c w w' calls := by
  induction calls generalizing w w' with
  | nil =>
    refine ⟨.nil, fun first rest hsplit ⟨_, hmem, _⟩ => ?_⟩
    obtain ⟨rfl, -⟩ := List.append_eq_nil_iff.1 hsplit.symm
    cases hmem
  | cons call calls ih =>
    obtain ⟨p, k⟩ := call
    -- From the opening on the sessions are alike; up to it both stay as they are.
    by_cases hopening : k = .change .nullToReady
    · obtain rfl := hopening
      obtain ⟨hmatches, hsession⟩ := h.opened p
      refine ⟨.cons hmatches (visits_alike hsession calls).1, ?_⟩
      rintro (_ | ⟨call, first⟩) rest hsplit ⟨_, hmem, _⟩
      · cases hmem
      · obtain ⟨rfl, -⟩ := List.cons_eq_cons.1 hsplit
        exact (visits_alike hsession first).2
    · obtain ⟨hmatches, hdormant⟩ := h.refused p hopening
      refine ⟨.cons hmatches (ih hdormant).visits, ?_⟩
      rintro (_ | ⟨call, first⟩) rest hsplit ⟨opening, hmem, hopened⟩
      · cases hmem
      · obtain ⟨rfl, hlater⟩ := List.cons_eq_cons.1 hsplit
        obtain rfl | hfirst := List.mem_cons.1 hmem
        · exact absurd hopened hopening
        · exact (ih hdormant).sessions first rest hlater ⟨opening, hfirst, hopened⟩

end

/-! ## Reopening -/

/-- The location of a session stays. -/
def SameLocation (w w' : World) : Prop :=
  w'.session.location = w.session.location

theorem SameLocation.trans {w w₁ w₂ : World} (h : SameLocation w w₁) (h' : SameLocation w₁ w₂) :
    SameLocation w w₂ :=
  Eq.trans h' h

section

variable {w : World}

theorem sameLocation_exchange (method : Method) (uri : String) (headers : List Header) :
    Leads SameLocation (exchange method uri headers) w := by
  unfold Leads
  cases hconnected : w.session.isConnected with
  | false =>
    rw [exchange_unconnected w hconnected]
    rfl
  | true =>
    obtain ⟨r, -, hrun⟩ | ⟨-, e, p, hrun⟩ := exchange_run w hconnected method uri headers <;>
      rw [hrun] <;> rfl

theorem sameLocation_exchangeAndEnter (method : Method) (l : Location) (phase : Phase) :
    Leads SameLocation (exchangeAndEnter method l phase) w :=
  (sameLocation_exchange method l.text []).bind .trans fun _ _ => rfl

theorem sameLocation_closeSession : Leads SameLocation closeSession w := by
  unfold closeSession
  refine leads_get_bind (Leads.bind .trans rfl fun _ _ => ?_)
  refine Leads.bind .trans (Leads.tryCatch .trans ?_ fun _ _ => rfl) fun _ _ => rfl
  split
  next => exact (sameLocation_exchange _ _ _).bind .trans fun _ _ => rfl
  next => rfl

/-- No transition changes the location of a session. -/
theorem sameLocation_changeState (t : Transition) : Leads SameLocation (changeState t) w := by
  unfold Leads
  by_cases hstarts : t.StartsIn w.session.phase
  · rw [changeState_starts hstarts]
    cases t with
    | nullToReady =>
      obtain ⟨outcome, after, hrun, hopens⟩ := openSession_run w
      rw [Transition.activity, hrun]
      exact hopens.location
    | readyToPaused => rfl
    | pausedToPlaying => exact sameLocation_exchangeAndEnter .play _ .playing
    | playingToPaused => exact sameLocation_exchangeAndEnter .pause _ .paused
    | pausedToReady => rfl
    | readyToNull => exact sameLocation_closeSession
  · rw [changeState_refused hstarts]
    rfl

theorem sameLocation_afterAll (calls : List (Peer × Call)) : SameLocation w (w.afterAll calls) := by
  induction calls generalizing w with
  | nil => rfl
  | cons call rest ih =>
    have hnow : SameLocation w (w.after call.1 call.2) := by
      cases call.2 with
      | change t => exact sameLocation_changeState t
      | receive =>
        obtain ⟨outcome, q, hrun⟩ := receivePacket_run { w with peer := call.1 }
        rw [World.after, hrun]
        rfl
    exact hnow.trans ih

end

/-- A session that is closed, whatever has become of it before, goes on like a new session for
its location, with its requests numbered on. -/
theorem reopened_goesLike {location : String} {s : State} (hs : State.ofLocation location = .ok s)
    (past : List (Peer × Call))
    (hclosed : (World.afterAll { session := s } past).session.phase = .closed)
    (calls : List (Peer × Call)) :
    GoesLike (World.afterAll { session := s } past).session.sequence
      (World.afterAll { session := s } past) { session := s } calls := by
  have hnew : Reachable { session := s } := .new {} hs
  have hlocation : (World.afterAll { session := s } past).session.location = s.location :=
    sameLocation_afterAll past
  have hconnected : (World.afterAll { session := s } past).session.isConnected = false :=
    (hnew.afterAll past).isCoherent.disconnected (.inl hclosed)
  have hphase : s.phase = .closed := by rw [ofLocation_eq_ok hs]
  have hcleared : s.cleared = { location := s.location, phase := .describing } := by
    rw [ofLocation_eq_ok hs]
    rfl
  refine Dormant.goesLike ⟨hclosed, hphase, ?_⟩ calls
  rw [hcleared, State.cleared, hlocation, hconnected, State.shifted, UInt32.zero_add]

/-- The life of a session that had a name and was closed without an answer. -/
def closedCalls : List (Peer × Call) := [
  (.answering [{ Response.success with body := some trackDescription },
      { Response.success with headers := [⟨"Session", "7;timeout=60"⟩] }],
    .change .nullToReady),
  ({}, .change .readyToNull),
  ({}, .change .readyToNull)]

/-- It is opened in vain, closed, opened and prepared. -/
def reopeningCalls : List (Peer × Call) := [
  ({}, .receive),
  ({ connects := [some connectionClosed] }, .change .nullToReady),
  ({}, .change .readyToNull),
  (.answering [{ Response.success with body := some trackDescription }, .success],
    .change .nullToReady),
  (.answering [.success], .change .readyToNull)]

theorem reopened_goesLike_named :
    State.ofLocation "rtsp://cam/live" = .ok cameraSession ∧
    (World.afterAll { session := cameraSession } closedCalls).session.phase = .closed ∧
    (World.afterAll { session := cameraSession } closedCalls).session.identifier = some "7" ∧
    ((World.visits (World.afterAll { session := cameraSession } closedCalls) reopeningCalls).map
        fun v => (v.succeeds, (sentIn v.events).map fun request =>
          (request.method, request.sequence?, request.header? "Session")))
      = [(false, []), (false, []), (true, []),
        (true, [(.describe, some "4", none), (.setup, some "5", none)]),
        (true, [(.teardown, some "6", none)])] ∧
    GoesLike (World.afterAll { session := cameraSession } closedCalls).session.sequence
      (World.afterAll { session := cameraSession } closedCalls) { session := cameraSession }
      reopeningCalls := by
  have hnew : State.ofLocation "rtsp://cam/live" = .ok cameraSession := rfl
  have hclosed : (World.afterAll { session := cameraSession } closedCalls).session.phase
      = .closed := by decide +kernel
  exact ⟨hnew, hclosed, by decide +kernel, by decide +kernel,
    reopened_goesLike hnew closedCalls hclosed reopeningCalls⟩

end MediaTransport.Session
