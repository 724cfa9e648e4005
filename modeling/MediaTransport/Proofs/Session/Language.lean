import Mathlib.Computability.Language
import Mathlib.Order.CompletePartialOrder
import MediaTransport.Proofs.Session.Record

/-!
# The language of a connection

The methods of the requests that are sent on one connection form a word of a regular
language (`openedWords`, `unopenedWords`).  Its automaton is the phase of the session: what
a visit asks for and where it leads is decided by the phase in which it finds the session
(`visit_moves`).

Three things are carried along a connection.  While streams are set up, the word goes on
with plays and pauses, of which the first is a play (`Delivering`).  Media is delivered only
behind a play that was confirmed and has not been taken back (`IsPlaying`).  Once the
session has been ended, nothing more is asked for (`quiet_visits`).
-/

namespace MediaTransport.Session

open Rtsp Sdp
open scoped Computability

/-! ## Words -/

/-- The word of one method. -/
def word (m : Method) : Language Method :=
  {[m]}

/-- One request of a method or more. -/
def repeated (m : Method) : Language Method :=
  word m * (word m)∗

/-- Starting and suspending delivery in turns. -/
def deliveries : Language Method :=
  (repeated .play * repeated .pause)∗ * (word .play)∗

/-- What is sent on a connection on which a session with `k` tracks was set up. -/
def openedWords (k : ℕ) : Language Method :=
  word .describe * word .setup ^ k * deliveries * (1 + word .teardown)

/-- What is sent on a connection on which no session could be set up. -/
def unopenedWords : Language Method :=
  1 + word .describe * (word .setup)∗

theorem mem_word (m : Method) : [m] ∈ word m :=
  rfl

theorem replicate_mem_pow (m : Method) (k : ℕ) : List.replicate k m ∈ word m ^ k := by
  induction k with
  | zero => exact Language.nil_mem_one
  | succ k ih =>
    rw [pow_succ']
    exact Language.append_mem_mul (mem_word m) ih

theorem nil_mem_deliveries : [] ∈ deliveries :=
  Language.append_mem_mul (Language.nil_mem_kstar _) (Language.nil_mem_kstar _)

/-- After any deliveries the server may be asked to play again. -/
theorem deliveries_mul_play_le : deliveries * word .play ≤ deliveries := by
  rw [deliveries, mul_assoc]
  exact mul_le_mul_right kstar_mul_le_kstar _

/-- The words of deliveries that start with a play. -/
def startedDeliveries : Language Method :=
  (repeated .play * repeated .pause)∗ * (repeated .play * repeated .pause)
    + (repeated .play * repeated .pause)∗ * repeated .play

theorem deliveries_eq : deliveries = 1 + startedDeliveries := by
  have hplays : (word .play)∗ = 1 + repeated .play := one_add_mul_kstar.symm
  rw [deliveries, hplays, mul_add, mul_one, startedDeliveries, ← add_assoc, one_add_kstar_mul]

theorem repeated_mul_le (m : Method) : repeated m * word m ≤ repeated m := by
  rw [repeated, mul_assoc]
  exact mul_le_mul_right kstar_mul_le_kstar _

theorem word_le_repeated (m : Method) : word m ≤ repeated m :=
  le_mul_of_one_le_right' one_le_kstar

/-- A pause fits behind deliveries that were started. -/
theorem startedDeliveries_mul_pause_le : startedDeliveries * word .pause ≤ deliveries := by
  have hround : (repeated .play * repeated .pause)∗ * (repeated .play * repeated .pause)
      ≤ deliveries :=
    kstar_mul_le_kstar.trans (le_mul_of_one_le_right' one_le_kstar)
  rw [startedDeliveries, add_mul]
  refine add_le ?_ ?_ <;> refine le_trans ?_ hround <;> rw [mul_assoc]
  · rw [mul_assoc]
    exact mul_le_mul_right (mul_le_mul_right (repeated_mul_le .pause) _) _
  · exact mul_le_mul_right (mul_le_mul_right (word_le_repeated .pause) _) _

theorem concat_play_mem {methods : List Method} (h : methods ∈ deliveries) :
    methods ++ [.play] ∈ deliveries :=
  deliveries_mul_play_le (Language.append_mem_mul h (mem_word .play))

/-- A pause may follow as soon as there has been a play. -/
theorem concat_pause_mem {methods : List Method} (h : methods ∈ deliveries) (hne : methods ≠ []) :
    methods ++ [.pause] ∈ deliveries := by
  rw [deliveries_eq] at h
  obtain hnil | hstarted := h
  · exact absurd hnil hne
  · exact startedDeliveries_mul_pause_le (Language.append_mem_mul hstarted (mem_word .pause))

/-! ## Openings -/

/-- The methods of the requests that were sent. -/
def methodsSent (as : List Attempt) : List Method :=
  (as.filter (·.isSent)).map (·.request.method)

/-- The methods of a history are those of its parts. -/
theorem methodsSent_append (first rest : List Attempt) :
    methodsSent (first ++ rest) = methodsSent first ++ methodsSent rest := by
  rw [methodsSent, List.filter_append, List.map_append]
  rfl

theorem methodsSent_attempted (events : List Event) (answers : List (Except Error Response)) :
    methodsSent (attempted events answers) = (sentIn events).map (·.method) := by
  rw [← request_attempted events answers, List.map_map]
  rfl

theorem Ask.IsAskedBy.method {a : Ask} {n : UInt32} {request : Request}
    (h : a.IsAskedBy n request) : request.method = a.method := by
  obtain ⟨identifier, rfl⟩ := h
  rfl

section

variable {p : Peer} {n : UInt32} {l : Location} {ts : List Track} {requests : List Request}

/-- Every request is noted as one that was made. -/
theorem asked_mapIdx_event (p : Peer) (requests : List Request) :
    (requests.mapIdx p.event).filterMap Event.asked? = requests := by
  have hasked (request : Request) (j : ℕ) : (p.event j request).asked? = some request := by
    unfold Peer.event
    cases p.sending j <;> rfl
  rw [List.mapIdx_eq_zipIdx_map, List.filterMap_map]
  simp [hasked]

/-- An opening asks for the description and then for tracks. -/
theorem Attempts.methods (h : Attempts p n (opening l ts) requests) :
    ∃ k, requests.map (·.method) = .describe :: List.replicate k .setup := by
  cases requests with
  | nil =>
    have hfirst : 0 < ([] : List Request).length := (h.reaches 0).2 ⟨Nat.zero_lt_succ _, nofun⟩
    exact absurd hfirst (Nat.lt_irrefl 0)
  | cons first rest =>
    obtain ⟨a, ha, hasked⟩ := h.follows 0 first rfl
    cases ha
    have hrest : ∀ m ∈ rest.map (·.method), m = .setup := by
      rw [List.forall_mem_map]
      intro request hmem
      obtain ⟨j, hj⟩ := List.mem_iff_getElem?.1 hmem
      obtain ⟨a, ha, hasked⟩ := h.follows (j + 1) request hj
      obtain ⟨-, t, rfl⟩ := opening_succ ha
      exact hasked.method
    refine ⟨(rest.map (·.method)).length, ?_⟩
    rw [List.map_cons, hasked.method, ← List.eq_replicate_of_mem hrest]
    rfl

/-- All requests of an opening are sent but perhaps the last one. -/
theorem Attempts.sent (h : Attempts p n (opening l ts) requests) :
    sentIn (requests.mapIdx p.event) = requests ∨
      sentIn (requests.mapIdx p.event) = requests.dropLast := by
  rcases List.eq_nil_or_concat' requests with rfl | ⟨front, last, rfl⟩
  · exact .inl rfl
  · have hfront : front.mapIdx p.event = front.map .sent := by
      refine Peer.mapIdx_event ?_
      exact ((h.reaches front.length).1 (by simp)).2
    have hsent : sentIn (front.map .sent) = front := by
      rw [sentIn, List.filterMap_map]
      exact List.filterMap_some
    rw [List.mapIdx_append, hfront, List.dropLast_concat, sentIn, List.filterMap_append]
    change sentIn (front.map .sent) ++ _ = _ ∨ sentIn (front.map .sent) ++ _ = _
    rw [hsent]
    cases hsending : p.sending front.length with
    | ok u =>
      left
      simp [Peer.event, hsending, Event.request?]
    | error e =>
      right
      simp [Peer.event, hsending, Event.request?]

/-- An opening that breaks off has asked for the description, and then for some tracks. -/
theorem replicate_mem_unopenedWords (k : ℕ) :
    .describe :: List.replicate k .setup ∈ unopenedWords := by
  have hsetups : word .setup ^ k ≤ (word .setup)∗ := pow_le_kstar
  exact .inr (Language.append_mem_mul (mem_word .describe) (hsetups (replicate_mem_pow .setup k)))

theorem Attempts.sent_mem (h : Attempts p n (opening l ts) requests) :
    (sentIn (requests.mapIdx p.event)).map (·.method) ∈ unopenedWords := by
  obtain ⟨k, hmethods⟩ := h.methods
  obtain hall | hfront := h.sent
  · rw [hall, hmethods]
    exact replicate_mem_unopenedWords k
  · rw [hfront, List.map_dropLast, hmethods]
    cases k with
    | zero => exact .inl rfl
    | succ k =>
      rw [List.replicate_succ', ← List.cons_append, List.dropLast_concat]
      exact replicate_mem_unopenedWords k

end

/-! ## Visits -/

variable {w w' : World} {p : Peer} {c : Call} {as : List Attempt}

/-- A part of a visit that opens no connection makes some attempts. -/
def Makes (w : World) (as : List Attempt) (w' : World) : Prop :=
  ∃ events, w'.history = w.history ++ events ∧ .connected ∉ events ∧ attempted events w.answers = as

theorem Makes.silent (h : w'.history = w.history) : Makes w [] w' :=
  ⟨[], by rw [h, List.append_nil], List.not_mem_nil, rfl⟩

/-- One attempt is made, and the phase changes just when it is confirmed. -/
theorem exchangeAndEnter_makes (h : w.session.isConnected = true) (m : Method) (l : Location)
    (phase : Phase) : ∃ a, a.request.method = m ∧
      Makes w [a] ((exchangeAndEnter m l phase).run.run w).2 ∧
      ((exchangeAndEnter m l phase).run.run w).2.session.phase
        = if a.isConfirmed then phase else w.session.phase := by
  obtain ⟨outcome, w', event, a, hrun, hsession, hadds, hne, hattempted, hrequest, hconfirmed, -⟩ :=
    exchange_attempt w h m l.text []
  have hmakes : Makes w [a] w' := ⟨[event], hadds.history, by simpa using hne.symm, hattempted⟩
  refine ⟨a, hrequest ▸ method_request _ m l.text [], ?_⟩
  unfold exchangeAndEnter
  rw [hconfirmed]
  cases outcome with
  | error e =>
    rw [run_bind_error _ hrun]
    refine ⟨hmakes, ?_⟩
    rw [hsession]
    rfl
  | ok r =>
    rw [run_bind_ok _ hrun]
    exact ⟨hmakes, rfl⟩

/-- Closing a session that is established attempts one teardown. -/
theorem closeSession_makes (h : (w.session.phase.isEstablished && w.session.isConnected) = true) :
    ∃ a, a.request.method = .teardown ∧ Makes w [a] (closeSession.run.run w).2 ∧
      (closeSession.run.run w).2.session.phase
        = if a.isConfirmed then .closed else .tearingDown := by
  have hconnected : w.session.isConnected = true := (Bool.and_eq_true_iff.mp h).2
  obtain ⟨outcome, w', event, a, hrun, hsession, hadds, hne, hattempted, hrequest, hconfirmed, -⟩ :=
    exchange_attempt { w with session := { w.session with phase := .tearingDown } } hconnected
      .teardown w.session.location.text []
  have hmakes : Makes w [a] w' := ⟨[event], hadds.history, by simpa using hne.symm, hattempted⟩
  refine ⟨a, hrequest ▸ method_request _ _ _ [], ?_⟩
  rw [closeSession_established h, hconfirmed]
  cases outcome with
  | error e =>
    rw [run_bind_error _ (run_tryCatch_error dropConnection (run_bind_error _ hrun))]
    exact ⟨hmakes, congrArg State.phase hsession⟩
  | ok r =>
    rw [run_bind_ok _ (run_tryCatch_ok dropConnection (run_bind_ok (fun _ => pure ()) hrun))]
    exact ⟨hmakes, rfl⟩

/-- What a visit may ask for that opens no connection, and where it leads.  The phase in
which it finds the session decides. -/
inductive Moves : Phase → Call → List Attempt → Phase → Prop where
  | received {phase : Phase} : Moves phase .receive [] phase
  | refused {phase : Phase} {t : Transition} (hrefused : ¬t.StartsIn phase) :
      Moves phase (.change t) [] phase
  | unconnected : Moves .closed (.change .nullToReady) [] .describing
  | prepared : Moves .ready (.change .readyToPaused) [] .paused
  | released : Moves .paused (.change .pausedToReady) [] .ready
  | started {a : Attempt} (ha : a.request.method = .play) :
      Moves .paused (.change .pausedToPlaying) [a] (if a.isConfirmed then .playing else .paused)
  | suspended {a : Attempt} (ha : a.request.method = .pause) :
      Moves .playing (.change .playingToPaused) [a] (if a.isConfirmed then .paused else .playing)
  | ended {phase : Phase} {a : Attempt} (hphase : phase.isEstablished = true)
      (ha : a.request.method = .teardown) :
      Moves phase (.change .readyToNull) [a] (if a.isConfirmed then .closed else .tearingDown)
  | dropped {phase : Phase} (hphase : phase = .describing ∨ phase = .tearingDown) :
      Moves phase (.change .readyToNull) [] .closed

theorem isEstablished_iff (phase : Phase) :
    phase.isEstablished = true ↔ phase = .ready ∨ phase = .paused ∨ phase = .playing := by
  cases phase <;> decide

/-- There are three phases without an established session. -/
theorem not_established {phase : Phase} (h : phase.isEstablished = false) :
    phase = .closed ∨ phase = .describing ∨ phase = .tearingDown := by
  cases phase with
  | closed => exact .inl rfl
  | describing => exact .inr (.inl rfl)
  | tearingDown => exact .inr (.inr rfl)
  | ready | playing | paused => cases h

/-- A step moves the session in its phase, unless it opens a connection. -/
theorem activity_moves (hw : w.session.IsCoherent) {t : Transition}
    (hstarts : t.StartsIn w.session.phase)
    (hclosed : t = .nullToReady → w.peer.connecting ≠ .ok ()) :
    ∃ as, Makes w as ((t.activity w.session.location).run.run w).2 ∧
      Moves w.session.phase (.change t) as
        ((t.activity w.session.location).run.run w).2.session.phase := by
  cases t with
  | nullToReady =>
    have hphase : w.session.phase = .closed := hstarts
    cases hconnecting : w.peer.connecting with
    | ok u => exact absurd hconnecting (hclosed rfl)
    | error e =>
      rw [Transition.activity, openSession_unconnected hconnecting, hphase]
      exact ⟨[], .silent rfl, .unconnected⟩
  | readyToPaused =>
    have hphase : w.session.phase = .ready := hstarts
    rw [hphase]
    exact ⟨[], .silent rfl, .prepared⟩
  | pausedToPlaying =>
    have hphase : w.session.phase = .paused := hstarts
    have hconnected := (hw.established (.inr (.inl hphase))).1
    obtain ⟨a, ha, hmakes, hafter⟩ :=
      exchangeAndEnter_makes hconnected .play w.session.location .playing
    refine ⟨[a], hmakes, ?_⟩
    rw [Transition.activity, hafter, hphase]
    exact .started ha
  | playingToPaused =>
    have hphase : w.session.phase = .playing := hstarts
    have hconnected := (hw.established (.inr (.inr hphase))).1
    obtain ⟨a, ha, hmakes, hafter⟩ :=
      exchangeAndEnter_makes hconnected .pause w.session.location .paused
    refine ⟨[a], hmakes, ?_⟩
    rw [Transition.activity, hafter, hphase]
    exact .suspended ha
  | pausedToReady =>
    have hphase : w.session.phase = .paused := hstarts
    rw [hphase]
    exact ⟨[], .silent rfl, .released⟩
  | readyToNull =>
    cases hestablished : w.session.phase.isEstablished with
    | true =>
      have hconnected := (hw.established ((isEstablished_iff _).1 hestablished)).1
      obtain ⟨a, ha, hmakes, hafter⟩ :=
        closeSession_makes (Bool.and_eq_true_iff.2 ⟨hestablished, hconnected⟩)
      refine ⟨[a], hmakes, ?_⟩
      rw [Transition.activity, hafter]
      exact .ended hestablished ha
    | false =>
      have hsilent : (w.session.phase.isEstablished && w.session.isConnected) = false := by
        rw [hestablished]
        rfl
      rw [Transition.activity, closeSession_silent hsilent]
      exact ⟨[], .silent rfl, .dropped ((not_established hestablished).resolve_left hstarts)⟩

theorem visit_makes (h : Makes { w with peer := p } as (w.after p c)) :
    (w.visit p c).connects = false ∧ (w.visit p c).attempts = as := by
  obtain ⟨events, hhistory, hnot, hattempted⟩ := h
  have hevents : (w.visit p c).events = events := visit_events hhistory
  rw [Visit.connects, Visit.attempts, hevents]
  exact ⟨by simpa using hnot, hattempted⟩

/-- A visit opens a connection, or moves the session in its phase. -/
theorem visit_moves (hw : w.session.IsCoherent) (p : Peer) (c : Call) :
    (w.session.phase = .closed ∧ c = .change .nullToReady ∧ p.connecting = .ok ()) ∨
    ((w.visit p c).connects = false ∧
      Moves w.session.phase c (w.visit p c).attempts (w.after p c).session.phase) := by
  by_cases hopens : w.session.phase = .closed ∧ c = .change .nullToReady ∧ p.connecting = .ok ()
  · exact .inl hopens
  · obtain ⟨as, hmakes, hmoves⟩ : ∃ as, Makes { w with peer := p } as (w.after p c) ∧
        Moves w.session.phase c as (w.after p c).session.phase := by
      cases c with
      | receive =>
        obtain ⟨outcome, q, hrun⟩ := receivePacket_run { w with peer := p }
        rw [World.after, hrun]
        exact ⟨[], .silent rfl, .received⟩
      | change t =>
        rw [World.after]
        by_cases hstarts : t.StartsIn w.session.phase
        · rw [changeState_starts (w := { w with peer := p }) hstarts]
          refine activity_moves (w := { w with peer := p }) hw hstarts ?_
          rintro rfl hconnecting
          exact hopens ⟨hstarts, rfl, hconnecting⟩
        · rw [changeState_refused (w := { w with peer := p }) hstarts]
          exact ⟨[], .silent rfl, .refused hstarts⟩
    obtain ⟨hconnects, hattempts⟩ := visit_makes hmakes
    exact .inr ⟨hconnects, hattempts ▸ hmoves⟩

/-- What is asked for on the connection that a visit opens.  The opening asks for nothing but
the description and tracks, and all of it is sent when it succeeds. -/
theorem visit_opens (hphase : w.session.phase = .closed) (hconnecting : p.connecting = .ok ()) :
    (w.visit p (.change .nullToReady)).connects = true ∧
    (∀ a ∈ (w.visit p (.change .nullToReady)).attempts,
      a.request.method = .describe ∨ a.request.method = .setup) ∧
    ((w.visit p (.change .nullToReady)).succeeds = true →
      (w.visit p (.change .nullToReady)).after.phase = .ready ∧
      ∃ d, (w.visit p (.change .nullToReady)).after.description = some d ∧
        methodsSent (w.visit p (.change .nullToReady)).attempts
          = .describe :: List.replicate (tracks d).length .setup) ∧
    ((w.visit p (.change .nullToReady)).succeeds = false →
      (w.visit p (.change .nullToReady)).after.phase = .describing ∧
      methodsSent (w.visit p (.change .nullToReady)).attempts ∈ unopenedWords) := by
  have hopens := changeState_nullToReady { w with peer := p } hphase
  obtain ⟨requests, hhistory, hattempts, -, -, hall⟩ := hopens.requests hconnecting
  have hevents : (w.visit p (.change .nullToReady)).events
      = .connected :: requests.mapIdx p.event := visit_events hhistory
  have hsent : methodsSent (w.visit p (.change .nullToReady)).attempts
      = (sentIn (requests.mapIdx p.event)).map (·.method) := by
    rw [Visit.attempts, methodsSent_attempted, hevents]
    rfl
  have hsucceeds : (w.visit p (.change .nullToReady)).succeeds
      = ((changeState .nullToReady).run.run { w with peer := p }).1.isOk := by
    rw [Visit.succeeds, World.visit, World.result]
    cases ((changeState .nullToReady).run.run { w with peer := p }).1 <;> rfl
  obtain ⟨k, hmethods⟩ := hattempts.methods
  rw [hsucceeds, hsent]
  refine ⟨?_, ?_, ?_, ?_⟩
  · rw [Visit.connects, hevents]
    rfl
  · intro a ha
    rw [Visit.attempts, hevents] at ha
    have hrequest : a.request ∈ requests := by
      have hmem := List.mem_map_of_mem (f := Attempt.request) ha
      rw [map_request_attempted, List.filterMap_cons_none rfl, asked_mapIdx_event] at hmem
      exact hmem
    have hmethod : a.request.method ∈ requests.map (·.method) := List.mem_map_of_mem hrequest
    rw [hmethods] at hmethod
    exact (List.mem_cons.1 hmethod).imp_right List.eq_of_mem_replicate
  · intro hok
    have houtcome : ((changeState .nullToReady).run.run { w with peer := p }).1 = .ok () := by
      revert hok
      cases ((changeState .nullToReady).run.run { w with peer := p }).1 with
      | ok u =>
        intro _
        rfl
      | error e =>
        intro herror
        cases herror
    obtain ⟨hafter, -, d, hdescribed, hdescription, -⟩ := hopens.ready houtcome
    obtain ⟨hmapIdx, hlength⟩ := hall houtcome
    refine ⟨hafter, d, hdescription, ?_⟩
    have hk : k = (tracks d).length := by
      rw [hdescribed] at hlength
      have hcount := congrArg List.length hmethods
      simp only [List.length_map, List.length_cons, List.length_replicate] at hcount
      exact Nat.succ.inj (hcount.symm.trans hlength)
    have hrequests : sentIn (requests.map .sent) = requests := by
      rw [sentIn, List.filterMap_map]
      exact List.filterMap_some
    rw [hmapIdx, hrequests, hmethods, hk]
  · intro hok
    have houtcome : ((changeState .nullToReady).run.run { w with peer := p }).1 ≠ .ok () := by
      intro heq
      rw [heq] at hok
      cases hok
    exact ⟨(hopens.failed houtcome).1, hattempts.sent_mem⟩

/-! ## Connections -/

/-- Delivery was started by a play that was confirmed, and no pause was confirmed since. -/
def IsPlaying (as : List Attempt) : Prop :=
  ∃ earlier a later, as = earlier ++ a :: later ∧ a.request.method = .play ∧
    a.isConfirmed = true ∧ ∀ b ∈ later, b.request.method = .pause → b.isConfirmed = false

/-- What a connection is used for. -/
structure IsConnection (words : Language Method) (as : List Attempt) : Prop where
  /-- What is sent is a word of the language. -/
  words : methodsSent as ∈ words
  /-- Nothing comes after an attempt to end the session. -/
  last : ∀ i a, as[i]? = some a → a.request.method = .teardown → i + 1 = as.length
  /-- Only delivery that was started and goes on is suspended. -/
  pauses : ∀ i a, as[i]? = some a → a.request.method = .pause → IsPlaying (as.take i)

/-- What has been asked for on a connection, while a session with `k` tracks is set up. -/
structure Delivering (k : ℕ) (phase : Phase) (as : List Attempt) : Prop where
  /-- The session is set up. -/
  established : phase.isEstablished = true
  /-- What is sent is an opening and then deliveries. -/
  words : ∃ methods ∈ deliveries, methodsSent as = .describe :: List.replicate k .setup ++ methods ∧
    (phase = .playing → methods ≠ [])
  /-- The session has not been ended. -/
  unended : ∀ a ∈ as, a.request.method ≠ .teardown
  /-- Media is delivered behind a play that was confirmed. -/
  playing : phase = .playing → IsPlaying as
  /-- Only delivery that was started and goes on is suspended. -/
  pauses : ∀ i a, as[i]? = some a → a.request.method = .pause → IsPlaying (as.take i)

theorem IsPlaying.concat {b : Attempt} (h : IsPlaying as)
    (hb : b.request.method = .pause → b.isConfirmed = false) : IsPlaying (as ++ [b]) := by
  obtain ⟨earlier, a, later, rfl, hmethod, hconfirmed, hlater⟩ := h
  refine ⟨earlier, a, later ++ [b], by simp, hmethod, hconfirmed, ?_⟩
  rw [List.forall_mem_append, List.forall_mem_singleton]
  exact ⟨hlater, hb⟩

/-- A property of the attempts and of what is before each goes on to one attempt more. -/
theorem forall_getElem?_concat {P : List Attempt → Attempt → Prop} {b : Attempt}
    (h : ∀ i a, as[i]? = some a → P (as.take i) a) (hb : P as b) :
    ∀ i a, (as ++ [b])[i]? = some a → P ((as ++ [b]).take i) a := by
  intro i a ha
  rcases Nat.lt_or_ge i as.length with hlt | hge
  · rw [List.getElem?_append_left hlt] at ha
    rw [List.take_append_of_le_length (Nat.le_of_lt hlt)]
    exact h i a ha
  · rw [List.getElem?_append_right hge] at ha
    obtain ⟨hi, rfl⟩ : i - as.length = 0 ∧ b = a := by simpa [List.getElem?_singleton] using ha
    obtain rfl : i = as.length := by omega
    rw [List.take_left]
    exact hb

theorem methodsSent_single (a : Attempt) :
    methodsSent [a] = if a.isSent then [a.request.method] else [] := by
  cases h : a.isSent <;> simp [methodsSent, h]

namespace Delivering

variable {k : ℕ} {phase : Phase} {a : Attempt}

/-- While nothing is delivered, a session that is set up may be prepared or not. -/
theorem move {after : Phase} (h : Delivering k phase as) (hafter : after = .ready ∨ after = .paused) :
    Delivering k after as := by
  obtain ⟨methods, hmethods, hsent, -⟩ := h.words
  have hne : after ≠ .playing := by rcases hafter with rfl | rfl <;> decide
  have hestablished : after.isEstablished = true := by rcases hafter with rfl | rfl <;> rfl
  exact ⟨hestablished, ⟨methods, hmethods, hsent, fun heq => absurd heq hne⟩, h.unended,
    fun heq => absurd heq hne, h.pauses⟩

/-- A session plays only because the last request to play was confirmed. -/
theorem isConfirmed_of_eq_playing
    (h : (if a.isConfirmed then .playing else .paused) = Phase.playing) :
    a.isConfirmed = true := by
  cases hconfirmed : a.isConfirmed with
  | true => rfl
  | false => rw [hconfirmed, if_neg Bool.false_ne_true] at h; cases h

/-- A request to play can follow while the session is paused, whether it is confirmed or not. -/
theorem play (h : Delivering k .paused as) (ha : a.request.method = .play) :
    Delivering k (if a.isConfirmed then .playing else .paused) (as ++ [a]) where
  established := by cases a.isConfirmed <;> rfl
  words := by
    obtain ⟨methods, hmethods, hsent, -⟩ := h.words
    refine ⟨methods ++ methodsSent [a], ?_, ?_, ?_⟩
    · rw [methodsSent_single, ha]
      split
      next => exact concat_play_mem hmethods
      next => rwa [List.append_nil]
    · rw [methodsSent_append, hsent, List.append_assoc]
    · intro hplaying
      have hconfirmed : a.isConfirmed = true := isConfirmed_of_eq_playing hplaying
      rw [methodsSent_single, if_pos (a.isSent_of_isConfirmed hconfirmed)]
      simp
  unended := by
    rw [List.forall_mem_append, List.forall_mem_singleton, ha]
    exact ⟨h.unended, nofun⟩
  playing hplaying :=
    ⟨as, a, [], rfl, ha, isConfirmed_of_eq_playing hplaying, List.forall_mem_nil _⟩
  pauses := by
    refine forall_getElem?_concat (P := fun front a => a.request.method = .pause → IsPlaying front)
      h.pauses fun hpause => ?_
    rw [ha] at hpause
    cases hpause

/-- A request to pause can follow while it plays. -/
theorem pause (h : Delivering k .playing as) (ha : a.request.method = .pause) :
    Delivering k (if a.isConfirmed then .paused else .playing) (as ++ [a]) where
  established := by cases a.isConfirmed <;> rfl
  words := by
    obtain ⟨methods, hmethods, hsent, hne⟩ := h.words
    refine ⟨methods ++ methodsSent [a], ?_, ?_, ?_⟩
    · rw [methodsSent_single, ha]
      split
      next => exact concat_pause_mem hmethods (hne rfl)
      next => rwa [List.append_nil]
    · rw [methodsSent_append, hsent, List.append_assoc]
    · intro _
      exact List.append_ne_nil_of_left_ne_nil (hne rfl) _
  unended := by
    rw [List.forall_mem_append, List.forall_mem_singleton, ha]
    exact ⟨h.unended, nofun⟩
  playing := by
    intro hplaying
    refine (h.playing rfl).concat fun _ => ?_
    cases hconfirmed : a.isConfirmed with
    | false => rfl
    | true => rw [hconfirmed, if_pos rfl] at hplaying; cases hplaying
  pauses :=
    forall_getElem?_concat (P := fun front a => a.request.method = .pause → IsPlaying front)
      h.pauses fun _ => h.playing rfl

/-- What a delivering session has sent is in the language. -/
theorem words_mem (h : Delivering k phase as) :
    methodsSent as ∈ word .describe * word .setup ^ k * deliveries := by
  obtain ⟨methods, hmethods, hsent, -⟩ := h.words
  rw [hsent]
  have hopening : .describe :: List.replicate k .setup ∈ word .describe * word .setup ^ k :=
    Language.append_mem_mul (mem_word .describe) (replicate_mem_pow .setup k)
  exact Language.append_mem_mul hopening hmethods

theorem isConnection (h : Delivering k phase as) : IsConnection (openedWords k) as where
  words := by
    have hnothing : [] ∈ 1 + word .teardown := .inl rfl
    have hword := Language.append_mem_mul h.words_mem hnothing
    rwa [List.append_nil] at hword
  last i a ha hteardown := absurd hteardown (h.unended a (List.mem_of_getElem? ha))
  pauses := h.pauses

/-- An attempt to end the session is the last one. -/
theorem ended (h : Delivering k phase as) (ha : a.request.method = .teardown) :
    IsConnection (openedWords k) (as ++ [a]) where
  words := by
    rw [methodsSent_append, methodsSent_single, ha]
    refine Language.append_mem_mul h.words_mem ?_
    split
    next => exact .inr (mem_word .teardown)
    next => exact .inl rfl
  last i b hb hteardown := by
    rcases Nat.lt_or_ge i as.length with hlt | hge
    · rw [List.getElem?_append_left hlt] at hb
      exact absurd hteardown (h.unended b (List.mem_of_getElem? hb))
    · obtain ⟨hlt, -⟩ := List.getElem?_eq_some_iff.1 hb
      rw [List.length_append, List.length_singleton] at hlt ⊢
      omega
  pauses := by
    refine forall_getElem?_concat (P := fun front a => a.request.method = .pause → IsPlaying front)
      h.pauses fun hpause => ?_
    rw [ha] at hpause
    cases hpause

end Delivering

/-! ## Runs -/

/-- Without an established session nothing is sent but by opening one. -/
theorem Moves.quiet {phase after : Phase} (h : Moves phase c as after)
    (hphase : phase.isEstablished = false) : as = [] ∧ after.isEstablished = false := by
  cases h with
  | received | refused => exact ⟨rfl, hphase⟩
  | unconnected | dropped => exact ⟨rfl, rfl⟩
  | prepared | released | started | suspended => cases hphase
  | ended hestablished => rw [hphase] at hestablished; cases hestablished

theorem visit_quiet (hw : w.session.IsCoherent) (hphase : w.session.phase.isEstablished = false)
    (hconnects : (w.visit p c).connects = false) :
    (w.visit p c).attempts = [] ∧ (w.after p c).session.phase.isEstablished = false := by
  obtain ⟨hclosed, rfl, hconnecting⟩ | ⟨-, hmoves⟩ := visit_moves hw p c
  · rw [(visit_opens hclosed hconnecting).1] at hconnects
    cases hconnects
  · exact hmoves.quiet hphase

/-- Where no session is set up, nothing is asked for until the next connection. -/
theorem visits_quiet {calls : List (Peer × Call)} (hw : w.session.IsCoherent)
    (hphase : w.session.phase.isEstablished = false)
    (hconnects : ∀ v ∈ w.visits calls, v.connects = false) :
    (w.visits calls).flatMap Visit.attempts = [] := by
  induction calls generalizing w with
  | nil => rfl
  | cons call rest ih =>
    obtain ⟨hnow, hlater⟩ := List.forall_mem_cons.1 hconnects
    obtain ⟨hattempts, hafter⟩ := visit_quiet hw hphase hnow
    rw [World.visits, List.flatMap_cons, hattempts]
    exact ih (after_isCoherent hw call.1 call.2) hafter hlater

/-- A session that is set up stays so, or is ended with its connection. -/
theorem Moves.delivering {k : ℕ} {phase after : Phase} {now : List Attempt}
    (hmoves : Moves phase c now after) (h : Delivering k phase as) :
    Delivering k after (as ++ now) ∨
      (after.isEstablished = false ∧ IsConnection (openedWords k) (as ++ now)) := by
  have hestablished := h.established
  cases hmoves with
  | received | refused =>
    rw [List.append_nil]
    exact .inl h
  | unconnected => cases hestablished
  | prepared =>
    rw [List.append_nil]
    exact .inl (h.move (.inr rfl))
  | released =>
    rw [List.append_nil]
    exact .inl (h.move (.inl rfl))
  | started ha => exact .inl (h.play ha)
  | suspended ha => exact .inl (h.pause ha)
  | @ended _ a _ ha =>
    refine .inr ⟨?_, h.ended ha⟩
    cases a.isConfirmed <;> rfl
  | dropped hphase => rcases hphase with rfl | rfl <;> cases hestablished

/-- A session that is set up uses its connection as it should, to the end. -/
theorem Delivering.visits {k : ℕ} {calls : List (Peer × Call)} (hw : w.session.IsCoherent)
    (h : Delivering k w.session.phase as) (hconnects : ∀ v ∈ w.visits calls, v.connects = false) :
    IsConnection (openedWords k) (as ++ (w.visits calls).flatMap Visit.attempts) := by
  induction calls generalizing w as with
  | nil =>
    rw [World.visits, List.flatMap_nil, List.append_nil]
    exact h.isConnection
  | cons call rest ih =>
    obtain ⟨p, c⟩ := call
    obtain ⟨-, hlater⟩ := List.forall_mem_cons.1 hconnects
    have hcoherent := after_isCoherent hw p c
    rw [World.visits, List.flatMap_cons, ← List.append_assoc]
    obtain ⟨hclosed, -⟩ | ⟨-, hmoves⟩ := visit_moves hw p c
    · have hestablished := h.established
      rw [hclosed] at hestablished
      cases hestablished
    · obtain hdelivering | ⟨hended, hconnection⟩ := hmoves.delivering h
      · exact ih hcoherent hdelivering hlater
      · rw [visits_quiet hcoherent hended hlater, List.append_nil]
        exact hconnection

/-- The visits from the one that opens a connection up to the next such one. -/
theorem isConnection_visits {calls : List (Peer × Call)} (hw : w.session.IsCoherent)
    (hopens : (w.visit p c).connects = true)
    (hconnects : ∀ v ∈ (w.after p c).visits calls, v.connects = false) :
    ((w.visit p c).succeeds = true → ∃ d, (w.visit p c).after.description = some d ∧
      IsConnection (openedWords (tracks d).length)
        ((w.visit p c).attempts ++ ((w.after p c).visits calls).flatMap Visit.attempts)) ∧
    ((w.visit p c).succeeds = false → IsConnection unopenedWords
      ((w.visit p c).attempts ++ ((w.after p c).visits calls).flatMap Visit.attempts)) := by
  have hcoherent := after_isCoherent hw p c
  obtain ⟨hclosed, rfl, hconnecting⟩ | ⟨hnot, -⟩ := visit_moves hw p c
  · obtain ⟨-, hmethods, hok, herror⟩ := visit_opens hclosed hconnecting
    have hneither (m : Method) (hm : m ≠ .describe ∧ m ≠ .setup) (a : Attempt)
        (ha : a ∈ (w.visit p (.change .nullToReady)).attempts) : a.request.method ≠ m := by
      rintro rfl
      exact (hmethods a ha).elim hm.1 hm.2
    have hunended := hneither .teardown (by decide)
    have hunpaused := hneither .pause (by decide)
    constructor
    · intro hsucceeds
      obtain ⟨hphase, d, hdescription, hsent⟩ := hok hsucceeds
      refine ⟨d, hdescription, Delivering.visits hcoherent ?_ hconnects⟩
      have hready : (w.after p (.change .nullToReady)).session.phase = .ready := hphase
      rw [hready]
      exact {
        established := rfl
        words := ⟨[], nil_mem_deliveries, by rw [hsent, List.append_nil], nofun⟩
        unended := hunended
        playing := nofun
        pauses := fun i a ha hpause => absurd hpause (hunpaused a (List.mem_of_getElem? ha)) }
    · intro hfails
      obtain ⟨hphase, hwords⟩ := herror hfails
      have hdescribing : (w.after p (.change .nullToReady)).session.phase = .describing := hphase
      have hquiet := visits_quiet hcoherent (by rw [hdescribing]; rfl) hconnects
      rw [hquiet, List.append_nil]
      exact {
        words := hwords
        last := fun i a ha hteardown => absurd hteardown (hunended a (List.mem_of_getElem? ha))
        pauses := fun i a ha hpause => absurd hpause (hunpaused a (List.mem_of_getElem? ha)) }
  · rw [hopens] at hnot
    cases hnot

theorem Moves.teardown_iff {phase after : Phase} (h : Moves phase c as after) :
    (∃ a ∈ as, a.request.method = .teardown) ↔
      c = .change .readyToNull ∧ phase.isEstablished = true := by
  cases h with
  | received | unconnected | prepared | released =>
    constructor
    · rintro ⟨a, ⟨⟩, -⟩
    · rintro ⟨⟨⟩, -⟩
  | refused hrefused =>
    constructor
    · rintro ⟨a, ⟨⟩, -⟩
    · rintro ⟨⟨⟩, hestablished⟩
      refine absurd ?_ hrefused
      rintro rfl
      cases hestablished
  | started ha | suspended ha =>
    constructor
    · rintro ⟨b, hb, hteardown⟩
      rw [List.mem_singleton.1 hb, ha] at hteardown
      cases hteardown
    · rintro ⟨⟨⟩, -⟩
  | ended hphase ha => exact ⟨fun _ => ⟨rfl, hphase⟩, fun _ => ⟨_, List.mem_singleton_self _, ha⟩⟩
  | dropped hphase =>
    constructor
    · rintro ⟨a, ⟨⟩, -⟩
    · rintro ⟨-, hestablished⟩
      rcases hphase with rfl | rfl <;> cases hestablished

/-- The server is asked to end a session when one that is set up is to be ended. -/
theorem visit_teardown_iff (hw : w.session.IsCoherent) (p : Peer) (c : Call) :
    (∃ a ∈ (w.visit p c).attempts, a.request.method = .teardown) ↔
      c = .change .readyToNull ∧ w.session.phase.isEstablished = true := by
  obtain ⟨hclosed, rfl, hconnecting⟩ | ⟨-, hmoves⟩ := visit_moves hw p c
  · obtain ⟨-, hmethods, -⟩ := visit_opens hclosed hconnecting
    constructor
    · rintro ⟨a, ha, hteardown⟩
      have hmethod := hmethods a ha
      rw [hteardown] at hmethod
      exact absurd hmethod (by decide)
    · rintro ⟨⟨⟩, -⟩
  · exact hmoves.teardown_iff

/-- What some visits ask for is in order. -/
structure RequestsInOrder (log : List Visit) : Prop where
  /-- What is sent on a connection is a word of the language that is given by whether its
  opening succeeds, and by the number of tracks. -/
  connections : ∀ before v during after, log = before ++ v :: (during ++ after) →
    v.connects = true → (∀ u ∈ during, u.connects = false) →
    (v.succeeds = true → ∃ d, v.after.description = some d ∧
      IsConnection (openedWords (tracks d).length) (v.attempts ++ during.flatMap Visit.attempts)) ∧
    (v.succeeds = false →
      IsConnection unopenedWords (v.attempts ++ during.flatMap Visit.attempts))
  /-- Nothing is asked for before the first connection. -/
  unconnected : ∀ before after, log = before ++ after → (∀ u ∈ before, u.connects = false) →
    before.flatMap Visit.attempts = []
  /-- The server is asked to end a session exactly when one that is set up is to be ended. -/
  teardown : ∀ v ∈ log, (∃ a ∈ v.attempts, a.request.method = .teardown) ↔
    v.call = .change .readyToNull ∧ (v.phase = .ready ∨ v.phase = .paused ∨ v.phase = .playing)

theorem visits_requestsInOrder {location : String} {s : State}
    (hs : State.ofLocation location = .ok s) (calls : List (Peer × Call)) :
    RequestsInOrder (World.visits { session := s } calls) := by
  have hnew : Reachable { session := s } := .new {} hs
  constructor
  · intro before v during after hsplit hopens hconnects
    obtain ⟨first, rest, -, -, hrest⟩ := exists_of_visits_eq_append hsplit
    cases rest with
    | nil => cases hrest
    | cons call rest =>
      obtain ⟨rfl, hlater⟩ := List.cons_eq_cons.1 hrest
      obtain ⟨duringCalls, -, -, rfl, -⟩ := exists_of_visits_eq_append hlater
      exact isConnection_visits (hnew.afterAll first).isCoherent hopens hconnects
  · intro before after hsplit hconnects
    obtain ⟨first, -, -, rfl, -⟩ := exists_of_visits_eq_append hsplit
    have hphase : s.phase.isEstablished = false := by
      rw [ofLocation_eq_ok hs]
      rfl
    exact visits_quiet hnew.isCoherent hphase hconnects
  · intro v hv
    obtain ⟨first, p, c, rfl⟩ := exists_of_mem_visits hv
    rw [visit_teardown_iff (hnew.afterAll first).isCoherent, isEstablished_iff]
    rfl

/-- A session that is refused at first, is played twice on its second connection, and is
ended there without an answer.  One play is refused and one pause is not sent. -/
def replayedCalls : List (Peer × Call) := [
  (.answering [.notFound], .change .nullToReady),
  ({}, .change .readyToNull),
  (.answering [{ Response.success with body := some cameraDescription }, .success, .success],
    .change .nullToReady),
  ({}, .change .readyToPaused),
  (.answering [.notFound], .change .pausedToPlaying),
  (.answering [.success], .change .pausedToPlaying),
  ({ sends := [some connectionClosed] }, .change .playingToPaused),
  (.answering [.success], .change .playingToPaused),
  (.answering [.success], .change .pausedToPlaying),
  ({}, .change .readyToNull),
  ({}, .change .readyToNull)]

theorem visits_requestsInOrder_replayed :
    State.ofLocation "rtsp://cam/live" = .ok cameraSession ∧
    ((World.visits { session := cameraSession } replayedCalls).map fun v =>
        (v.connects, v.succeeds, methodsSent v.attempts))
      = [(true, false, [.describe]), (false, true, []),
        (true, true, [.describe, .setup, .setup]), (false, true, []), (false, false, [.play]),
        (false, true, [.play]), (false, false, []), (false, true, [.pause]), (false, true, [.play]),
        (false, false, [.teardown]), (false, true, [])] ∧
    RequestsInOrder (World.visits { session := cameraSession } replayedCalls) := by
  have hnew : State.ofLocation "rtsp://cam/live" = .ok cameraSession := rfl
  exact ⟨hnew, by decide +kernel, visits_requestsInOrder hnew replayedCalls⟩

end MediaTransport.Session
