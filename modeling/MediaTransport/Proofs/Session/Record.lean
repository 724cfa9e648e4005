import MediaTransport.Proofs.Session.Pairing

/-!
# The record of a session

What is seen of a session from outside is a list of *visits*, one for each call: the phase
in which the call found the session, what it returned, what was done on the network in it,
and the session that it left (`World.visits`).

A request that reaches the connection is an *attempt*.  It is sent or not, and if it is
sent, an answer is taken for its own.  The answers are taken in turn, so the attempts of a
visit are read off its events and the answers that come in during it (`attempted`).  An
exchange makes one attempt, and succeeds when that is confirmed (`exchange_attempt`).
-/

namespace MediaTransport.Session

open Rtsp

/-! ## Attempts -/

/-- A request that has reached the connection, with what was taken for its answer if it was
sent. -/
structure Attempt where
  request : Request
  answer : Option (Except Error Response)

/-- Whether the request was sent. -/
def Attempt.isSent (a : Attempt) : Bool :=
  a.answer.isSome

/-- Whether the request was answered by a success. -/
def Attempt.isConfirmed (a : Attempt) : Bool :=
  match a.answer with
  | some (.ok r) => r.isSuccess
  | _ => false

/-- The attempts among some events.  Each request that was sent takes the next one of the
answers that come in. -/
def attempted : List Event → List (Except Error Response) → List Attempt
  | [], _ => []
  | .connected :: rest, answers => attempted rest answers
  | .unsent request :: rest, answers => ⟨request, none⟩ :: attempted rest answers
  | .sent request :: rest, answers =>
    ⟨request, some (answers.headD (.error connectionClosed))⟩ :: attempted rest answers.tail

/-- The requests among some events that were sent. -/
def sentIn (events : List Event) : List Request :=
  events.filterMap Event.request?

/-- The answers that later requests get are those behind the ones already given. -/
theorem attempted_append (first rest : List Event) (answers : List (Except Error Response)) :
    attempted (first ++ rest) answers
      = attempted first answers ++ attempted rest (answers.drop (sentIn first).length) := by
  induction first generalizing answers with
  | nil => rfl
  | cons e first ih =>
    cases e with
    | connected => exact ih answers
    | unsent request => exact congrArg (_ :: ·) (ih answers)
    | sent request =>
      have hdrop : answers.drop (sentIn (.sent request :: first)).length
          = answers.tail.drop (sentIn first).length := by
        rw [← List.drop_one, List.drop_drop, Nat.add_comm]
        rfl
      rw [hdrop]
      exact congrArg (_ :: ·) (ih answers.tail)

/-- The requests that were sent are found among the attempts, in order. -/
theorem request_attempted (events : List Event) (answers : List (Except Error Response)) :
    ((attempted events answers).filter (·.isSent)).map (·.request) = sentIn events := by
  induction events generalizing answers with
  | nil => rfl
  | cons e events ih =>
    cases e with
    | connected => exact ih answers
    | unsent request => exact ih answers
    | sent request => exact congrArg (request :: ·) (ih answers.tail)

/-- The request of an event, sent or not. -/
def Event.asked? : Event → Option Request
  | .connected => none
  | .sent request => some request
  | .unsent request => some request

theorem map_request_attempted (events : List Event) (answers : List (Except Error Response)) :
    (attempted events answers).map (·.request) = events.filterMap Event.asked? := by
  induction events generalizing answers with
  | nil => rfl
  | cons e events ih =>
    cases e with
    | connected => exact ih answers
    | unsent request => exact congrArg (request :: ·) (ih answers)
    | sent request => exact congrArg (request :: ·) (ih answers.tail)

/-- Only what was sent can be confirmed. -/
theorem Attempt.isSent_of_isConfirmed {a : Attempt} (h : a.isConfirmed = true) :
    a.isSent = true := by
  unfold isConfirmed at h
  split at h
  next r hanswer => rw [isSent, hanswer, Option.isSome_some]
  next => cases h

/-! ## Exchanges -/

/-- What was done on the network between two worlds.  Each request that was sent has used up
one answer. -/
structure Adds (w : World) (events : List Event) (w' : World) : Prop where
  history : w'.history = w.history ++ events
  answers : w'.answers = w.answers.drop (sentIn events).length

/-- What two activities add stands one behind the other. -/
theorem Adds.trans {w w₁ w₂ : World} {first rest : List Event} (hfirst : Adds w first w₁)
    (hrest : Adds w₁ rest w₂) : Adds w (first ++ rest) w₂ where
  history := by rw [hrest.history, hfirst.history, List.append_assoc]
  answers := by
    rw [hrest.answers, hfirst.answers, List.drop_drop, sentIn, sentIn, sentIn,
      List.filterMap_append, List.length_append]

/-- An exchange makes one attempt, and succeeds with the answer when that is a success. -/
theorem exchange_attempt (w : World) (h : w.session.isConnected = true) (method : Method)
    (uri : String) (headers : List Header) : ∃ outcome w' event a,
    (exchange method uri headers).run.run w = (outcome, w') ∧
      w'.session = w.session.counted ∧ Adds w [event] w' ∧ event ≠ .connected ∧
      attempted [event] w.answers = [a] ∧
      a.request = w.session.counted.request method uri headers ∧
      a.isConfirmed = outcome.isOk ∧ (∀ r, outcome = .ok r → a.answer = some (.ok r)) := by
  cases hsending : w.peer.sending 0 with
  | error e =>
    have hevent : w.peer.event 0 (w.session.counted.request method uri headers)
        = .unsent (w.session.counted.request method uri headers) := by
      rw [Peer.event, hsending]
    refine ⟨_, _, .unsent (w.session.counted.request method uri headers),
      ⟨w.session.counted.request method uri headers, none⟩,
      exchange_unsent h hsending method uri headers, rfl, ⟨?_, rfl⟩, ?_, rfl, rfl, rfl, ?_⟩
    · rw [World.refused, hevent]
    · rintro ⟨⟩
    · rintro r ⟨⟩
  | ok u =>
    have hreply : w.answers.headD (.error connectionClosed) = w.peer.reply 0 := by
      rw [List.headD_eq_head?_getD, List.head?_eq_getElem?]
      rfl
    refine ⟨_, _, .sent (w.session.counted.request method uri headers), _,
      exchange_sent h hsending method uri headers, rfl, ⟨rfl, answers_next rfl⟩, ?_, rfl, rfl,
      ?_, ?_⟩
    · rintro ⟨⟩
    · rw [Attempt.isConfirmed, hreply]
      cases w.peer.reply 0 with
      | error e => rfl
      | ok r => cases hsuccess : r.isSuccess <;> simp [judge, hsuccess, Except.isOk, Except.toBool]
    · intro r hr
      rw [hreply, reply_of_judge hr]

/-! ## Visits -/

/-- A camera that answers requests one by one. -/
def Peer.answering (responses : List Response) : Peer where
  incoming := responses.map fun r => .ok (.response r)

/-- A call as it is seen from outside: the phase in which it finds the session, what it
returns, what is done on the network and which answers come in, and the session that it
leaves. -/
structure Visit where
  phase : Phase
  call : Call
  result : Except Error (Option Frame)
  events : List Event
  answers : List (Except Error Response)
  after : State

/-- The requests that reach the connection. -/
def Visit.attempts (v : Visit) : List Attempt :=
  attempted v.events v.answers

/-- Whether a connection is opened. -/
def Visit.connects (v : Visit) : Bool :=
  v.events.contains .connected

/-- Whether the call succeeds. -/
def Visit.succeeds (v : Visit) : Bool :=
  v.result.isOk

/-- What a call returns that meets a peer. -/
def World.result (w : World) (p : Peer) : Call → Except Error (Option Frame)
  | .change t => ((changeState t).run.run { w with peer := p }).1.map fun _ => none
  | .receive => (receivePacket.run.run { w with peer := p }).1.map some

/-- A call that meets a peer. -/
def World.visit (w : World) (p : Peer) (c : Call) : Visit where
  phase := w.session.phase
  call := c
  result := w.result p c
  events := (w.after p c).history.drop w.history.length
  answers := World.answers { w with peer := p }
  after := (w.after p c).session

/-- Some calls, each of which may meet another peer. -/
def World.visits : World → List (Peer × Call) → List Visit
  | _, [] => []
  | w, (p, c) :: rest => w.visit p c :: (w.after p c).visits rest

/-- A part of the visits is the visits of a part of the calls. -/
theorem exists_of_visits_eq_append {w : World} {calls : List (Peer × Call)}
    {first rest : List Visit} (h : w.visits calls = first ++ rest) : ∃ firstCalls restCalls, calls = firstCalls ++ restCalls ∧
      w.visits firstCalls = first ∧ (w.afterAll firstCalls).visits restCalls = rest := by
  induction first generalizing w calls with
  | nil => exact ⟨[], calls, rfl, rfl, h⟩
  | cons v first ih =>
    cases calls with
    | nil => cases h
    | cons call calls =>
      obtain ⟨hv, htail⟩ := List.cons_eq_cons.1 h
      obtain ⟨firstCalls, restCalls, rfl, hfirst, hrest⟩ := ih htail
      exact ⟨call :: firstCalls, restCalls, rfl, by rw [← hv, ← hfirst]; rfl, hrest⟩

/-- Every visit of a run is a call after the ones before it. -/
theorem exists_of_mem_visits {w : World} {calls : List (Peer × Call)} {v : Visit}
    (h : v ∈ w.visits calls) :
    ∃ first p c, v = (w.afterAll first).visit p c := by
  induction calls generalizing w with
  | nil => cases h
  | cons call rest ih =>
    obtain rfl | htail := List.mem_cons.1 h
    · exact ⟨[], call.1, call.2, rfl⟩
    · obtain ⟨first, p, c, hv⟩ := ih htail
      exact ⟨call :: first, p, c, hv⟩

theorem visit_events {w : World} {p : Peer} {c : Call} {events : List Event}
    (h : (w.after p c).history = w.history ++ events) : (w.visit p c).events = events := by
  rw [World.visit, h, List.drop_left]

end MediaTransport.Session
