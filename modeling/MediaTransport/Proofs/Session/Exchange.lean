import Mathlib.Data.List.Basic
import MediaTransport.Proofs.Activity
import MediaTransport.Session.Control

/-!
# Exchanges

What a peer will do is read here by number: the outcome of the attempt to send of
a number, and the answer of a number among the messages that come in, where media
does not count.  An exchange uses up one of each.

An exchange on an open connection counts the request and attempts to send it, and
changes nothing else in the session.  When the request is sent, the next answer is taken
for its own and judged by its code alone (`exchange_sent`).  So the exchange succeeds
exactly when the peer *confirms* the request: it is sent and its answer is a success
(`exchange_run`).
Without a connection nothing happens at all (`exchange_unconnected`).
-/

namespace MediaTransport.Session

open Rtsp

/-! ## What a peer will do -/

/-- An answer to a request: a response, or an error in its place. -/
def answer? : Except Error Message → Option (Except Error Response)
  | .error e => some (.error e)
  | .ok (.response r) => some (.ok r)
  | .ok (.frame _) => none

namespace Peer

/-- The outcome of the next attempt to connect. -/
def connecting (p : Peer) : Except Error Unit :=
  (nextOutcome p.connects).1

/-- The outcome of the attempt of a number to send. -/
def sending (p : Peer) (j : ℕ) : Except Error Unit :=
  match p.sends[j]? with
  | some (some e) => .error e
  | _ => .ok ()

/-- The answer of a number. -/
def reply (p : Peer) (j : ℕ) : Except Error Response :=
  (p.incoming.filterMap answer?)[j]?.getD (.error connectionClosed)

/-- The request of a number is sent, and its answer is a success. -/
def Confirms (p : Peer) (j : ℕ) (r : Response) : Prop :=
  p.sending j = .ok () ∧ p.reply j = .ok r ∧ r.code = 200

/-- The attempt of a number to send a request, as it is noted. -/
def event (p : Peer) (j : ℕ) (request : Request) : Event :=
  match p.sending j with
  | .ok () => .sent request
  | .error _ => .unsent request

/-- The peer after an exchange. -/
def next (p : Peer) : Peer :=
  { p with sends := p.sends.tail, incoming := (nextResponse p.incoming).2 }

end Peer

theorem nextOutcome_sends (p : Peer) : nextOutcome p.sends = (p.sending 0, p.sends.tail) := by
  unfold Peer.sending
  rcases p.sends with _ | ⟨_ | e, rest⟩ <;> rfl

theorem nextResponse_fst (messages : List (Except Error Message)) :
    (nextResponse messages).1
      = (messages.filterMap answer?)[0]?.getD (.error connectionClosed) := by
  induction messages with
  | nil => rfl
  | cons m rest ih =>
    rcases m with e | (r | f)
    · rfl
    · rfl
    · exact ih

theorem nextResponse_snd (messages : List (Except Error Message)) :
    (nextResponse messages).2.filterMap answer? = (messages.filterMap answer?).tail := by
  induction messages with
  | nil => rfl
  | cons m rest ih =>
    rcases m with e | (r | f)
    · rfl
    · rfl
    · exact ih

namespace Peer

@[simp]
theorem sending_next (p : Peer) (j : ℕ) : p.next.sending j = p.sending (j + 1) := by
  simp [sending, next]

@[simp]
theorem reply_next (p : Peer) (j : ℕ) : p.next.reply j = p.reply (j + 1) := by
  simp [reply, next, nextResponse_snd]

@[simp]
theorem confirms_next (p : Peer) (j : ℕ) (r : Response) :
    p.next.Confirms j r ↔ p.Confirms (j + 1) r := by
  simp [Confirms]

@[simp]
theorem event_next (p : Peer) (j : ℕ) (request : Request) :
    p.next.event j request = p.event (j + 1) request := by
  simp [event]

/-- All of some requests are confirmed when the first one is and those after it are. -/
theorem Confirms.forall_succ {p : Peer} {r : Response} (h : p.Confirms 0 r) (n : ℕ) :
    (∀ j < n + 1, ∃ r, p.Confirms j r) ↔ ∀ j < n, ∃ r, p.next.Confirms j r := by
  have hfirst : ∃ r, p.Confirms 0 r := ⟨r, h⟩
  rw [Nat.forall_lt_succ_left]
  simp [hfirst]

theorem Confirms.event {p : Peer} {j : ℕ} {r : Response} (h : p.Confirms j r) (request : Request) :
    p.event j request = .sent request := by
  simp [Peer.event, h.1]

end Peer

/-! ## One exchange -/

/-- The session after one more request. -/
def State.counted (s : State) : State :=
  { s with sequence := s.sequence + 1 }

namespace World

/-- What a request leaves that was confirmed. -/
def confirmed (w : World) (request : Request) : World :=
  { session := w.session.counted
    peer := w.peer.next
    history := w.history ++ [.sent request] }

/-- What a request leaves that was not confirmed. -/
def refused (w : World) (request : Request) (p : Peer) : World :=
  { session := w.session.counted
    peer := p
    history := w.history ++ [w.peer.event 0 request] }

/-- The first of several attempts was confirmed. -/
theorem history_confirmed {w : World} {r : Response} (h : w.peer.Confirms 0 r) (request : Request)
    (requests : List Request) :
    (w.confirmed request).history ++ requests.mapIdx (w.confirmed request).peer.event
      = w.history ++ (request :: requests).mapIdx w.peer.event := by
  have hevents : (w.confirmed request).peer.event = fun j => w.peer.event (j + 1) := by
    funext j request
    exact w.peer.event_next j request
  rw [hevents, List.mapIdx_cons, h.event, confirmed, List.append_assoc]
  rfl

end World

theorem send_run (w : World) (request : Request) :
    (send request).run.run w = (w.peer.sending 0,
      { w with
        peer := { w.peer with sends := w.peer.sends.tail }
        history := w.history ++ [w.peer.event 0 request] }) := by
  unfold send Peer.event
  rw [run_get_bind, nextOutcome_sends]
  cases w.peer.sending 0 <;> rfl

theorem awaitResponse_run (w : World) :
    awaitResponse.run.run w = (w.peer.reply 0,
      { w with peer := { w.peer with incoming := (nextResponse w.peer.incoming).2 } }) := by
  unfold Peer.reply
  rw [← nextResponse_fst]
  rfl

/-- Without a connection nothing happens. -/
theorem exchange_unconnected (w : World) (h : w.session.isConnected = false) (method : Method)
    (uri : String) (headers : List Header) :
    (exchange method uri headers).run.run w = (.error .notActive, w) := by
  unfold exchange
  rw [run_get_bind, h]
  rfl

/-- On a connection the request is counted before it is sent. -/
theorem exchange_connected (w : World) (h : w.session.isConnected = true) (method : Method)
    (uri : String) (headers : List Header) :
    (exchange method uri headers).run.run w = (do
      send (w.session.counted.request method uri headers)
      let response ← awaitResponse
      if response.isSuccess then return response
      else throw (.protocol (.errorStatus method response.code response.reason)) :
        Control Response).run.run { w with session := w.session.counted } := by
  unfold exchange
  rw [run_get_bind, h]
  rfl

/-- A request that cannot be sent counts. -/
theorem exchange_unsent {w : World} (h : w.session.isConnected = true) {e : Error}
    (hsending : w.peer.sending 0 = .error e) (method : Method) (uri : String)
    (headers : List Header) :
    (exchange method uri headers).run.run w
      = (.error e, w.refused (w.session.counted.request method uri headers)
          { w.peer with sends := w.peer.sends.tail }) := by
  have hsend := send_run { w with session := w.session.counted }
    (w.session.counted.request method uri headers)
  rw [hsending] at hsend
  rw [exchange_connected w h, run_bind_error _ hsend]
  rfl

/-- What an exchange makes of the answer to its request. -/
def judge (method : Method) : Except Error Response → Except Error Response
  | .ok r =>
    if r.isSuccess then .ok r else .error (.protocol (.errorStatus method r.code r.reason))
  | .error e => .error e

theorem reply_of_judge {method : Method} {answer : Except Error Response} {r : Response}
    (h : judge method answer = .ok r) : answer = .ok r := by
  unfold judge at h
  split at h
  next =>
    split at h <;> cases h
    rfl
  next => cases h

/-- The next answer is taken for the answer to the request. -/
theorem exchange_sent {w : World} (h : w.session.isConnected = true)
    (hsending : w.peer.sending 0 = .ok ()) (method : Method) (uri : String)
    (headers : List Header) :
    (exchange method uri headers).run.run w = (judge method (w.peer.reply 0),
      w.confirmed (w.session.counted.request method uri headers)) := by
  have hsend := send_run { w with session := w.session.counted }
    (w.session.counted.request method uri headers)
  rw [hsending] at hsend
  have hevent : w.peer.event 0 (w.session.counted.request method uri headers)
      = .sent (w.session.counted.request method uri headers) := by
    rw [Peer.event, hsending]
  rw [hevent] at hsend
  rw [exchange_connected w h, run_bind_ok _ hsend]
  have hawait := awaitResponse_run
    { session := w.session.counted
      peer := { w.peer with sends := w.peer.sends.tail }
      history := w.history ++ [.sent (w.session.counted.request method uri headers)] }
  have hreply : ({ w.peer with sends := w.peer.sends.tail } : Peer).reply 0 = w.peer.reply 0 := rfl
  rw [hreply] at hawait
  cases hanswer : w.peer.reply 0 with
  | error e =>
    rw [hanswer] at hawait
    exact run_bind_error _ hawait
  | ok r =>
    rw [hanswer] at hawait
    rw [run_bind_ok _ hawait, judge]
    split <;> rfl

/-- On a connection the request is counted, attempted, and confirmed or not. -/
theorem exchange_run (w : World) (h : w.session.isConnected = true) (method : Method)
    (uri : String) (headers : List Header) :
    (∃ r, w.peer.Confirms 0 r ∧ (exchange method uri headers).run.run w
      = (.ok r, w.confirmed (w.session.counted.request method uri headers))) ∨
    ((¬∃ r, w.peer.Confirms 0 r) ∧ ∃ e p, (exchange method uri headers).run.run w
      = (.error e, w.refused (w.session.counted.request method uri headers) p)) := by
  cases hsending : w.peer.sending 0 with
  | error e =>
    right
    refine ⟨?_, e, _, exchange_unsent h hsending method uri headers⟩
    rintro ⟨r, hconfirms, -⟩
    rw [hsending] at hconfirms
    cases hconfirms
  | ok u =>
    rw [exchange_sent h hsending]
    have hrefused : w.confirmed (w.session.counted.request method uri headers)
        = w.refused (w.session.counted.request method uri headers) w.peer.next := by
      rw [World.confirmed, World.refused, Peer.event, hsending]
    cases hanswer : w.peer.reply 0 with
    | error e =>
      right
      refine ⟨?_, e, w.peer.next, congrArg (Prod.mk _) hrefused⟩
      rintro ⟨r, -, hconfirms, -⟩
      rw [hanswer] at hconfirms
      cases hconfirms
    | ok r =>
      by_cases hcode : r.code = 200
      · left
        have hsuccess : r.isSuccess = true := beq_iff_eq.mpr hcode
        exact ⟨r, ⟨hsending, hanswer, hcode⟩, by rw [judge, if_pos hsuccess]⟩
      · right
        have hfailure : ¬r.isSuccess = true := fun hsuccess => hcode (beq_iff_eq.mp hsuccess)
        refine ⟨?_, .protocol (.errorStatus method r.code r.reason), w.peer.next, ?_⟩
        · rintro ⟨r', -, hreply', hcode'⟩
          rw [hanswer] at hreply'
          cases hreply'
          exact hcode hcode'
        · rw [judge, if_neg hfailure, hrefused]

end MediaTransport.Session
