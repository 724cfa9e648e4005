import MediaTransport.Proofs.Session.Lifecycle

/-!
# Which response answers which request

A request carries a number, and a response may carry the number of the request that it
answers (`Paired`).  A session does not compare them.  It takes the next answer that comes
in for the answer to the request that it has just sent (`exchange_sent`), so the requests
of a step are answered *in turn* (`InTurn`): the first one by the first answer that comes
in, and so on, each using up one.

That is a property of every activity that is put together from orderly ones
(`Orderly.bind`), so of every step (`orderly_changeState`), and so of every run.  Answers
that are in step with the requests are paired with them (`InTurn.paired`).  Behind an
answer that nobody has asked for, no answer needs to be.
-/

namespace MediaTransport.Session

open Rtsp

/-! ## Requests and answers -/

/-- The request of an event, if it was sent. -/
def Event.request? : Event → Option Request
  | .sent request => some request
  | _ => none

/-- The requests that have been sent, in order. -/
def World.requests (w : World) : List Request :=
  w.history.filterMap Event.request?

/-- The answers that are coming in, in order. -/
def World.answers (w : World) : List (Except Error Response) :=
  w.peer.incoming.filterMap answer?

/-- The response carries no number, or that of the request. -/
def Paired (request : Request) (r : Response) : Prop :=
  ∀ number, r.header? "CSeq" = some number → request.sequence? = some number

/-- The number that the request of an index is sent under. -/
def State.numberOf (s : State) (j : ℕ) : String :=
  toString (s.sequence + UInt32.ofNat (j + 1))

/-- An answer in its place: it carries no number, or that of the request of its index. -/
def State.isInStep (s : State) : Except Error Response × ℕ → Bool
  | (.ok r, j) => (r.header? "CSeq").all (· == s.numberOf j)
  | (.error _, _) => true

/-- The answers come in the order of the requests that are to be sent. -/
def World.AnswersInStep (w : World) : Prop :=
  ∀ answer ∈ w.answers.zipIdx, w.session.isInStep answer = true

/-! ## Answers in turn -/

variable {α β : Type}

/-- What an activity sends is numbered on and answered in turn. -/
structure InTurn (w : World) (outcome : Except Error α) (w' : World) (sent : List Request) :
    Prop where
  /-- These are the requests that were sent. -/
  requests : w'.requests = w.requests ++ sent
  /-- Each of them has used up one answer. -/
  answers : w'.answers = w.answers.drop sent.length
  /-- They are numbered on from the last request. -/
  numbers : ∀ j request, sent[j]? = some request → request.sequence? = some (w.session.numberOf j)
  /-- A request is followed by another one, or by success, when the answer in its place is
  a success. -/
  confirmed : ∀ j < sent.length, j + 1 < sent.length ∨ outcome.isOk = true →
    ∃ r, w.answers[j]? = some (.ok r) ∧ r.isSuccess = true
  /-- The last request fails the activity when the answer in its place is no success. -/
  rejected : ∀ e, outcome = .error e → ∀ j request r, j + 1 = sent.length →
    sent[j]? = some request → w.answers[j]? = some (.ok r) → r.isSuccess = false →
    e = .protocol (.errorStatus request.method r.code r.reason)
  /-- An activity that succeeds has counted what it has sent. -/
  counted : outcome.isOk = true →
    w'.session.sequence = w.session.sequence + UInt32.ofNat sent.length

/-- An activity whose requests are answered in turn. -/
def Orderly (x : Control α) : Prop :=
  ∀ w, ∃ sent, InTurn w (x.run.run w).1 (x.run.run w).2 sent

/-- After some requests the numbers count on from there. -/
theorem numberOf_add {s s' : State} {n : ℕ} (h : s'.sequence = s.sequence + UInt32.ofNat n)
    (j : ℕ) : s'.numberOf j = s.numberOf (n + j) := by
  rw [State.numberOf, State.numberOf, h, UInt32.add_assoc, ← UInt32.ofNat_add, Nat.add_assoc]

/-- An activity that sends nothing and keeps what comes in is in turn. -/
theorem InTurn.silent {w w' : World} {outcome : Except Error α} (hrequests : w'.requests = w.requests)
    (hanswers : w'.answers = w.answers) (hsequence : w'.session.sequence = w.session.sequence) :
    InTurn w outcome w' [] where
  requests := by rw [hrequests, List.append_nil]
  answers := hanswers
  numbers _ _ h := nomatch h
  confirmed j h := absurd h (Nat.not_lt_zero j)
  rejected _ _ _ _ _ _ h := nomatch h
  counted _ := by simpa using hsequence

/-- An activity that fails without having sent anything is in turn, even if it has counted. -/
theorem InTurn.failed_silent {w w' : World} {e : Error} (hrequests : w'.requests = w.requests)
    (hanswers : w'.answers = w.answers) : InTurn w (.error e : Except Error α) w' [] where
  requests := by rw [hrequests, List.append_nil]
  answers := hanswers
  numbers _ _ h := nomatch h
  confirmed j h := absurd h (Nat.not_lt_zero j)
  rejected _ _ _ _ _ _ h := nomatch h
  counted := nofun

/-- The turns of a sequence are those of its parts. -/
theorem InTurn.trans {w w₁ w₂ : World} {a : α} {outcome : Except Error β} {first rest : List Request}
    (hfirst : InTurn w (.ok a : Except Error α) w₁ first) (hrest : InTurn w₁ outcome w₂ rest) :
    InTurn w outcome w₂ (first ++ rest) where
  requests := by rw [hrest.requests, hfirst.requests, List.append_assoc]
  answers := by rw [hrest.answers, hfirst.answers, List.drop_drop, List.length_append]
  numbers j request h := by
    rcases Nat.lt_or_ge j first.length with hlt | hge
    · rw [List.getElem?_append_left hlt] at h
      exact hfirst.numbers j request h
    · rw [List.getElem?_append_right hge] at h
      have hnumber := hrest.numbers _ request h
      rw [numberOf_add (hfirst.counted rfl)] at hnumber
      rwa [Nat.add_sub_cancel' hge] at hnumber
  confirmed j hj hnext := by
    rw [List.length_append] at hj hnext
    rcases Nat.lt_or_ge j first.length with hlt | hge
    · exact hfirst.confirmed j hlt (.inr rfl)
    · have hlater : j - first.length + 1 < rest.length ∨ outcome.isOk = true :=
        hnext.imp_left fun hlt => by omega
      obtain ⟨r, hr, hsuccess⟩ := hrest.confirmed (j - first.length) (by omega) hlater
      rw [hfirst.answers, List.getElem?_drop, Nat.add_sub_cancel' hge] at hr
      exact ⟨r, hr, hsuccess⟩
  rejected e he j request r hj hrequest hr hfailure := by
    rw [List.length_append] at hj
    rcases Nat.lt_or_ge j first.length with hlt | hge
    · obtain ⟨r', hr', hsuccess⟩ := hfirst.confirmed j hlt (.inr rfl)
      rw [hr] at hr'
      cases hr'
      rw [hfailure] at hsuccess
      cases hsuccess
    · rw [List.getElem?_append_right hge] at hrequest
      have hanswer : w₁.answers[j - first.length]? = some (.ok r) := by
        rw [hfirst.answers, List.getElem?_drop, Nat.add_sub_cancel' hge, hr]
      exact hrest.rejected e he (j - first.length) request r (by omega) hrequest hanswer hfailure
  counted hok := by
    rw [hrest.counted hok, hfirst.counted rfl, List.length_append, UInt32.ofNat_add,
      UInt32.add_assoc]

theorem InTurn.failed {w w' : World} {e : Error} {sent : List Request}
    (h : InTurn w (.error e : Except Error α) w' sent) :
    InTurn w (.error e : Except Error β) w' sent :=
  { h with
    confirmed := h.confirmed
    rejected := fun _ he => h.rejected _ (by cases he; rfl)
    counted := nofun }

/-! ## Orderly activities -/

/-- Activities whose requests are answered in turn can be put one behind the other. -/
theorem Orderly.bind {x : Control α} {f : α → Control β} (hx : Orderly x)
    (hf : ∀ a, Orderly (f a)) : Orderly (x >>= f) := by
  intro w
  obtain ⟨first, hfirst⟩ := hx w
  rcases hrun : x.run.run w with ⟨_ | a, w₁⟩
  next e =>
    rw [hrun] at hfirst
    rw [run_bind_error f hrun]
    exact ⟨first, hfirst.failed⟩
  next =>
    rw [hrun] at hfirst
    rw [run_bind_ok f hrun]
    obtain ⟨rest, hrest⟩ := hf a w₁
    exact ⟨first ++ rest, hfirst.trans hrest⟩

/-- A handler that fails without a word keeps the turns of the activity that it is for. -/
theorem Orderly.tryCatch {x : Control α} {handler : Error → Control α} (hx : Orderly x)
    (hhandler : ∀ e w, ∃ w', (handler e).run.run w = (.error e, w') ∧
      w'.requests = w.requests ∧ w'.answers = w.answers) : Orderly (tryCatch x handler) := by
  intro w
  obtain ⟨sent, hsent⟩ := hx w
  rcases hrun : x.run.run w with ⟨_ | a, w₁⟩
  next e =>
    rw [hrun] at hsent
    obtain ⟨w', hrun', hrequests, hanswers⟩ := hhandler e w₁
    rw [run_tryCatch_error handler hrun, hrun']
    exact ⟨sent, {
      requests := hrequests.trans hsent.requests
      answers := hanswers.trans hsent.answers
      numbers := hsent.numbers
      confirmed := hsent.confirmed
      rejected := hsent.rejected
      counted := nofun }⟩
  next =>
    rw [hrun] at hsent
    rw [run_tryCatch_ok handler hrun]
    exact ⟨sent, hsent⟩

theorem orderly_pure (a : α) : Orderly (pure a : Control α) := fun _ => ⟨[], .silent rfl rfl rfl⟩

theorem orderly_throw (e : Error) : Orderly (throw e : Control α) :=
  fun _ => ⟨[], .silent rfl rfl rfl⟩

theorem orderly_get : Orderly (get : Control World) := fun _ => ⟨[], .silent rfl rfl rfl⟩

/-- What sends nothing is in turn. -/
theorem orderly_liftM (outcome : Except Error α) : Orderly (liftM outcome : Control α) := by
  intro w
  cases outcome <;> exact ⟨[], .silent rfl rfl rfl⟩

theorem orderly_update {f : State → State} (hf : ∀ s, (f s).sequence = s.sequence) :
    Orderly (update f) :=
  fun w => ⟨[], .silent rfl rfl (hf w.session)⟩

theorem orderly_enter (phase : Phase) : Orderly (enter phase) :=
  orderly_update fun _ => rfl

theorem orderly_connect : Orderly connect := by
  intro w
  cases hconnecting : w.peer.connecting with
  | error e =>
    rw [connect_run_error hconnecting]
    exact ⟨[], .silent rfl rfl rfl⟩
  | ok u =>
    rw [connect_run_ok hconnecting]
    refine ⟨[], .silent ?_ rfl rfl⟩
    simp [World.requests, Event.request?]

/-- A request shows the number of its session. -/
theorem sequence?_request (s : State) (method : Method) (uri : String) (headers : List Header) :
    (s.request method uri headers).sequence? = some (toString s.sequence) := by
  have hagent : Text.equalsIgnoringCase userAgent.name.toList "CSeq".toList = false := by decide
  have hnumber : Text.equalsIgnoringCase "CSeq".toList "CSeq".toList = true := by decide
  rw [request_eq, Request.sequence?, Request.header?, List.cons_append, List.cons_append,
    headerValue?_cons_other hagent]
  exact headerValue?_cons_same (h := ⟨"CSeq", toString s.sequence⟩) hnumber _

theorem method_request (s : State) (method : Method) (uri : String) (headers : List Header) :
    (s.request method uri headers).method = method := by
  rw [request_eq]

theorem uri_request (s : State) (method : Method) (uri : String) (headers : List Header) :
    (s.request method uri headers).uri = uri := by
  rw [request_eq]

theorem answers_next {w w' : World} (h : w'.peer = w.peer.next) : w'.answers = w.answers.drop 1 := by
  rw [World.answers, World.answers, h, Peer.next, nextResponse_snd, List.drop_one]

/-- A request that was not sent is none of the requests. -/
theorem requests_unsent {w : World} {e : Error} (h : w.peer.sending 0 = .error e)
    (request : Request) (p : Peer) : (w.refused request p).requests = w.requests := by
  simp [World.requests, World.refused, Peer.event, h, Event.request?]

/-- A confirmed request is the last one of the history. -/
theorem requests_confirmed (w : World) (request : Request) :
    (w.confirmed request).requests = w.requests ++ [request] := by
  simp [World.requests, World.confirmed, Event.request?]

/-- Only a response that reports success lets an exchange succeed. -/
theorem of_judge_isOk {method : Method} {answer : Except Error Response}
    (h : (judge method answer).isOk = true) : ∃ r, answer = .ok r ∧ r.isSuccess = true := by
  cases answer with
  | error e => cases h
  | ok r =>
    refine ⟨r, rfl, ?_⟩
    cases hsuccess : r.isSuccess with
    | true => rfl
    | false =>
      rw [judge, hsuccess] at h
      cases h

/-- The reply to a request is the answer at its place. -/
theorem answers_of_reply {w : World} {j : ℕ} {r : Response} (h : w.peer.reply j = .ok r) :
    w.answers[j]? = some (.ok r) := by
  change w.answers[j]?.getD (.error connectionClosed) = .ok r at h
  cases hanswer : w.answers[j]? with
  | none => rw [hanswer] at h; cases h
  | some answer => rw [hanswer] at h; exact congrArg some h

theorem reply_of_answers {w : World} {j : ℕ} {r : Response} (h : w.answers[j]? = some (.ok r)) :
    w.peer.reply j = .ok r := by
  change w.answers[j]?.getD (.error connectionClosed) = .ok r
  rw [h, Option.getD_some]

/-- An exchange sends one request and takes the answer at its place. -/
theorem orderly_exchange (method : Method) (uri : String) (headers : List Header) :
    Orderly (exchange method uri headers) := by
  intro w
  cases hconnected : w.session.isConnected with
  | false =>
    rw [exchange_unconnected w hconnected]
    exact ⟨[], .silent rfl rfl rfl⟩
  | true =>
    cases hsending : w.peer.sending 0 with
    | error e =>
      rw [exchange_unsent hconnected hsending]
      exact ⟨[], .failed_silent (requests_unsent hsending _ _) rfl⟩
    | ok u =>
      rw [exchange_sent hconnected hsending]
      refine ⟨[w.session.counted.request method uri headers], ?_⟩
      constructor
      · exact requests_confirmed _ _
      · exact answers_next rfl
      · intro j request hj
        obtain ⟨rfl, rfl⟩ : j = 0 ∧ w.session.counted.request method uri headers = request := by
          simpa [List.getElem?_singleton] using hj
        exact sequence?_request w.session.counted method uri headers
      · intro j hj hok
        obtain rfl : j = 0 := Nat.lt_one_iff.1 hj
        have hjudged : (judge method (w.peer.reply 0)).isOk = true :=
          hok.resolve_left (Nat.lt_irrefl 1)
        obtain ⟨r, hreply, hsuccess⟩ := of_judge_isOk hjudged
        exact ⟨r, answers_of_reply hreply, hsuccess⟩
      · intro e he j request r hj hrequest hanswer hfailure
        obtain rfl : j = 0 := Nat.succ.inj hj
        cases hrequest
        rw [reply_of_answers hanswer, judge, hfailure, if_neg Bool.false_ne_true] at he
        cases he
        exact congrArg (fun asked => Error.protocol (.errorStatus asked r.code r.reason))
          (method_request w.session.counted method uri headers).symm
      · exact fun _ => rfl

theorem orderly_setUp (index : ℕ) (media : Sdp.Section) : Orderly (setUp index media) := by
  unfold setUp
  split
  next =>
    refine orderly_get.bind fun w => ?_
    simp only
    split
    next =>
      refine (orderly_exchange _ _ _).bind fun r => orderly_update fun _ => rfl
    next => exact orderly_throw _
  next => exact orderly_pure ()

/-- Tracks are set up in turn, as far as all before them were. -/
theorem orderly_setUpAll (index : ℕ) (sections : List Sdp.Section) :
    Orderly (setUpAll index sections) := by
  induction sections generalizing index with
  | nil => exact orderly_pure ()
  | cons media rest ih => exact (orderly_setUp index media).bind fun _ => ih (index + 1)

theorem orderly_openSession : Orderly openSession := by
  unfold openSession
  refine Orderly.bind (orderly_update fun _ => rfl) fun _ => orderly_connect.bind fun _ => ?_
  refine orderly_get.bind fun w => (orderly_exchange _ _ _).bind fun r => ?_
  refine (orderly_liftM _).bind fun d => (orderly_setUpAll 0 d.media).bind fun _ => ?_
  exact orderly_update fun _ => rfl

theorem orderly_exchangeAndEnter (method : Method) (l : Rtsp.Location) (phase : Phase) :
    Orderly (exchangeAndEnter method l phase) :=
  (orderly_exchange method l.text []).bind fun _ => orderly_enter phase

theorem orderly_closeSession : Orderly closeSession := by
  unfold closeSession
  refine orderly_get.bind fun w => (orderly_enter _).bind fun _ => ?_
  refine Orderly.bind (Orderly.tryCatch ?_ ?_) fun _ => orderly_update fun _ => rfl
  · split
    next => exact (orderly_exchange _ _ _).bind fun _ => orderly_pure ()
    next => exact orderly_pure ()
  · exact fun e w => ⟨_, rfl, rfl, rfl⟩

/-! ## Steps -/

/-- Every transition is in turn. -/
theorem orderly_changeState (t : Transition) : Orderly (changeState t) := by
  intro w
  by_cases hstarts : t.StartsIn w.session.phase
  · rw [changeState_starts hstarts]
    cases t with
    | nullToReady => exact orderly_openSession w
    | readyToPaused => exact orderly_enter .paused w
    | pausedToPlaying => exact orderly_exchangeAndEnter .play _ .playing w
    | playingToPaused => exact orderly_exchangeAndEnter .pause _ .paused w
    | pausedToReady => exact orderly_enter .ready w
    | readyToNull => exact orderly_closeSession w
  · rw [changeState_refused hstarts]
    exact ⟨[], .silent rfl rfl rfl⟩

/-- Answers that are in step are paired with the requests in whose places they are. -/
theorem InTurn.paired {w w' : World} {outcome : Except Error α} {sent : List Request}
    (h : InTurn w outcome w' sent) (hstep : w.AnswersInStep) {request : Request} {r : Response}
    (hmem : (request, .ok r) ∈ sent.zip w.answers) : Paired request r := by
  intro number hnumber
  obtain ⟨j, hj⟩ := List.mem_iff_getElem?.1 hmem
  obtain ⟨hrequest, hanswer⟩ := List.getElem?_zip_eq_some.1 hj
  have hplace := hstep (.ok r, j) (List.mk_mem_zipIdx_iff_getElem?.2 hanswer)
  simp only [State.isInStep, hnumber, Option.all_some, beq_iff_eq] at hplace
  rw [h.numbers j request hrequest, hplace]

/-! ## Runs -/

/-- Calls, each of which may meet another peer, and what they exchange: each request that was
sent with the answer in its place, if there is one. -/
inductive Exchanges : World → List (Peer × Call) → List (Request × Except Error Response) → Prop where
  | nil {w : World} : Exchanges w [] []
  | change {w : World} {p : Peer} {t : Transition} {rest : List (Peer × Call)}
      {sent : List Request} {later : List (Request × Except Error Response)}
      (hturn : InTurn { w with peer := p } ((changeState t).run.run { w with peer := p }).1
        (w.after p (.change t)) sent)
      (hlater : Exchanges (w.after p (.change t)) rest later) :
      Exchanges w ((p, .change t) :: rest) (sent.zip (World.answers { w with peer := p }) ++ later)
  | receive {w : World} {p : Peer} {rest : List (Peer × Call)}
      {later : List (Request × Except Error Response)}
      (hsilent : (w.after p .receive).requests = w.requests)
      (hlater : Exchanges (w.after p .receive) rest later) :
      Exchanges w ((p, .receive) :: rest) later

/-- At every step of some calls, the answers that are coming in are in step. -/
def World.StaysInStep : World → List (Peer × Call) → Prop
  | _, [] => True
  | w, (p, .change t) :: rest =>
    World.AnswersInStep { w with peer := p } ∧ (w.after p (.change t)).StaysInStep rest
  | w, (p, .receive) :: rest => (w.after p .receive).StaysInStep rest

/-- The requests of every run are answered in turn, whatever numbers the answers carry.  So
where the answers that come in are in step with the requests, each is paired with the
request that it is taken to answer. -/
theorem exchanges_inTurn (w : World) (calls : List (Peer × Call)) :
    ∃ exchanges, Exchanges w calls exchanges ∧
      (w.StaysInStep calls → ∀ (request : Request) (r : Response),
        (request, .ok r) ∈ exchanges → Paired request r) := by
  induction calls generalizing w with
  | nil => exact ⟨[], .nil, fun _ _ _ h => nomatch h⟩
  | cons call rest ih =>
    obtain ⟨p, c⟩ := call
    obtain ⟨later, hlater, hpaired⟩ := ih (w.after p c)
    cases c with
    | change t =>
      obtain ⟨sent, hturn⟩ := orderly_changeState t { w with peer := p }
      refine ⟨_, .change hturn hlater, fun hstep request r hmem => ?_⟩
      rcases List.mem_append.1 hmem with hnow | hthen
      · exact hturn.paired hstep.1 hnow
      · exact hpaired hstep.2 request r hthen
    | receive =>
      obtain ⟨outcome, q, hrun⟩ := receivePacket_run { w with peer := p }
      have hsilent : (w.after p .receive).requests = w.requests := by
        rw [World.after, hrun]
        rfl
      exact ⟨later, .receive hsilent hlater, hpaired⟩

/-- What a camera offers that has one track. -/
def trackDescription : String := "v=0\nm=audio 0 RTP/AVP 96\na=control:a\n"

/-- An answer to the first request that has been sent once before. -/
def repeatedAnswer : Response := { Response.success with headers := [⟨"CSeq", "1"⟩] }

/-- A camera that answers in step, to a session that is watched for a while.  While it is,
an answer comes that nobody waits for. -/
def steadyCalls : List (Peer × Call) := [
  ({ incoming := [
      .ok (.response { code := 200, reason := "OK", headers := [⟨"CSeq", "1"⟩]
                       body := some trackDescription }),
      .ok (.response { Response.success with headers := [⟨"CSeq", "2"⟩] })] },
    .change .nullToReady),
  ({}, .change .readyToPaused),
  ({ incoming := [.ok (.response { Response.success with headers := [⟨"CSeq", "3"⟩] })] },
    .change .pausedToPlaying),
  ({ incoming := [.ok (.response repeatedAnswer)] }, .receive),
  ({ incoming := [.ok (.response { Response.notFound with headers := [⟨"CSeq", "4"⟩] })] },
    .change .playingToPaused)]

theorem exchanges_inTurn_steadyCalls :
    World.StaysInStep { session := cameraSession } steadyCalls ∧
    ∃ exchanges, Exchanges { session := cameraSession } steadyCalls exchanges ∧
      ∀ (request : Request) (r : Response), (request, .ok r) ∈ exchanges → Paired request r := by
  have hstep : World.StaysInStep { session := cameraSession } steadyCalls := by
    simp only [steadyCalls, World.StaysInStep, World.AnswersInStep]
    decide +kernel
  obtain ⟨exchanges, hexchanges, hpaired⟩ := exchanges_inTurn { session := cameraSession } steadyCalls
  exact ⟨hstep, exchanges, hexchanges, hpaired hstep⟩

/-- A camera that answers the first request twice, and refuses the second one. -/
def stutteringCamera : Peer where
  incoming := [
    .ok (.response { code := 200, reason := "OK", headers := [⟨"CSeq", "1"⟩]
                     body := some trackDescription }),
    .ok (.response repeatedAnswer),
    .ok (.response { Response.notFound with headers := [⟨"CSeq", "2"⟩] })]

/-- The request that this camera refuses. -/
def trackRequest : Request :=
  ⟨.setup, "rtsp://cam/live/a", [userAgent, ⟨"CSeq", "2"⟩,
    ⟨"Transport", "RTP/AVP/TCP;unicast;interleaved=0-1"⟩]⟩

/-- The second answer to the first request is taken for the answer to the second one, which
is refused in vain. -/
theorem exchanges_unpaired : ∃ exchanges,
    Exchanges { session := cameraSession } [(stutteringCamera, .change .nullToReady)] exchanges ∧
    ((changeState .nullToReady).run.run { session := cameraSession, peer := stutteringCamera }).1
      = .ok () ∧
    (trackRequest, .ok repeatedAnswer) ∈ exchanges ∧ ¬Paired trackRequest repeatedAnswer := by
  let w : World := { session := cameraSession, peer := stutteringCamera }
  obtain ⟨sent, hturn⟩ := orderly_changeState .nullToReady w
  have hsent : ((changeState .nullToReady).run.run w).2.requests = sent := hturn.requests
  have hrequest : ((changeState .nullToReady).run.run w).2.requests[1]? = some trackRequest := by
    decide +kernel
  rw [hsent] at hrequest
  have hanswer : w.answers[1]? = some (.ok repeatedAnswer) := rfl
  refine ⟨sent.zip w.answers ++ [], .change hturn .nil, by decide +kernel, ?_, fun hpaired => ?_⟩
  · rw [List.append_nil]
    exact List.mem_iff_getElem?.2 ⟨1, List.getElem?_zip_eq_some.2 ⟨hrequest, hanswer⟩⟩
  · have hnumber := hpaired "1" (by decide +kernel)
    revert hnumber
    decide +kernel

end MediaTransport.Session
