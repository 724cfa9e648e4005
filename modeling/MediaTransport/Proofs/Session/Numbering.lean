import MediaTransport.Proofs.Session.Language

/-!
# Numbers and identifiers

Requests are numbered through the whole life of a session, over all its connections, and
one that cannot be sent keeps its number (`Counts`).  The identifier is forgotten when the
session is opened.  From then on it is the one that the first track with an identifier in
its answer was given, whatever other answers say (`Identifies`).

Both are relations between the session before some attempts and the one after them, with a
transitivity lemma.  So every activity that is put together from such ones records its
requests (`Records`), and so does every step but the opening, which starts from a session
without an identifier (`records_openSession`).
-/

namespace MediaTransport.Session

open Rtsp

/-! ## Numbers and identifiers -/

/-- The identifier that an attempt gives to a session without one: that in a success for a
track. -/
def Attempt.identifier? (a : Attempt) : Option String :=
  match a.request.method, a.answer with
  | .setup, some (.ok r) => if r.isSuccess then (r.header? "Session").map identifierOf else none
  | _, _ => none

/-- Some attempts are numbered on from a session, and another one has counted them. -/
structure Counts (s : State) (as : List Attempt) (s' : State) : Prop where
  numbers : ∀ j a, as[j]? = some a → a.request.sequence? = some (s.numberOf j)
  counted : s'.sequence = s.sequence + UInt32.ofNat as.length

/-- Some attempts carry the identifier of a session, or the first one that was given since,
and another session keeps that.  The description is asked for without an identifier. -/
structure Identifies (s : State) (as : List Attempt) (s' : State) : Prop where
  carried : ∀ j a, as[j]? = some a → a.request.header? "Session"
    = s.identifier.or ((as.take j).findSome? Attempt.identifier?)
  kept : s'.identifier = s.identifier.or (as.findSome? Attempt.identifier?)
  describe : ∀ a ∈ as, a.request.method = .describe → a.request.header? "Session" = none

section

variable {s s₁ s₂ : State} {first rest : List Attempt}

/-- Numbers run on through two histories. -/
theorem Counts.trans (hfirst : Counts s first s₁) (hrest : Counts s₁ rest s₂) :
    Counts s (first ++ rest) s₂ where
  numbers j a ha := by
    rcases Nat.lt_or_ge j first.length with hlt | hge
    · rw [List.getElem?_append_left hlt] at ha
      exact hfirst.numbers j a ha
    · rw [List.getElem?_append_right hge] at ha
      rw [hrest.numbers _ a ha, numberOf_add hfirst.counted, Nat.add_sub_cancel' hge]
  counted := by
    rw [hrest.counted, hfirst.counted, List.length_append, UInt32.ofNat_add, UInt32.add_assoc]

theorem Identifies.trans (hfirst : Identifies s first s₁) (hrest : Identifies s₁ rest s₂) :
    Identifies s (first ++ rest) s₂ where
  carried j a ha := by
    rcases Nat.lt_or_ge j first.length with hlt | hge
    · rw [List.getElem?_append_left hlt] at ha
      rw [List.take_append_of_le_length (Nat.le_of_lt hlt)]
      exact hfirst.carried j a ha
    · rw [List.getElem?_append_right hge] at ha
      rw [hrest.carried _ a ha, hfirst.kept, List.take_append, List.take_of_length_le hge,
        List.findSome?_append, Option.or_assoc]
  kept := by
    rw [hrest.kept, hfirst.kept, List.findSome?_append, Option.or_assoc]
  describe a ha := (List.mem_append.1 ha).elim (hfirst.describe a) (hrest.describe a)

theorem Counts.nil (h : s₁.sequence = s.sequence) : Counts s [] s₁ where
  numbers _ _ h := nomatch h
  counted := by simpa using h

theorem Identifies.nil (h : s₁.identifier = s.identifier) : Identifies s [] s₁ where
  carried _ _ h := nomatch h
  kept := by rw [h, List.findSome?_nil, Option.or_none]
  describe := List.forall_mem_nil _

/-- A request shows the identifier of its session, once there is one. -/
theorem session_request (s : State) (method : Method) (uri : String) {headers : List Header}
    (h : headerValue? headers "Session" = none) :
    (s.request method uri headers).header? "Session" = s.identifier := by
  have hagent : Text.equalsIgnoringCase userAgent.name.toList "Session".toList = false := by decide
  have hnumber : Text.equalsIgnoringCase "CSeq".toList "Session".toList = false := by decide
  have hname : Text.equalsIgnoringCase "Session".toList "Session".toList = true := by decide
  rw [request_eq, Request.header?, List.cons_append, List.cons_append,
    headerValue?_cons_other hagent, headerValue?_cons_other (h := ⟨"CSeq", _⟩) hnumber]
  cases s.identifier with
  | none => exact h
  | some value => exact headerValue?_cons_same (h := ⟨"Session", value⟩) hname headers

theorem Counts.single {a : Attempt} {method : Method} {uri : String} {headers : List Header}
    (ha : a.request = s.counted.request method uri headers)
    (hsequence : s₁.sequence = s.counted.sequence) : Counts s [a] s₁ where
  numbers j b hb := by
    obtain ⟨rfl, rfl⟩ : j = 0 ∧ a = b := by simpa [List.getElem?_singleton] using hb
    rw [ha]
    exact sequence?_request s.counted method uri headers
  counted := hsequence

theorem Identifies.single {a : Attempt} {method : Method} {uri : String} {headers : List Header}
    (ha : a.request = s.counted.request method uri headers)
    (hheaders : headerValue? headers "Session" = none)
    (hdescribe : method = .describe → s.identifier = none)
    (hidentifier : s₁.identifier = s.identifier.or a.identifier?) : Identifies s [a] s₁ where
  carried j b hb := by
    obtain ⟨rfl, rfl⟩ : j = 0 ∧ a = b := by simpa [List.getElem?_singleton] using hb
    rw [ha, session_request _ _ _ hheaders, List.take_zero, List.findSome?_nil, Option.or_none]
    rfl
  kept := by
    rw [hidentifier, List.findSome?_singleton]
  describe b hb hmethod := by
    obtain rfl := List.mem_singleton.1 hb
    rw [ha, method_request] at hmethod
    rw [ha, session_request _ _ _ hheaders]
    exact hdescribe hmethod

end

/-! ## Activities -/

/-- What is done between two worlds is numbered and carries the identifier. -/
def Records (w w' : World) : Prop :=
  ∃ events, Adds w events w' ∧ Counts w.session (attempted events w.answers) w'.session ∧
    Identifies w.session (attempted events w.answers) w'.session

theorem Records.trans {w w₁ w₂ : World} (hfirst : Records w w₁) (hrest : Records w₁ w₂) :
    Records w w₂ := by
  obtain ⟨first, hadds, hcounts, hidentifies⟩ := hfirst
  obtain ⟨rest, hadds', hcounts', hidentifies'⟩ := hrest
  rw [hadds.answers] at hcounts' hidentifies'
  refine ⟨first ++ rest, hadds.trans hadds', ?_⟩
  rw [attempted_append]
  exact ⟨hcounts.trans hcounts', hidentifies.trans hidentifies'⟩

/-- Without a request nothing is counted and no identifier is given. -/
theorem Records.silent {w w' : World} (hhistory : w'.history = w.history)
    (hanswers : w'.answers = w.answers) (hsequence : w'.session.sequence = w.session.sequence)
    (hidentifier : w'.session.identifier = w.session.identifier) : Records w w' :=
  ⟨[], ⟨by rw [hhistory, List.append_nil], hanswers⟩, .nil hsequence, .nil hidentifier⟩

theorem Records.refl (w : World) : Records w w :=
  .silent rfl rfl rfl rfl

section

variable {w : World}

theorem leads_update {f : State → State} (hsequence : ∀ s, (f s).sequence = s.sequence)
    (hidentifier : ∀ s, (f s).identifier = s.identifier) : Leads Records (update f) w :=
  .silent rfl rfl (hsequence w.session) (hidentifier w.session)

theorem leads_enter (phase : Phase) : Leads Records (enter phase) w :=
  leads_update (fun _ => rfl) fun _ => rfl

theorem identifier?_of_ne {a : Attempt} (h : a.request.method ≠ .setup) : a.identifier? = none := by
  unfold Attempt.identifier?
  split
  next hsetup _ => exact absurd hsetup h
  next => rfl

theorem identifier?_of_isConfirmed {a : Attempt} {r : Response} (hsetup : a.request.method = .setup)
    (hanswer : a.answer = some (.ok r)) (hconfirmed : a.isConfirmed = true) :
    a.identifier? = (r.header? "Session").map identifierOf := by
  rw [Attempt.isConfirmed, hanswer] at hconfirmed
  rw [Attempt.identifier?, hsetup, hanswer]
  exact if_pos hconfirmed

/-- An answer that confirms nothing hands out no identifier. -/
theorem identifier?_of_not_isConfirmed {a : Attempt} (h : a.isConfirmed = false) :
    a.identifier? = none := by
  unfold Attempt.identifier?
  split
  next r _ hanswer =>
    rw [Attempt.isConfirmed, hanswer] at h
    exact if_neg (Bool.eq_false_iff.1 h)
  next => rfl

/-- An exchange gives no identifier, unless it is for a track. -/
theorem leads_exchange {method : Method} (hmethod : method ≠ .setup)
    (hdescribe : method = .describe → w.session.identifier = none) (uri : String)
    {headers : List Header} (hheaders : headerValue? headers "Session" = none) :
    Leads Records (exchange method uri headers) w := by
  unfold Leads
  cases hconnected : w.session.isConnected with
  | false =>
    rw [exchange_unconnected w hconnected]
    exact .refl w
  | true =>
    obtain ⟨outcome, w', event, a, hrun, hsession, hadds, -, hattempted, hrequest, -⟩ :=
      exchange_attempt w hconnected method uri headers
    have hsetup : a.request.method ≠ .setup := by rwa [hrequest, method_request]
    rw [hrun]
    refine ⟨[event], hadds, ?_⟩
    rw [hattempted, hsession]
    refine ⟨.single hrequest rfl, .single hrequest hheaders hdescribe ?_⟩
    rw [identifier?_of_ne hsetup, Option.or_none]
    rfl

/-- Only the answers for tracks give an identifier, and only the first of these counts. -/
theorem leads_setUp (index : ℕ) (media : Sdp.Section) : Leads Records (setUp index media) w := by
  unfold setUp
  split
  next control _ =>
    refine leads_get_bind ?_
    simp only
    split
    next requested _ =>
      unfold Leads
      cases hconnected : w.session.isConnected with
      | false =>
        rw [run_bind_error _ (exchange_unconnected w hconnected _ _ _)]
        exact .refl w
      | true =>
        obtain ⟨outcome, w', event, a, hrun, hsession, hadds, -, hattempted, hrequest, hconfirmed,
          hanswer⟩ := exchange_attempt w hconnected .setup (w.session.location.streamUri control)
            [⟨"Transport", requested.render⟩]
        have hname : Text.equalsIgnoringCase "Transport".toList "Session".toList = false := by
          decide
        have hheaders : headerValue? [⟨"Transport", requested.render⟩] "Session" = none :=
          headerValue?_cons_other (h := ⟨"Transport", requested.render⟩) hname []
        cases outcome with
        | error e =>
          rw [run_bind_error _ hrun]
          refine ⟨[event], hadds, ?_⟩
          rw [hattempted, hsession]
          refine ⟨.single hrequest rfl, .single hrequest hheaders nofun ?_⟩
          rw [identifier?_of_not_isConfirmed hconfirmed, Option.or_none]
          rfl
        | ok r =>
          rw [run_bind_ok _ hrun]
          have hsetup : a.request.method = .setup := by rw [hrequest, method_request]
          have hgiven := identifier?_of_isConfirmed hsetup (hanswer r rfl) hconfirmed
          -- The answer counts only where the session has no identifier yet.
          refine ⟨[event], ⟨hadds.history, hadds.answers⟩, ?_⟩
          rw [hattempted]
          refine ⟨.single hrequest ?_, .single hrequest hheaders nofun ?_⟩
          · change w'.session.sequence = _
            rw [hsession]
          · change (w'.session.identifier <|> _) = _
            rw [hsession, hgiven, Option.orElse_eq_orElse, Option.orElse_eq_or]
            rfl
    next => exact leads_throw (.refl w) _
  next => exact leads_pure (.refl _) ()

/-- Each track is set up under the identifier that the tracks before it brought. -/
theorem leads_setUpAll (index : ℕ) (sections : List Sdp.Section) :
    Leads Records (setUpAll index sections) w := by
  induction sections generalizing index w with
  | nil => exact leads_pure (.refl _) ()
  | cons media rest ih => exact (leads_setUp index media).bind .trans fun _ _ => ih (index + 1)

/-- The description is asked for without an identifier. -/
theorem leads_describeAndSetUp (h : w.session.identifier = none) (l : Location) :
    Leads Records (describeAndSetUp l) w := by
  unfold describeAndSetUp
  have hdescribe : (describing l).method ≠ .setup := nofun
  refine (leads_exchange hdescribe (fun _ => h) _ rfl).bind .trans fun r _ => ?_
  refine (leads_liftM (.refl _) _).bind .trans fun d _ => ?_
  refine (leads_setUpAll 0 d.media).bind .trans fun _ _ => ?_
  exact leads_update (fun _ => rfl) fun _ => rfl

/-- What is done to open a session is recorded from where the identifier is forgotten. -/
theorem records_openSession (w : World) :
    Records { w with session := w.session.cleared } (openSession.run.run w).2 := by
  cases hconnecting : w.peer.connecting with
  | error e =>
    rw [openSession_unconnected hconnecting]
    exact .silent rfl rfl rfl rfl
  | ok u =>
    have hlinked : Records { w with session := w.session.cleared } w.linked :=
      ⟨[.connected], ⟨rfl, rfl⟩, .nil rfl, .nil rfl⟩
    rw [openSession_connected hconnecting]
    exact hlinked.trans (leads_describeAndSetUp rfl _)

theorem leads_exchangeAndEnter {method : Method} (hsetup : method ≠ .setup)
    (hdescribe : method ≠ .describe) (l : Location) (phase : Phase) :
    Leads Records (exchangeAndEnter method l phase) w :=
  (leads_exchange hsetup (absurd · hdescribe) l.text rfl).bind .trans fun _ _ => leads_enter phase

theorem leads_closeSession : Leads Records closeSession w := by
  unfold closeSession
  refine leads_get_bind ((leads_enter _).bind .trans fun _ _ => ?_)
  refine Leads.bind .trans (Leads.tryCatch .trans ?_ fun e _ => ?_) fun _ _ => ?_
  · split
    next =>
      exact (leads_exchange (by decide) (absurd · (by decide)) _ rfl).bind .trans fun _ _ =>
        leads_pure (.refl _) ()
    next => exact leads_pure (.refl _) ()
  · refine Leads.bind .trans (leads_update (fun _ => rfl) fun _ => rfl) fun _ _ => ?_
    exact leads_throw (.refl _) e
  · exact leads_update (fun _ => rfl) fun _ => rfl

/-- Every step but the opening is recorded from where it starts. -/
theorem leads_changeState {t : Transition} (h : t = .nullToReady → w.session.phase ≠ .closed) :
    Leads Records (changeState t) w := by
  unfold Leads
  by_cases hstarts : t.StartsIn w.session.phase
  · rw [changeState_starts hstarts]
    cases t with
    | nullToReady => exact absurd hstarts (h rfl)
    | readyToPaused => exact leads_enter .paused
    | pausedToPlaying => exact leads_exchangeAndEnter (by decide) (by decide) _ .playing
    | playingToPaused => exact leads_exchangeAndEnter (by decide) (by decide) _ .paused
    | pausedToReady => exact leads_enter .ready
    | readyToNull => exact leads_closeSession
  · rw [changeState_refused hstarts]
    exact .refl w

end

/-! ## Runs -/

/-- The call opens the session. -/
def Visit.opens (v : Visit) : Bool :=
  match v.call, v.phase with
  | .change .nullToReady, .closed => true
  | _, _ => false

section

variable {w : World} {calls : List (Peer × Call)}

/-- What is recorded of a call is what is seen of it. -/
theorem Records.visit {p : Peer} {c : Call} {s : State}
    (h : Records { w with session := s, peer := p } (w.after p c)) :
    Counts s (w.visit p c).attempts (w.after p c).session ∧
      Identifies s (w.visit p c).attempts (w.after p c).session := by
  obtain ⟨events, hadds, hcounts, hidentifies⟩ := h
  have hevents : (w.visit p c).events = events := visit_events hadds.history
  rw [Visit.attempts, hevents]
  exact ⟨hcounts, hidentifies⟩

/-- Opening a session starts without an identifier, and the numbers run on. -/
theorem visit_records_of_opens {p : Peer} {c : Call} (h : (w.visit p c).opens = true) :
    Counts w.session.cleared (w.visit p c).attempts (w.after p c).session ∧
      Identifies w.session.cleared (w.visit p c).attempts (w.after p c).session := by
  obtain ⟨rfl, hphase⟩ : c = .change .nullToReady ∧ w.session.phase = .closed := by
    unfold Visit.opens at h
    split at h
    next hcall hphase => exact ⟨hcall, hphase⟩
    next => cases h
  refine Records.visit ?_
  rw [World.after, changeState_starts (w := { w with peer := p }) (t := .nullToReady) hphase]
  exact records_openSession { w with peer := p }

/-- Any other call goes on with the identifier at hand. -/
theorem visit_records_of_not_opens {p : Peer} {c : Call} (h : (w.visit p c).opens = false) :
    Counts w.session (w.visit p c).attempts (w.after p c).session ∧
      Identifies w.session (w.visit p c).attempts (w.after p c).session := by
  cases c with
  | change t =>
    refine Records.visit (leads_changeState (w := { w with peer := p }) ?_)
    rintro rfl hphase
    rw [Visit.opens, World.visit, hphase] at h
    cases h
  | receive =>
    obtain ⟨outcome, q, hrun⟩ := receivePacket_run { w with peer := p }
    have hafter : w.after p .receive = { w with peer := q } := by rw [World.after, hrun]
    have hevents : (w.visit p .receive).events = [] := by
      refine visit_events ?_
      rw [hafter, List.append_nil]
    rw [Visit.attempts, hevents, hafter]
    exact ⟨.nil rfl, .nil rfl⟩

/-- The requests of a run are numbered through. -/
theorem visits_counts (w : World) (calls : List (Peer × Call)) :
    Counts w.session ((w.visits calls).flatMap Visit.attempts) (w.afterAll calls).session := by
  induction calls generalizing w with
  | nil => exact .nil rfl
  | cons call rest ih =>
    have hnow : Counts w.session (w.visit call.1 call.2).attempts
        (w.after call.1 call.2).session := by
      cases hopens : (w.visit call.1 call.2).opens with
      | false => exact (visit_records_of_not_opens hopens).1
      | true =>
        obtain ⟨hnumbers, hcounted⟩ := (visit_records_of_opens hopens).1
        exact ⟨hnumbers, hcounted⟩
    rw [World.visits, List.flatMap_cons]
    exact hnow.trans (ih _)

/-- Until the session is opened again, its requests carry the first identifier. -/
theorem visits_identifies (h : ∀ v ∈ w.visits calls, v.opens = false) :
    Identifies w.session ((w.visits calls).flatMap Visit.attempts) (w.afterAll calls).session := by
  induction calls generalizing w with
  | nil => exact .nil rfl
  | cons call rest ih =>
    obtain ⟨hnow, hlater⟩ := List.forall_mem_cons.1 h
    rw [World.visits, List.flatMap_cons]
    exact (visit_records_of_not_opens hnow).2.trans (ih hlater)

/-- A stretch of visits that begins with an opening and has no other one carries one identifier. -/
theorem visits_identifies_of_opens {p : Peer} {c : Call} (hopens : (w.visit p c).opens = true)
    (h : ∀ v ∈ (w.after p c).visits calls, v.opens = false) :
    Identifies w.session.cleared
      ((w.visit p c).attempts ++ ((w.after p c).visits calls).flatMap Visit.attempts)
      ((w.after p c).afterAll calls).session :=
  (visit_records_of_opens hopens).2.trans (visits_identifies h)

theorem visit_connects_of_not_opens {p : Peer} {c : Call} (hw : w.session.IsCoherent)
    (h : (w.visit p c).opens = false) : (w.visit p c).connects = false := by
  obtain ⟨hphase, rfl, -⟩ | ⟨hconnects, -⟩ := visit_moves hw p c
  · rw [Visit.opens, World.visit, hphase] at h
    cases h
  · exact hconnects

end

/-- The numbers of the attempts that were sent. -/
def sentNumbers (as : List Attempt) : List ℕ :=
  ((as.zipIdx 1).filter fun place => place.1.isSent).map (·.2)

/-- Numbers never come twice, and they go up. -/
theorem pairwise_sentNumbers (as : List Attempt) : (sentNumbers as).Pairwise (· < ·) := by
  have hall : ((as.zipIdx 1).map (·.2)).Pairwise (· < ·) := by
    rw [List.zipIdx_map_snd]
    exact List.pairwise_lt_range'
  exact hall.sublist (List.filter_sublist.map _)

theorem mem_sentNumbers (as : List Attempt) (n : ℕ) :
    n ∈ sentNumbers as ↔ ∃ j a, n = j + 1 ∧ as[j]? = some a ∧ a.isSent = true := by
  constructor
  · intro hn
    obtain ⟨⟨a, _⟩, hmem, rfl⟩ := List.mem_map.1 hn
    obtain ⟨hplace, hsent⟩ := List.mem_filter.1 hmem
    obtain ⟨hle, hget⟩ := List.mk_mem_zipIdx_iff_le_and_getElem?_sub.1 hplace
    exact ⟨_, a, (Nat.sub_add_cancel hle).symm, hget, hsent⟩
  · rintro ⟨j, a, rfl, hget, hsent⟩
    refine List.mem_map.2 ⟨(a, j + 1), List.mem_filter.2 ⟨?_, hsent⟩, rfl⟩
    exact List.mk_mem_zipIdx_iff_le_and_getElem?_sub.2 ⟨Nat.le_add_left 1 j, hget⟩

/-- Requests that carry their numbers still do so when only those that were sent are looked at. -/
theorem sequence?_sent {as : List Attempt}
    (h : ∀ n a, as[n]? = some a → a.request.sequence? = some (toString (n + 1))) :
    (as.filter (·.isSent)).map (·.request.sequence?)
      = (sentNumbers as).map fun n => some (toString n) := by
  have hplaces : as = (as.zipIdx 1).map (·.1) := (List.zipIdx_map_fst 1 as).symm
  rw [sentNumbers, List.map_map]
  conv_lhs => rw [hplaces, List.filter_map, List.map_map]
  refine List.map_congr_left fun place hmem => ?_
  obtain ⟨hle, hget⟩ := List.mk_mem_zipIdx_iff_le_and_getElem?_sub.1 (List.mem_of_mem_filter hmem)
  have hnumber := h _ _ hget
  rwa [Nat.sub_add_cancel hle] at hnumber

/-- The requests of some visits are numbered, and carry the identifier, in order. -/
structure RequestsNumbered (log : List Visit) : Prop where
  /-- The requests that reach a connection are numbered from one on. -/
  numbers : ∀ n a, (log.flatMap Visit.attempts)[n]? = some a →
    a.request.sequence? = some (toString (n + 1))
  /-- The numbers of those that are sent increase, and only those of the others are missing. -/
  sent : ∃ numbers : List ℕ, numbers.Pairwise (· < ·) ∧
    ((log.flatMap Visit.attempts).filter (·.isSent)).map (·.request.sequence?)
      = numbers.map (fun n => some (toString n)) ∧
    ∀ n, n ∈ numbers ↔ ∃ j a, n = j + 1 ∧ (log.flatMap Visit.attempts)[j]? = some a ∧
      a.isSent = true
  /-- Nothing is asked for before the session is opened. -/
  unopened : ∀ before after, log = before ++ after → (∀ u ∈ before, u.opens = false) →
    before.flatMap Visit.attempts = []
  /-- From an opening to the next one a request carries the first identifier that was given
  since, if there is one. -/
  identifier : ∀ before v during after, log = before ++ v :: (during ++ after) →
    v.opens = true → (∀ u ∈ during, u.opens = false) →
    ∀ i a, (v.attempts ++ during.flatMap Visit.attempts)[i]? = some a →
      a.request.header? "Session" = ((v.attempts ++ during.flatMap Visit.attempts).take i).findSome?
        Attempt.identifier?
  /-- The description is asked for without an identifier. -/
  describe : ∀ v ∈ log, ∀ a ∈ v.attempts, a.request.method = .describe →
    a.request.header? "Session" = none

/-- As long as there are fewer than 2³² of them, the requests of every run are numbered, and
they carry the identifier.  A call opens the session where it finds it closed; anywhere else it
is refused. -/
theorem visits_requestsNumbered {location : String} {s : State}
    (hs : State.ofLocation location = .ok s) (calls : List (Peer × Call))
    (hcount : ((World.visits { session := s } calls).flatMap Visit.attempts).length < 2 ^ 32) :
    RequestsNumbered (World.visits { session := s } calls) := by
  have hnew : Reachable { session := s } := .new {} hs
  have hnumbers : ∀ n a,
      ((World.visits { session := s } calls).flatMap Visit.attempts)[n]? = some a →
      a.request.sequence? = some (toString (n + 1)) := by
    intro n a ha
    obtain ⟨hlt, -⟩ := List.getElem?_eq_some_iff.1 ha
    have hzero : s.sequence = 0 := by
      rw [ofLocation_eq_ok hs]
    have hnat : (s.sequence + UInt32.ofNat (n + 1)).toNat = n + 1 := by
      rw [hzero, UInt32.zero_add, UInt32.toNat_ofNat', Nat.mod_eq_of_lt (by omega)]
    have htext : s.numberOf n = toString (n + 1) := congrArg toString hnat
    rw [(visits_counts _ calls).numbers n a ha, htext]
  constructor
  · exact hnumbers
  · exact ⟨_, pairwise_sentNumbers _, sequence?_sent hnumbers, mem_sentNumbers _⟩
  · intro before after hsplit hopens
    obtain ⟨first, -, -, rfl, -⟩ := exists_of_visits_eq_append hsplit
    have hphase : s.phase.isEstablished = false := by
      rw [ofLocation_eq_ok hs]
      rfl
    refine visits_quiet hnew.isCoherent hphase fun u hu => ?_
    obtain ⟨earlier, p, c, rfl⟩ := exists_of_mem_visits hu
    exact visit_connects_of_not_opens (hnew.afterAll earlier).isCoherent (hopens _ hu)
  · intro before v during after hsplit hopens hduring i a ha
    obtain ⟨first, rest, -, -, hrest⟩ := exists_of_visits_eq_append hsplit
    cases rest with
    | nil => cases hrest
    | cons call rest =>
      obtain ⟨rfl, hlater⟩ := List.cons_eq_cons.1 hrest
      obtain ⟨duringCalls, -, -, rfl, -⟩ := exists_of_visits_eq_append hlater
      exact (visits_identifies_of_opens hopens hduring).carried i a ha
  · intro v hv
    obtain ⟨first, p, c, rfl⟩ := exists_of_mem_visits hv
    cases hopens : ((World.afterAll { session := s } first).visit p c).opens with
    | false => exact (visit_records_of_not_opens hopens).2.describe
    | true => exact (visit_records_of_opens hopens).2.describe

/-- A session that is opened twice.  Its first opening ends with a request that cannot be
sent.  On the second connection the first identifier comes with the second track, and a call
to open the session once more is refused. -/
def renamedCalls : List (Peer × Call) := [
  ({ sends := [none, none, some connectionClosed]
     incoming := [
      .ok (.response { Response.success with body := some cameraDescription }),
      .ok (.response { Response.success with headers := [⟨"Session", "7"⟩] })] },
    .change .nullToReady),
  ({}, .change .readyToNull),
  (.answering [{ Response.success with
      headers := [⟨"Session", "8"⟩], body := some cameraDescription }, .success,
      { Response.success with headers := [⟨"session", " 9 ;timeout=60"⟩] }],
    .change .nullToReady),
  ({}, .change .nullToReady),
  ({}, .change .readyToPaused),
  (.answering [{ Response.success with headers := [⟨"Session", "10"⟩] }],
    .change .pausedToPlaying),
  (.answering [.success], .change .readyToNull)]

theorem visits_requestsNumbered_renamed :
    State.ofLocation "rtsp://cam/live" = .ok cameraSession ∧
    ((World.visits { session := cameraSession } renamedCalls).flatMap Visit.attempts).length
      < 2 ^ 32 ∧
    ((World.visits { session := cameraSession } renamedCalls).flatMap Visit.attempts).map
        (fun a => (a.request.method, a.isSent, a.request.sequence?, a.request.header? "Session"))
      = [(.describe, true, some "1", none), (.setup, true, some "2", none),
        (.setup, false, some "3", some "7"), (.describe, true, some "4", none),
        (.setup, true, some "5", none), (.setup, true, some "6", none),
        (.play, true, some "7", some "9"), (.teardown, true, some "8", some "9")] ∧
    RequestsNumbered (World.visits { session := cameraSession } renamedCalls) := by
  have hnew : State.ofLocation "rtsp://cam/live" = .ok cameraSession := rfl
  have hattempts : ((World.visits { session := cameraSession } renamedCalls).flatMap
        Visit.attempts).map
        (fun a => (a.request.method, a.isSent, a.request.sequence?, a.request.header? "Session"))
      = [(.describe, true, some "1", none), (.setup, true, some "2", none),
        (.setup, false, some "3", some "7"), (.describe, true, some "4", none),
        (.setup, true, some "5", none), (.setup, true, some "6", none),
        (.play, true, some "7", some "9"), (.teardown, true, some "8", some "9")] := by
    decide +kernel
  have hcount : ((World.visits { session := cameraSession } renamedCalls).flatMap
      Visit.attempts).length < 2 ^ 32 := by
    have hlength := congrArg List.length hattempts
    rw [List.length_map] at hlength
    rw [hlength]
    decide
  exact ⟨hnew, hcount, hattempts, visits_requestsNumbered hnew renamedCalls hcount⟩

end MediaTransport.Session
