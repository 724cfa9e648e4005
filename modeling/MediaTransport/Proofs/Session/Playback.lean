import MediaTransport.Proofs.Session.Lifecycle

/-!
# Playback

While a session plays, a call for media takes the messages that come in up to the first one
that is an error or a frame with media, and returns that one (`Takes`).  What it passes over
are responses and reports.

So no call loses a frame: the media in the messages before a call is what the call returns
and then the media in the messages that it leaves (`Takes.conserves`).  Over a number of calls
that adds up to the frames that were returned and the media that is still to come
(`Playing.conserves`), and as every call takes a message while there is one, calls enough
return all of it (`Playing.frames_eq`).
-/

namespace MediaTransport.Session

open Rtsp

/-! ## Media among the messages -/

/-- A frame with media has no second byte, or one that is not a type of reports. -/
def CarriesMedia (f : Frame) : Prop :=
  ∀ kind, f.payload[1]? = some kind → kind < 200 ∨ 204 < kind

/-- A frame carries media unless its second byte is that of a report. -/
theorem isReport_eq_false_iff {f : Frame} : f.isReport = false ↔ CarriesMedia f := by
  obtain ⟨channel, payload⟩ := f
  rcases payload with _ | ⟨first, _ | ⟨kind, rest⟩⟩
  · simp [Frame.isReport, CarriesMedia]
  · simp [Frame.isReport, CarriesMedia]
  · simp [Frame.isReport, CarriesMedia, UInt8.lt_iff_toNat_lt, UInt8.le_iff_toNat_le]
    omega

instance (f : Frame) : Decidable (CarriesMedia f) :=
  decidable_of_iff _ isReport_eq_false_iff

/-- The media in some messages, in order. -/
def mediaIn (messages : List (Except Error Message)) : List Frame :=
  messages.filterMap fun
    | .ok (.frame f) => if CarriesMedia f then some f else none
    | _ => none

/-- A message that a call for media passes over. -/
def IsPassedOver : Except Error Message → Prop
  | .error _ => False
  | .ok (.response _) => True
  | .ok (.frame f) => ¬CarriesMedia f

theorem mediaIn_append (first rest : List (Except Error Message)) :
    mediaIn (first ++ rest) = mediaIn first ++ mediaIn rest :=
  List.filterMap_append

/-- What is passed over has no media in it. -/
theorem mediaIn_eq_nil {messages : List (Except Error Message)}
    (h : ∀ m ∈ messages, IsPassedOver m) : mediaIn messages = [] := by
  rw [mediaIn, List.filterMap_eq_nil_iff]
  intro m hm
  have hpassed := h m hm
  rcases m with e | (r | f)
  · cases hpassed
  · rfl
  · exact if_neg hpassed

/-! ## One call -/

/-- A call takes the messages up to the first one that it does not pass over. -/
inductive Takes : List (Except Error Message) → Except Error Frame →
    List (Except Error Message) → Prop
  | media {passed rest : List (Except Error Message)} {f : Frame}
      (hpassed : ∀ m ∈ passed, IsPassedOver m) (hf : CarriesMedia f) :
      Takes (passed ++ .ok (.frame f) :: rest) (.ok f) rest
  | failed {passed rest : List (Except Error Message)} {e : Error}
      (hpassed : ∀ m ∈ passed, IsPassedOver m) :
      Takes (passed ++ .error e :: rest) (.error e) rest
  | closed {passed : List (Except Error Message)} (hpassed : ∀ m ∈ passed, IsPassedOver m) :
      Takes passed (.error connectionClosed) []

namespace Takes

variable {messages rest : List (Except Error Message)} {outcome : Except Error Frame}

/-- A message without media takes no part in what is handed on. -/
theorem passOver {m : Except Error Message} (hm : IsPassedOver m)
    (h : Takes messages outcome rest) : Takes (m :: messages) outcome rest := by
  cases h with
  | media hpassed hf => exact .media (List.forall_mem_cons.2 ⟨hm, hpassed⟩) hf
  | failed hpassed => exact .failed (List.forall_mem_cons.2 ⟨hm, hpassed⟩)
  | closed hpassed => exact .closed (List.forall_mem_cons.2 ⟨hm, hpassed⟩)

/-- No media is lost. -/
theorem conserves (h : Takes messages outcome rest) :
    mediaIn messages = outcome.toOption.toList ++ mediaIn rest := by
  cases h with
  | media hpassed hf =>
    rw [mediaIn_append, mediaIn_eq_nil hpassed, List.nil_append]
    simp [mediaIn, hf, Except.toOption]
  | failed hpassed =>
    rw [mediaIn_append, mediaIn_eq_nil hpassed, List.nil_append]
    rfl
  | closed hpassed => exact mediaIn_eq_nil hpassed

theorem length_le (h : Takes messages outcome rest) : rest.length ≤ messages.length - 1 := by
  cases h with
  | media | failed =>
    rw [List.length_append, List.length_cons]
    omega
  | closed => exact Nat.zero_le _

end Takes

/-- Asking for media takes messages as a call does. -/
theorem takes_nextMedia (messages : List (Except Error Message)) :
    Takes messages (nextMedia messages).1 (nextMedia messages).2 := by
  have hnone : ∀ m ∈ ([] : List (Except Error Message)), IsPassedOver m := nofun
  induction messages with
  | nil => exact .closed hnone
  | cons m rest ih =>
    rcases m with e | (r | f)
    · exact .failed hnone
    · exact ih.passOver trivial
    · cases hreport : f.isReport with
      | false =>
        rw [nextMedia, hreport]
        exact .media hnone (isReport_eq_false_iff.1 hreport)
      | true =>
        rw [nextMedia, hreport]
        refine ih.passOver fun hmedia => ?_
        rw [isReport_eq_false_iff.2 hmedia] at hreport
        cases hreport

/-! ## Successive calls -/

/-- What is left after a number of calls for media. -/
def World.afterReceiving (w : World) : ℕ → World
  | 0 => w
  | n + 1 => (receivePacket.run.run (w.afterReceiving n)).2

/-- What the call of a number returns. -/
def World.received (w : World) (n : ℕ) : Except Error Frame :=
  (receivePacket.run.run (w.afterReceiving n)).1

/-- The frames that a number of calls return. -/
def World.framesReceived (w : World) (n : ℕ) : List Frame :=
  ((List.range n).map w.received).filterMap Except.toOption

theorem framesReceived_succ (w : World) (n : ℕ) :
    w.framesReceived (n + 1) = w.framesReceived n ++ (w.received n).toOption.toList := by
  rw [World.framesReceived, List.range_succ, List.map_append, List.filterMap_append]
  cases hoption : (w.received n).toOption <;> simp [World.framesReceived, hoption]

/-- What calls for media do in a session that plays. -/
structure Playing (w : World) : Prop where
  /-- Each call takes the messages up to the one that it returns. -/
  takes : ∀ n, Takes (w.afterReceiving n).peer.incoming (w.received n)
    (w.afterReceiving (n + 1)).peer.incoming
  /-- Nothing changes but what comes in. -/
  unchanged : ∀ n, w.afterReceiving n
    = { w with peer := { w.peer with incoming := (w.afterReceiving n).peer.incoming } }
  /-- The frames that were returned, and then the media that is still to come, are the media
  that came in, in order. -/
  conserves : ∀ n, w.framesReceived n ++ mediaIn (w.afterReceiving n).peer.incoming
    = mediaIn w.peer.incoming
  /-- After as many calls as messages everything was returned. -/
  exhausts : ∀ n, w.peer.incoming.length ≤ n → w.framesReceived n = mediaIn w.peer.incoming

/-- While a session plays, receiving moves nothing but the messages of the peer. -/
theorem receivePacket_playing {w : World} (hphase : w.session.phase = .playing)
    (hconnected : w.session.isConnected = true) :
    receivePacket.run.run w = ((nextMedia w.peer.incoming).1,
      { w with peer := { w.peer with incoming := (nextMedia w.peer.incoming).2 } }) := by
  have hadmitted : ¬(w.session.phase ≠ .playing ∨ (!w.session.isConnected) = true) := by
    simp [hphase, hconnected]
  unfold receivePacket
  rw [run_get_bind]
  simp only [if_neg hadmitted]
  rfl

section

variable {w : World}

/-- However often it receives, the session itself stays as it is. -/
theorem session_afterReceiving (w : World) (n : ℕ) : (w.afterReceiving n).session = w.session := by
  induction n with
  | zero => rfl
  | succ n ih =>
    obtain ⟨outcome, p, hrun⟩ := receivePacket_run (w.afterReceiving n)
    rw [World.afterReceiving, hrun]
    exact ih

/-- Each call is one of a session that plays on its connection. -/
theorem receivePacket_afterReceiving (hphase : w.session.phase = .playing)
    (hconnected : w.session.isConnected = true) (n : ℕ) :
    receivePacket.run.run (w.afterReceiving n) = ((nextMedia (w.afterReceiving n).peer.incoming).1,
      { w.afterReceiving n with peer := { (w.afterReceiving n).peer with
        incoming := (nextMedia (w.afterReceiving n).peer.incoming).2 } }) := by
  apply receivePacket_playing
  · rw [session_afterReceiving, hphase]
  · rw [session_afterReceiving, hconnected]

/-- A connected session that is playing receives frames in order. -/
theorem playing_of_connected (hphase : w.session.phase = .playing)
    (hconnected : w.session.isConnected = true) : Playing w := by
  have hrun := receivePacket_afterReceiving hphase hconnected
  have htakes : ∀ n, Takes (w.afterReceiving n).peer.incoming (w.received n)
      (w.afterReceiving (n + 1)).peer.incoming := by
    intro n
    rw [World.received, World.afterReceiving, hrun]
    exact takes_nextMedia _
  have hconserves : ∀ n, w.framesReceived n ++ mediaIn (w.afterReceiving n).peer.incoming
      = mediaIn w.peer.incoming := by
    intro n
    induction n with
    | zero => rfl
    | succ n ih => rw [framesReceived_succ, List.append_assoc, ← (htakes n).conserves, ih]
  -- a call takes one message at least, so none is left after as many calls
  have hlength : ∀ n, (w.afterReceiving n).peer.incoming.length ≤ w.peer.incoming.length - n := by
    intro n
    induction n with
    | zero => exact Nat.le_refl _
    | succ n ih =>
      have hle := (htakes n).length_le
      omega
  constructor
  · exact htakes
  · intro n
    induction n with
    | zero => rfl
    | succ n ih =>
      rw [World.afterReceiving, hrun, ih]
  · exact hconserves
  · intro n hn
    have hnone : (w.afterReceiving n).peer.incoming = [] := by
      apply List.eq_nil_of_length_eq_zero
      have hle := hlength n
      omega
    have hall := hconserves n
    rw [hnone] at hall
    simpa [mediaIn] using hall

/-- Otherwise nothing is received, and nothing is lost. -/
theorem afterReceiving_idle (hidle : w.session.phase ≠ .playing) (n : ℕ) :
    w.afterReceiving n = w := by
  induction n with
  | zero => rfl
  | succ n ih => rw [World.afterReceiving, ih, receivePacket_refused (.inl hidle)]

end

/-- Calls for media in a session that plays return the media that comes in, in order, and
change nothing but what comes in.  In any other phase they fail and change nothing. -/
theorem receivePacket_inOrder {w : World} (h : Reachable w) (p : Peer) :
    (w.session.phase = .playing → Playing { w with peer := p }) ∧
    (w.session.phase ≠ .playing → ∀ n,
      World.received { w with peer := p } n = .error .notActive ∧
      World.afterReceiving { w with peer := p } n = { w with peer := p }) := by
  constructor
  · intro hphase
    have hconnected : w.session.isConnected = true :=
      (h.isCoherent.established (.inr (.inr hphase))).1
    exact playing_of_connected (w := { w with peer := p }) hphase hconnected
  · intro hidle n
    have hstays := afterReceiving_idle (w := { w with peer := p }) hidle n
    have hrefused := receivePacket_refused (w := { w with peer := p }) (.inl hidle)
    refine ⟨?_, hstays⟩
    rw [World.received, hstays, hrefused]

/-- A camera whose first track plays. -/
def playingCamera : World :=
  World.afterAll { session := cameraSession } [
    (twoTrackCamera, .change .nullToReady),
    ({}, .change .readyToPaused),
    ({ incoming := [.ok (.response .success)] }, .change .pausedToPlaying)]

/-- An answer that nobody has asked for, a report, a frame of one byte, an error and a packet. -/
def mixedMessages : List (Except Error Message) := [
  .ok (.response .notFound),
  .ok (.frame ⟨1, [0x80, 200, 0, 6]⟩),
  .ok (.frame ⟨0, [0x80]⟩),
  .error (.protocol .emptyMessage),
  .ok (.frame ⟨0, [0x80, 96, 0, 1]⟩)]

theorem receivePacket_inOrder_mixed :
    Reachable playingCamera ∧ playingCamera.session.phase = .playing ∧
    Playing { playingCamera with peer := { incoming := mixedMessages } } ∧
    World.received { playingCamera with peer := { incoming := mixedMessages } } 1
      = .error (.protocol .emptyMessage) ∧
    World.framesReceived { playingCamera with peer := { incoming := mixedMessages } } 5
      = [⟨0, [0x80]⟩, ⟨0, [0x80, 96, 0, 1]⟩] ∧
    World.received { session := cameraSession, peer := { incoming := mixedMessages } } 3
      = .error .notActive := by
  have hnew : State.ofLocation "rtsp://cam/live" = .ok cameraSession := rfl
  have hreachable : Reachable playingCamera := Reachable.afterAll (.new {} hnew) _
  have hphase : playingCamera.session.phase = .playing := by decide +kernel
  have hplaying := (receivePacket_inOrder hreachable { incoming := mixedMessages }).1 hphase
  have hclosed : cameraSession.phase ≠ .playing := by decide
  have hidle := (receivePacket_inOrder (.new {} hnew) { incoming := mixedMessages }).2 hclosed 3
  refine ⟨hreachable, hphase, hplaying, by decide +kernel, ?_, hidle.1⟩
  rw [hplaying.exhausts 5 (Nat.le_refl 5)]
  decide

end MediaTransport.Session
