import MediaTransport.Proofs.Rtsp.Delivery
import MediaTransport.Proofs.Rtsp.Head
import MediaTransport.Proofs.Session.Exchange

/-!
# Plans

What a session means to ask for is a *plan*: a list of requests without the parts
that depend on earlier answers.  To open a session is to ask for the description
and to set up each *track*, which is a section with a control text; there are
channels for 128 of them.

A plan is carried out in order, and the first request that is not confirmed ends
it (`Attempts`).
-/

namespace MediaTransport.Session

open Rtsp Sdp

/-! ## Tracks -/

/-- A section that can be set up. -/
structure Track where
  /-- The number of the section. -/
  index : ℕ
  /-- The section. -/
  media : Section
  /-- Its control text. -/
  control : String

/-- The sections with a control text, in order.  The first section has a given
number. -/
def tracksFrom (index : ℕ) (sections : List Section) : List Track :=
  (sections.zipIdx index).filterMap fun (media, index) =>
    media.control?.map fun control => ⟨index, media, control⟩

/-- The tracks of a description. -/
def tracks (d : Description) : List Track :=
  tracksFrom 0 d.media

theorem tracksFrom_cons_some {media : Section} {control : String}
    (h : media.control? = some control) (index : ℕ) (rest : List Section) :
    tracksFrom index (media :: rest) = ⟨index, media, control⟩ :: tracksFrom (index + 1) rest := by
  rw [tracksFrom, List.zipIdx_cons]
  exact List.filterMap_cons_some (by simp [h])

theorem tracksFrom_cons_none {media : Section} (h : media.control? = none) (index : ℕ)
    (rest : List Section) : tracksFrom index (media :: rest) = tracksFrom (index + 1) rest := by
  rw [tracksFrom, List.zipIdx_cons]
  exact List.filterMap_cons_none (by simp [h])

/-- The number of tracks for which there are channels. -/
def trackLimit : ℕ := 128

/-- The delivery that is asked for the track of a number. -/
def requested (i : ℕ) : Delivery :=
  ⟨interleavedProfile, true, UInt8.ofNat (2 * i), UInt8.ofNat (2 * i + 1), none⟩

theorem request?_eq (i : ℕ) :
    Delivery.request? i = if i < trackLimit then some (requested i) else none := by
  have hlimit : 2 * i + 1 < 256 ↔ i < trackLimit := by
    unfold trackLimit
    omega
  simp only [Delivery.request?, requested, hlimit]

/-- The stream of the track of a number, set up with a response. -/
def Track.stream (t : Track) (l : Location) (i : ℕ) (r : Response) : Stream :=
  ⟨t.index, t.media, l.streamUri t.control,
    ((r.header? "Transport").bind Delivery.parse?).getD (requested i)⟩

/-! ## What is asked for -/

/-- A request without its number and the identifier of the session. -/
structure Ask where
  /-- What is asked for. -/
  method : Method
  /-- What it is asked of. -/
  uri : String
  /-- The headers that belong to the method. -/
  headers : List Header

/-- Asking for the description of a location. -/
def describing (l : Location) : Ask :=
  ⟨.describe, l.text, [⟨"Accept", "application/sdp"⟩]⟩

/-- Setting up the track of a number. -/
def settingUp (l : Location) (i : ℕ) (t : Track) : Ask :=
  ⟨.setup, l.streamUri t.control, [⟨"Transport", (requested i).render⟩]⟩

/-- Setting up tracks of which the first has a given number, as long as there are
channels. -/
def settingUpFrom (l : Location) (i : ℕ) (ts : List Track) : List Ask :=
  (ts.take (trackLimit - i)).mapIdx fun j t => settingUp l (i + j) t

theorem settingUpFrom_nil (l : Location) (i : ℕ) : settingUpFrom l i [] = [] := by
  simp [settingUpFrom]

theorem settingUpFrom_full {i : ℕ} (h : trackLimit ≤ i) (l : Location) (ts : List Track) :
    settingUpFrom l i ts = [] := by
  simp [settingUpFrom, Nat.sub_eq_zero_of_le h]

theorem settingUpFrom_cons {i : ℕ} (h : i < trackLimit) (l : Location) (t : Track)
    (ts : List Track) :
    settingUpFrom l i (t :: ts) = settingUp l i t :: settingUpFrom l (i + 1) ts := by
  have hroom : trackLimit - i = trackLimit - (i + 1) + 1 := by omega
  rw [settingUpFrom, hroom, List.take_succ_cons, List.mapIdx_cons, settingUpFrom]
  simp [Nat.add_assoc, Nat.add_comm 1]

/-- The request stands for what is asked, under a number. -/
def Ask.IsAskedBy (a : Ask) (n : UInt32) (request : Request) : Prop :=
  ∃ identifier : Option String, request = ⟨a.method, a.uri,
    userAgent :: ⟨"CSeq", toString n⟩ :: (identifier.map fun value => ⟨"Session", value⟩).toList
      ++ a.headers⟩

theorem request_eq (s : State) (method : Method) (uri : String) (headers : List Header) :
    s.request method uri headers = ⟨method, uri, userAgent :: ⟨"CSeq", toString s.sequence⟩
      :: (s.identifier.map fun value => ⟨"Session", value⟩).toList ++ headers⟩ := by
  unfold State.request
  cases s.identifier <;> rfl

theorem request_isAskedBy (s : State) (a : Ask) :
    a.IsAskedBy s.sequence (s.request a.method a.uri a.headers) :=
  ⟨s.identifier, request_eq s a.method a.uri a.headers⟩

/-- On a connection what is asked is confirmed or not. -/
theorem exchange_asks (w : World) (h : w.session.isConnected = true) (a : Ask) :
    ∃ request, a.IsAskedBy (w.session.sequence + 1) request ∧
      ((∃ r, w.peer.Confirms 0 r ∧
        (exchange a.method a.uri a.headers).run.run w = (.ok r, w.confirmed request)) ∨
      ((¬∃ r, w.peer.Confirms 0 r) ∧ ∃ e p,
        (exchange a.method a.uri a.headers).run.run w = (.error e, w.refused request p))) :=
  ⟨_, request_isAskedBy w.session.counted a, exchange_run w h a.method a.uri a.headers⟩

/-! ## Channels -/

/-- The channels that a request asks for, as its header says. -/
def channels (request : Request) : List UInt8 :=
  match (request.header? "Transport").bind Delivery.parse? with
  | some d => [d.mediaChannel, d.reportChannel]
  | none => []

/-- Only the headers that belong to the method are about delivery. -/
theorem transport_of_isAskedBy {a : Ask} {n : UInt32} {request : Request}
    (h : a.IsAskedBy n request) :
    request.header? "Transport" = headerValue? a.headers "Transport" := by
  have hagent : Text.equalsIgnoringCase userAgent.name.toList "Transport".toList = false := by
    decide
  have hnumber : Text.equalsIgnoringCase "CSeq".toList "Transport".toList = false := by decide
  have hsession : Text.equalsIgnoringCase "Session".toList "Transport".toList = false := by decide
  obtain ⟨identifier, rfl⟩ := h
  have hidentifier : headerValue? ((identifier.map fun value => ⟨"Session", value⟩).toList
      ++ a.headers) "Transport" = headerValue? a.headers "Transport" := by
    cases identifier with
    | none => rfl
    | some value => exact headerValue?_cons_other (h := ⟨"Session", value⟩) hsession _
  calc
    headerValue? (userAgent :: ⟨"CSeq", toString n⟩
        :: ((identifier.map fun value => ⟨"Session", value⟩).toList ++ a.headers)) "Transport"
      = headerValue? (⟨"CSeq", toString n⟩
        :: ((identifier.map fun value => ⟨"Session", value⟩).toList ++ a.headers)) "Transport" :=
      headerValue?_cons_other hagent _
    _ = headerValue? ((identifier.map fun value => ⟨"Session", value⟩).toList ++ a.headers)
        "Transport" := headerValue?_cons_other (h := ⟨"CSeq", toString n⟩) hnumber _
    _ = headerValue? a.headers "Transport" := hidentifier

theorem channels_describing {l : Location} {n : UInt32} {request : Request}
    (h : (describing l).IsAskedBy n request) : channels request = [] := by
  have hnone : headerValue? (describing l).headers "Transport" = none := rfl
  rw [channels, transport_of_isAskedBy h, hnone]
  rfl

theorem channels_settingUp {l : Location} {i : ℕ} {t : Track} {n : UInt32} {request : Request}
    (h : (settingUp l i t).IsAskedBy n request) :
    channels request = [UInt8.ofNat (2 * i), UInt8.ofNat (2 * i + 1)] := by
  have hname : Text.equalsIgnoringCase "Transport".toList "Transport".toList = true := by decide
  have hvalue : headerValue? (settingUp l i t).headers "Transport" = some (requested i).render :=
    headerValue?_cons_same (h := ⟨"Transport", (requested i).render⟩) hname _
  have hprofile : Text.IsTrimmed interleavedProfile.toList :=
    Text.isTrimmed_of_trim_eq (by decide)
  have hseparator : ';' ∉ interleavedProfile.toList := by decide
  have hread : Delivery.parse? (requested i).render = some (requested i) :=
    Delivery.parse?_render ⟨hseparator, hprofile⟩
  rw [channels, transport_of_isAskedBy h, hvalue, Option.bind_some, hread]
  rfl

theorem toNat_channels {i : ℕ} (hi : i < trackLimit) :
    [UInt8.ofNat (2 * i), UInt8.ofNat (2 * i + 1)].map UInt8.toNat = [2 * i, 2 * i + 1] := by
  unfold trackLimit at hi
  have hmedia : (UInt8.ofNat (2 * i)).toNat = 2 * i :=
    UInt8.toNat_ofNat_of_lt' (show 2 * i < 256 by omega)
  have hreport : (UInt8.ofNat (2 * i + 1)).toNat = 2 * i + 1 :=
    UInt8.toNat_ofNat_of_lt' (show 2 * i + 1 < 256 by omega)
  rw [List.map_cons, List.map_cons, List.map_nil, hmedia, hreport]

/-- The channels of two tracks are different. -/
theorem disjoint_channels {i j : ℕ} (hij : i < j) (hj : j < trackLimit) :
    List.Disjoint [UInt8.ofNat (2 * i), UInt8.ofNat (2 * i + 1)]
      [UInt8.ofNat (2 * j), UInt8.ofNat (2 * j + 1)] := by
  intro c hci hcj
  have hi : c.toNat ∈ [2 * i, 2 * i + 1] := by
    rw [← toNat_channels (show i < trackLimit by omega)]
    exact List.mem_map_of_mem hci
  have hj : c.toNat ∈ [2 * j, 2 * j + 1] := by
    rw [← toNat_channels hj]
    exact List.mem_map_of_mem hcj
  simp only [List.mem_cons, List.not_mem_nil, or_false] at hi hj
  omega

/-! ## Carrying out a plan -/

/-- Requests that are confirmed are sent. -/
theorem Peer.mapIdx_event {p : Peer} {requests : List Request}
    (h : ∀ j < requests.length, ∃ r, p.Confirms j r) :
    requests.mapIdx p.event = requests.map .sent := by
  rw [List.mapIdx_eq_iff]
  intro j
  rw [List.getElem?_map]
  cases hj : requests[j]? with
  | none => rfl
  | some request =>
    obtain ⟨hlt, -⟩ := List.getElem?_eq_some_iff.mp hj
    obtain ⟨r, hr⟩ := h j hlt
    rw [Option.map_some, Option.map_some, hr.event]

/-- The requests that are attempted of a plan, numbered from `n` on. -/
structure Attempts (p : Peer) (n : UInt32) (plan : List Ask) (requests : List Request) : Prop where
  /-- They follow the plan. -/
  follows : ∀ (j : ℕ) (request : Request), requests[j]? = some request →
    ∃ a : Ask, plan[j]? = some a ∧ a.IsAskedBy (n + UInt32.ofNat j) request
  /-- A request of the plan is attempted exactly when all before it are confirmed. -/
  reaches : ∀ j, j < requests.length ↔ j < plan.length ∧ ∀ i < j, ∃ r, p.Confirms i r

namespace Attempts

variable {p : Peer} {n : UInt32} {a : Ask} {plan : List Ask} {request : Request}
  {requests : List Request}

theorem nil (p : Peer) (n : UInt32) : Attempts p n [] [] where
  follows := by
    intro j request h
    cases h
  reaches := by simp

/-- After a request that is confirmed the rest of the plan is carried out. -/
theorem confirmed {r : Response} (h : p.Confirms 0 r) (asked : a.IsAskedBy n request)
    (rest : Attempts p.next (n + 1) plan requests) :
    Attempts p n (a :: plan) (request :: requests) where
  follows := by
    intro j q hq
    cases j with
    | zero =>
      cases hq
      exact ⟨a, rfl, by simpa using asked⟩
    | succ j =>
      obtain ⟨b, hb, hasked⟩ := rest.follows j q hq
      refine ⟨b, hb, ?_⟩
      have hnumber : n + UInt32.ofNat (j + 1) = n + 1 + UInt32.ofNat j := by
        rw [UInt32.ofNat_add]
        ac_rfl
      rw [hnumber]
      exact hasked
  reaches := by
    intro j
    cases j with
    | zero => simp
    | succ j =>
      rw [List.length_cons, List.length_cons, Nat.add_lt_add_iff_right,
        Nat.add_lt_add_iff_right, h.forall_succ, rest.reaches j]

/-- A request that is not confirmed is the last one. -/
theorem refused (h : ¬∃ r, p.Confirms 0 r) (asked : a.IsAskedBy n request) :
    Attempts p n (a :: plan) [request] where
  follows := by
    intro j q hq
    cases j with
    | zero =>
      cases hq
      exact ⟨a, rfl, by simpa using asked⟩
    | succ j => cases hq
  reaches := by
    intro j
    cases j with
    | zero => simp
    | succ j =>
      constructor
      · intro hj
        simp at hj
      · rintro ⟨-, hall⟩
        exact absurd (hall 0 (Nat.zero_lt_succ j)) h

/-- When all of the plan is confirmed, all of it is attempted. -/
theorem length_eq (h : Attempts p n plan requests)
    (hall : ∀ j < plan.length, ∃ r, p.Confirms j r) : requests.length = plan.length := by
  have hreaches : ∀ j, j < requests.length ↔ j < plan.length := by
    intro j
    rw [h.reaches j]
    constructor
    · exact And.left
    · intro hj
      exact ⟨hj, fun i hi => hall i (by omega)⟩
  have hle := hreaches plan.length
  have hge := hreaches requests.length
  omega

/-- When all of the plan is confirmed, all of it is sent. -/
theorem all_sent (h : Attempts p n plan requests)
    (hall : ∀ j < plan.length, ∃ r, p.Confirms j r) :
    requests.mapIdx p.event = requests.map .sent :=
  Peer.mapIdx_event fun j hj => hall j (h.length_eq hall ▸ hj)

end Attempts

end MediaTransport.Session
