import Mathlib.Data.List.SplitBy
import MediaTransport.Proofs.Payload.Pieces
import MediaTransport.Proofs.Text.Utf8

/-!
# Conservation of the payload

What a payloader sends in its whole life is cut into units at the markers, and every
unit is accounted for by one flush.

A *ledger* keeps what calls ask for, without bytes and bits: the caps that wait for
the next flush, how many there have been, and the events that are held (`Ledger`).  Its
entries are the flushes of a life (`flushes`), and each says what its unit has to be
(`Carries`).  A payloader *tracks* a ledger (`Tracks`).  Every call keeps this up, and the
packets that it sends are the units of its flushes (`Tracks.perform`); flushes that
have nothing to send leave no unit.
-/

namespace MediaTransport.Payload

open Text

/-! ## Calls -/

/-- A call on a payloader. -/
inductive Call where
  /-- Set the size of the largest packet. -/
  | setMtu (mtu : ℕ)
  /-- Take new caps. -/
  | setCaps (caps : String)
  /-- Take an event. -/
  | event (e : Event)
  /-- Send a buffer. -/
  | buffer (b : Buffer)
  /-- Send what is queued. -/
  | flush
  /-- Restart the stream. -/
  | reset

/-- The packets that a call sends.  A size that is refused changes nothing. -/
def Call.perform : Call → StateM Payloader (List (List UInt8))
  | .setMtu mtu => fun p => ([], (p.withMtu mtu).toOption.getD p)
  | .setCaps caps => Payloader.setCaps caps
  | .event e => Payloader.handleEvent e
  | .buffer b => Payloader.handleBuffer b
  | .flush => Payloader.flush
  | .reset => fun p => ([], p.reset)

/-- The packets that some calls send, in order. -/
def Call.performAll : List Call → StateM Payloader (List (List UInt8))
  | [] => return []
  | call :: rest => do
    let packets ← call.perform
    let more ← performAll rest
    return packets ++ more

/-! ## Flushes -/

/-- Caps on the wire: their number of bytes with the null character, the caps, and the
null character. -/
def announced (caps : String) : List UInt8 :=
  Varint.encode (UInt64.ofNat (caps.utf8ByteSize + 1)) ++ Utf8.encode caps ++ [0]

theorem framed_capsBytes (caps : String) : framed (capsBytes caps) = announced caps := by
  simp [framed, capsBytes, announced, Utf8.length_encode]

/-- What a flush is made for. -/
inductive Cargo where
  /-- An event of a type. -/
  | event (code : UInt8) (text : String)
  /-- A buffer. -/
  | buffer (b : Buffer)
  /-- Nothing but what waits. -/
  | nothing

/-- The bytes of a cargo: an event has its number of bytes in front, a buffer has not. -/
def Cargo.bytes : Cargo → List UInt8
  | .event _ text => Varint.encode (UInt64.ofNat text.utf8ByteSize) ++ Utf8.encode text
  | .buffer b => b.data
  | .nothing => []

/-- The flags of a cargo.  Only buffers have any. -/
def Cargo.flags : Cargo → BufferFlags
  | .buffer b => b.flags
  | _ => {}

/-- The event type of a cargo. -/
def Cargo.eventType : Cargo → UInt8
  | .event code _ => code
  | _ => 0

/-- A flush. -/
structure Flush where
  /-- The caps that came since the flush before, in order. -/
  caps : List String
  /-- How many caps have come so far. -/
  count : ℕ
  /-- What the flush is made for. -/
  cargo : Cargo

/-- The bytes of the unit of a flush. -/
def Flush.bytes (f : Flush) : List UInt8 :=
  f.caps.flatMap announced ++ f.cargo.bytes

/-- The version of the last of a number of caps.  The first ones have version zero. -/
def versionOf (count : ℕ) : ℕ := (count - 1) % 8

/-- The sub-header of a packet that starts at an offset in the unit of a flush. -/
def Flush.header (f : Flush) (offset : ℕ) : SubHeader where
  capsInline := !f.caps.isEmpty
  capsVersion := UInt8.ofNat (versionOf f.count)
  deltaUnit := f.cargo.flags.deltaUnit
  media1 := f.cargo.flags.media1
  media2 := f.cargo.flags.media2
  media3 := f.cargo.flags.media3
  eventType := f.cargo.eventType
  offset := UInt32.ofNat offset

/-! ## Ledgers -/

/-- The event type under which a kind of events is carried.  Other kinds are not carried. -/
inductive EventKind.HasType : EventKind → UInt8 → Prop where
  | tag : HasType .tag 1
  | customDownstream : HasType .customDownstream 2
  | customBoth : HasType .customBoth 2

/-- A kind has a code on the wire just when it is one of the two that have a type. -/
theorem code?_eq_some_iff {kind : EventKind} {code : UInt8} :
    kind.code? = some code ↔ kind.HasType code := by
  constructor
  · intro h
    cases kind <;> cases h <;> constructor
  · rintro (_ | _ | _) <;> rfl

/-- Type zero is that of units without an event. -/
theorem EventKind.HasType.ne_zero {kind : EventKind} {code : UInt8} (h : kind.HasType code) :
    code ≠ 0 := by
  cases h <;> decide

/-- What calls have asked for. -/
structure Ledger where
  /-- How many caps have come. -/
  count : ℕ := 0
  /-- The caps that wait for the next flush. -/
  waiting : List String := []
  /-- Whether caps have come since the start or the last reset. -/
  hasCaps : Bool := false
  /-- The events that wait for caps. -/
  held : List Event := []

namespace Ledger

/-- The flush that is made for a cargo. -/
def flush (l : Ledger) (c : Cargo) : Flush := ⟨l.waiting, l.count, c⟩

/-- The ledger after a flush. -/
def cleared (l : Ledger) : Ledger := { l with waiting := [] }

/-- The flushes for an event.  Tags have type 1 and custom events type 2, and other events are not
carried. -/
def sendEvent (l : Ledger) (e : Event) : List Flush × Ledger :=
  match e.kind with
  | .tag => ([l.flush (.event 1 e.text)], l.cleared)
  | .customDownstream | .customBoth => ([l.flush (.event 2 e.text)], l.cleared)
  | .other => ([], l)

/-- An event that has a type is flushed by itself. -/
theorem sendEvent_carried (l : Ledger) {e : Event} {code : UInt8} (h : e.kind.HasType code) :
    l.sendEvent e = ([l.flush (.event code e.text)], l.cleared) := by
  obtain ⟨kind, text⟩ := e
  cases h <;> rfl

/-- Any other one is dropped, and what waits goes on waiting. -/
theorem sendEvent_uncarried (l : Ledger) {e : Event} (h : e.kind.code? = none) :
    l.sendEvent e = ([], l) := by
  obtain ⟨kind, text⟩ := e
  cases kind <;> cases h
  rfl

theorem sendEvent_cases (l : Ledger) (e : Event) : l.sendEvent e = ([], l) ∨
    ∃ code, l.sendEvent e = ([l.flush (.event code e.text)], l.cleared) := by
  cases hcode : e.kind.code? with
  | none => exact .inl (l.sendEvent_uncarried hcode)
  | some code => exact .inr ⟨code, l.sendEvent_carried (code?_eq_some_iff.1 hcode)⟩

/-- The flushes for some events, one for each. -/
def sendEvents (l : Ledger) : List Event → List Flush × Ledger
  | [] => ([], l)
  | e :: rest =>
    let (first, l) := l.sendEvent e
    let (others, l) := l.sendEvents rest
    (first ++ others, l)

/-- Events are no caps. -/
theorem count_sendEvents (l : Ledger) (es : List Event) : (l.sendEvents es).2.count = l.count := by
  induction es generalizing l with
  | nil => rfl
  | cons e rest ih =>
    have hfirst : (l.sendEvent e).2.count = l.count := by
      obtain hnone | ⟨code, hsent⟩ := l.sendEvent_cases e
      · rw [hnone]
      · rw [hsent]
        rfl
    exact (ih (l.sendEvent e).2).trans hfirst

/-- The ledger with more caps. -/
def queueCaps (l : Ledger) (caps : String) : Ledger :=
  { l with count := l.count + 1, waiting := l.waiting ++ [caps] }

/-- The flushes of a call.  Events that are held go out before the caps that they
waited for are queued. -/
def step (l : Ledger) : Call → List Flush × Ledger
  | .setMtu _ => ([], l)
  | .setCaps caps =>
    let (sent, l) := { l with hasCaps := true, held := [] }.sendEvents l.held
    (sent, l.queueCaps caps)
  | .event e => if l.hasCaps then l.sendEvent e else ([], { l with held := l.held ++ [e] })
  | .buffer b => ([l.flush (.buffer b)], l.cleared)
  | .flush => ([l.flush .nothing], l.cleared)
  | .reset => ([], { l with hasCaps := false, held := [] })

/-- The flushes of some calls. -/
def flushes (l : Ledger) : List Call → List Flush
  | [] => []
  | call :: rest => (l.step call).1 ++ (l.step call).2.flushes rest

end Ledger

/-! ## Units -/

/-- A unit is what a flush has to send. -/
structure Carries (unit : List Piece) (f : Flush) : Prop where
  /-- There are pieces. -/
  occupied : unit ≠ []
  /-- Only the last piece is marked. -/
  ends : ∀ (i : ℕ) (p : Piece), unit[i]? = some p → p.isLast = decide (i + 1 = unit.length)
  /-- The bodies hold the bytes of the flush. -/
  bytes : unit.flatMap (·.body) = f.bytes
  /-- Every piece has the sub-header of the flush. -/
  headers : ∀ (i : ℕ) (p : Piece), unit[i]? = some p →
    p.header = f.header ((unit.take i).flatMap (·.body)).length

/-- Cuts pieces behind every marker. -/
def cutAtMarkers (pieces : List Piece) : List (List Piece) :=
  pieces.splitBy fun p _ => !p.isLast

/-- Inside a unit no piece but the last has the marker. -/
theorem Carries.isChain {unit : List Piece} {f : Flush} (h : Carries unit f) :
    unit.IsChain fun p _ => (!p.isLast) = true := by
  rw [List.isChain_iff_getElem]
  intro i hi
  have hend := h.ends i unit[i] (List.getElem?_eq_getElem (by omega))
  have hmore : i + 1 ≠ unit.length := by omega
  simp [hend, hmore]

theorem Carries.isLast_getLast {unit : List Piece} {f : Flush} (h : Carries unit f) :
    (unit.getLast h.occupied).isLast = true := by
  have hpos := List.length_pos_iff.mpr h.occupied
  have hlast : unit[unit.length - 1]? = some (unit.getLast h.occupied) := by
    rw [List.getLast_eq_getElem]
    exact List.getElem?_eq_getElem _
  have hend := h.ends _ _ hlast
  have hlength : unit.length - 1 + 1 = unit.length := by omega
  simpa [hlength] using hend

/-- Units come apart at their markers. -/
theorem cutAtMarkers_flatten {us : List (List Piece)} {fs : List Flush}
    (h : List.Forall₂ Carries us fs) : cutAtMarkers us.flatten = us := by
  have hcarries : ∀ unit ∈ us, ∃ f, Carries unit f := by
    intro unit hunit
    obtain ⟨i, hi, rfl⟩ := List.getElem_of_mem hunit
    exact ⟨_, h.get hi (by rw [← h.length_eq]; exact hi)⟩
  apply List.splitBy_flatten
  · intro hnil
    obtain ⟨f, hf⟩ := hcarries [] hnil
    exact hf.occupied rfl
  · intro unit hunit
    obtain ⟨f, hf⟩ := hcarries unit hunit
    exact hf.isChain
  · rw [List.isChain_iff_getElem]
    intro i hi
    obtain ⟨f, hf⟩ := hcarries us[i] (List.getElem_mem _)
    obtain ⟨g, hg⟩ := hcarries us[i + 1] (List.getElem_mem _)
    exact ⟨hf.occupied, hg.occupied, by simp [hf.isLast_getLast]⟩

/-- The packets are the units of those flushes that have something to send. -/
def Emits (packets : List (List UInt8)) (fs : List Flush) : Prop :=
  ∃ us : List (List Piece), packets.mapM Piece.read = .ok us.flatten ∧
    List.Forall₂ Carries us (fs.filter fun f => f.bytes ≠ [])

theorem Emits.nil : Emits [] [] := ⟨[], rfl, .nil⟩

/-- What two calls send stands for the flushes of both. -/
theorem Emits.append {packets more : List (List UInt8)} {fs gs : List Flush}
    (h : Emits packets fs) (h' : Emits more gs) : Emits (packets ++ more) (fs ++ gs) := by
  obtain ⟨us, hread, hcarries⟩ := h
  obtain ⟨vs, hread', hcarries'⟩ := h'
  refine ⟨us ++ vs, ?_, ?_⟩
  · rw [List.mapM_append, hread, hread', List.flatten_append]
    rfl
  · rw [List.filter_append]
    exact List.rel_append hcarries hcarries'

/-- One flush sends one unit, or none when the queue is empty. -/
theorem emits_packets {p : Payloader} {f : Flush} (hs : p.sender.payloadType < 128)
    (hroom : overhead < p.mtu) (hqueue : p.queue = f.bytes)
    (hheader : ∀ offset : ℕ,
      SubHeader.ofFlags p.flags p.eventType (UInt32.ofNat offset) = f.header offset) :
    Emits p.packets [f] := by
  have hsize : 0 < p.mtu - overhead := by omega
  have hread := readAll_packetsFrom hs p.flags p.eventType p.fragments
  have hbody : (fun piece : Piece => piece.body) ∘ Fragment.piece p.flags p.eventType
      = fun fragment => fragment.body := rfl
  by_cases hempty : f.bytes = []
  · have hnone : p.fragments = [] := (fragments_eq_nil hsize).mpr (hqueue.trans hempty)
    refine ⟨[], ?_, by simp [hempty]⟩
    rw [Payloader.packets, hread, hnone]
    rfl
  · refine ⟨[p.fragments.map (·.piece p.flags p.eventType)], ?_, ?_⟩
    · rw [Payloader.packets, hread]
      simp
    · rw [List.filter_cons_of_pos (by simpa using hempty), List.filter_nil]
      refine .cons ⟨?_, ?_, ?_, ?_⟩ .nil
      · rw [ne_eq, List.map_eq_nil_iff, Payloader.fragments, fragments_eq_nil hsize, hqueue]
        exact hempty
      · intro i piece hi
        rw [List.getElem?_map] at hi
        obtain ⟨fragment, hfragment, rfl⟩ := Option.map_eq_some_iff.mp hi
        rw [List.length_map]
        exact isLast_fragments hfragment
      · rw [List.flatMap_map, ← hqueue]
        exact flatMap_body_fragments hsize p.queue
      · intro i piece hi
        rw [List.getElem?_map] at hi
        obtain ⟨fragment, hfragment, rfl⟩ := Option.map_eq_some_iff.mp hi
        rw [← List.map_take, List.flatMap_map, Fragment.piece, hheader,
          offset_fragments hsize hfragment]
        rfl

/-! ## Flags -/

/-- The flags of a unit. -/
def flagsOf (capsInline : Bool) (version : ℕ) (b : BufferFlags) : UInt8 :=
  ((if capsInline then capsFlag else 0) ||| (UInt8.ofNat version <<< 4)) ||| flagBits b

/-- The parts of the flags do not get in each other's way. -/
theorem ofFlags_flagsOf {version : ℕ} (hversion : version < 8) (capsInline : Bool)
    (b : BufferFlags) (eventType : UInt8) (offset : UInt32) :
    SubHeader.ofFlags (flagsOf capsInline version b) eventType offset
      = ⟨capsInline, UInt8.ofNat version, b.deltaUnit, b.media1, b.media2, b.media3, eventType,
        offset⟩ := by
  have hall : ∀ version < 8, ∀ capsInline deltaUnit media1 media2 media3 : Bool,
      SubHeader.ofFlags (flagsOf capsInline version ⟨deltaUnit, media1, media2, media3⟩) 0 0
        = ⟨capsInline, UInt8.ofNat version, deltaUnit, media1, media2, media3, 0, 0⟩ := by
    decide
  have h := hall version hversion capsInline b.deltaUnit b.media1 b.media2 b.media3
  rw [SubHeader.ofFlags, SubHeader.mk.injEq] at h ⊢
  obtain ⟨hinline, hversion, hdelta, hmedia1, hmedia2, hmedia3, -⟩ := h
  exact ⟨hinline, hversion, hdelta, hmedia1, hmedia2, hmedia3, rfl, rfl⟩

/-- A flush keeps the version. -/
theorem flagsOf_and_versionMask {version : ℕ} (hversion : version < 8) (capsInline : Bool)
    (b : BufferFlags) : flagsOf capsInline version b &&& versionMask = flagsOf false version {} := by
  have hall : ∀ version < 8, ∀ capsInline deltaUnit media1 media2 media3 : Bool,
      flagsOf capsInline version ⟨deltaUnit, media1, media2, media3⟩ &&& versionMask
        = flagsOf false version {} := by
    decide
  exact hall version hversion capsInline b.deltaUnit b.media1 b.media2 b.media3

theorem flagsOf_or_flagBits (capsInline : Bool) (version : ℕ) (b : BufferFlags) :
    flagsOf capsInline version {} ||| flagBits b = flagsOf capsInline version b := by
  have hnone : flagBits {} = 0 := rfl
  simp [flagsOf, hnone]

/-- A version fits in its three bits. -/
theorem versionOf_lt (count : ℕ) : versionOf count < 8 :=
  Nat.mod_lt _ (by decide)

/-- The number of the next version counts modulo eight. -/
theorem nextVersion_succ (count : ℕ) :
    (UInt8.ofNat (count % 8) + 1) &&& 0x07 = UInt8.ofNat ((count + 1) % 8) := by
  have hall : ∀ n < 8, (UInt8.ofNat n + 1) &&& 0x07 = UInt8.ofNat ((n + 1) % 8) := by decide
  rw [hall _ (Nat.mod_lt count (by decide)), Nat.mod_add_mod]

/-! ## Tracking -/

/-- A payloader that stands where a ledger says. -/
structure Tracks (p : Payloader) (l : Ledger) : Prop where
  /-- The payload type fits in its bits. -/
  payloadType : p.sender.payloadType < 128
  /-- A packet has room for a body. -/
  room : overhead < p.mtu
  /-- The queue holds the caps that wait. -/
  queue : p.queue = l.waiting.flatMap announced
  /-- The flags tell whether there are any, and the version of the last ones. -/
  flags : p.flags = flagsOf (!l.waiting.isEmpty) (versionOf l.count) {}
  /-- No event is on its way. -/
  eventType : p.eventType = 0
  /-- The version of the next caps. -/
  nextVersion : p.nextVersion = UInt8.ofNat (l.count % 8)
  /-- Both know whether caps have come. -/
  hasCaps : p.hasCaps = l.hasCaps
  /-- Both hold the same events. -/
  held : p.held = l.held

/-- The payloader with a cargo in its queue. -/
def Payloader.load (p : Payloader) (s : Rtp.Sender) (c : Cargo) : Payloader :=
  { p with
    sender := s
    queue := p.queue ++ c.bytes
    flags := p.flags ||| flagBits c.flags
    eventType := c.eventType }

namespace Tracks

variable {p : Payloader} {l : Ledger}

/-- The flush of a cargo sends its unit, and clears the ledger. -/
theorem flush_load (h : Tracks p l) {s : Rtp.Sender} (hs : s.payloadType < 128) (c : Cargo) :
    Emits (p.load s c).packets [l.flush c] ∧ Tracks (p.load s c).flushed l.cleared := by
  have hflags : (p.load s c).flags
      = flagsOf (!l.waiting.isEmpty) (versionOf l.count) c.flags := by
    rw [Payloader.load, h.flags]
    exact flagsOf_or_flagBits _ _ _
  constructor
  · apply emits_packets (p := p.load s c) hs h.room
    · rw [Payloader.load, h.queue]
      rfl
    · intro offset
      rw [hflags, ofFlags_flagsOf (versionOf_lt _)]
      rfl
  · refine ⟨?_, h.room, rfl, ?_, rfl, h.nextVersion, h.hasCaps, h.held⟩
    · rw [Payloader.flushed, passed_payloadType]
      exact hs
    · change (p.load s c).flags &&& versionMask = _
      rw [hflags, flagsOf_and_versionMask (versionOf_lt _)]
      rfl

theorem load_nothing (h : Tracks p l) : p.load p.sender .nothing = p := by
  have hflags : p.flags ||| flagBits {} = p.flags := UInt8.or_zero
  simp only [Payloader.load, Cargo.bytes, Cargo.flags, Cargo.eventType, List.append_nil, hflags,
    ← h.eventType]

theorem sendEvent_run (p : Payloader) {e : Event} {code : UInt8} (h : e.kind.code? = some code) :
    (Payloader.sendEvent e).run p
      = Payloader.flush.run (p.load p.sender (.event code e.text)) := by
  have hflags : p.flags ||| flagBits {} = p.flags := UInt8.or_zero
  unfold Payloader.sendEvent
  rw [h]
  simp only [Payloader.load, Cargo.bytes, Cargo.flags, Cargo.eventType, hflags,
    ← Utf8.length_encode]
  rfl

/-- The clock is the sender's. -/
theorem atTime_flags (p : Payloader) (flags : UInt8) (time : Option ℕ) :
    ({ p with flags }.atTime time) = { p with flags, sender := (p.atTime time).sender } := by
  cases time <;> rfl

theorem payloadType_atTime (s : Rtp.Sender) (timestamp : UInt32) :
    (s.atTime timestamp).payloadType = s.payloadType :=
  rfl

theorem atTime_payloadType (p : Payloader) (time : Option ℕ) :
    (p.atTime time).sender.payloadType = p.sender.payloadType := by
  cases time with
  | none => rfl
  | some time =>
    have hsender : (p.atTime (some time)).sender = p.sender.atTime (p.base + ticksOfNanos time) :=
      rfl
    rw [hsender, payloadType_atTime]

/-- A buffer is loaded, with its time, and flushed at once. -/
theorem handleBuffer_run (h : Tracks p l) (b : Buffer) :
    (Payloader.handleBuffer b).run p
      = Payloader.flush.run (p.load (p.atTime b.time).sender (.buffer b)) := by
  have hload : ({ p with flags := p.flags ||| flagBits b.flags }.atTime b.time).enqueue b.data
      = p.load (p.atTime b.time).sender (.buffer b) := by
    have hflags : (Cargo.buffer b).flags = b.flags := rfl
    have hevent : (Cargo.buffer b).eventType = 0 := rfl
    rw [Payloader.load, hflags, hevent, ← h.eventType, atTime_flags]
    rfl
  unfold Payloader.handleBuffer
  rw [← hload]
  rfl

/-- Before there are caps an event is held, and afterwards it is sent. -/
theorem handleEvent_run (p : Payloader) (e : Event) :
    (Payloader.handleEvent e).run p
      = if p.hasCaps then (Payloader.sendEvent e).run p
        else ([], { p with held := p.held ++ [e] }) := by
  unfold Payloader.handleEvent
  rw [StateT.run_bind]
  change (if p.hasCaps then _ else _ : StateM Payloader _).run p = _
  split <;> rfl

/-- An event is sent in a unit of its own, if it is carried.  This leaves the version of
the caps alone. -/
theorem sendEvent (h : Tracks p l) (e : Event) :
    Emits ((Payloader.sendEvent e).run p).1 (l.sendEvent e).1 ∧
      Tracks ((Payloader.sendEvent e).run p).2 (l.sendEvent e).2 ∧
      ((Payloader.sendEvent e).run p).2.capsVersion = p.capsVersion := by
  cases hcode : e.kind.code? with
  | none =>
    rw [Payloader.sendEvent, hcode, l.sendEvent_uncarried hcode]
    exact ⟨.nil, h, rfl⟩
  | some code =>
    rw [sendEvent_run p hcode, Payloader.flush_run,
      l.sendEvent_carried (code?_eq_some_iff.1 hcode)]
    obtain ⟨hemits, htracks⟩ := h.flush_load h.payloadType (.event code e.text)
    exact ⟨hemits, htracks, rfl⟩

theorem sendEvents (h : Tracks p l) (es : List Event) :
    Emits ((es.mapM Payloader.sendEvent).run p).1.flatten (l.sendEvents es).1 ∧
      Tracks ((es.mapM Payloader.sendEvent).run p).2 (l.sendEvents es).2 ∧
      ((es.mapM Payloader.sendEvent).run p).2.capsVersion = p.capsVersion := by
  induction es generalizing p l with
  | nil => exact ⟨.nil, h, rfl⟩
  | cons e rest ih =>
    obtain ⟨hemits, htracks, hversion⟩ := h.sendEvent e
    obtain ⟨hmore, hrest, hlast⟩ := ih htracks
    rw [List.mapM_cons]
    exact ⟨hemits.append hmore, hrest, hlast.trans hversion⟩

/-- The held events go out under the version of the caps before. -/
theorem accept (h : Tracks p l) (caps : String) :
    Tracks { p with capsVersion := p.nextVersion, hasCaps := true, caps := some caps, held := [] }
      { l with hasCaps := true, held := [] } :=
  ⟨h.payloadType, h.room, h.queue, h.flags, h.eventType, h.nextVersion, rfl, rfl⟩

/-- Caps wait under their own version for the next flush. -/
theorem queueCaps (h : Tracks p l) (hversion : p.capsVersion = UInt8.ofNat (versionOf (l.count + 1)))
    (caps : String) : Tracks (p.queueCaps caps) (l.queueCaps caps) where
  payloadType := h.payloadType
  room := h.room
  queue := by
    change p.queue ++ framed (capsBytes caps) = (l.waiting ++ [caps]).flatMap announced
    rw [h.queue, framed_capsBytes, List.flatMap_append, List.flatMap_singleton]
  flags := by
    change capsFlag ||| (p.capsVersion <<< 4) = _
    rw [hversion]
    simp [Ledger.queueCaps, flagsOf, flagBits]
  eventType := h.eventType
  nextVersion := by
    change (p.nextVersion + 1) &&& 0x07 = UInt8.ofNat ((l.count + 1) % 8)
    rw [h.nextVersion, nextVersion_succ]
  hasCaps := h.hasCaps
  held := h.held

/-- Every call keeps a payloader on the track of its ledger, and sends the units of its
flushes. -/
theorem perform (h : Tracks p l) (c : Call) :
    Emits (c.perform.run p).1 (l.step c).1 ∧ Tracks (c.perform.run p).2 (l.step c).2 := by
  cases c with
  | setMtu mtu =>
    refine ⟨.nil, ?_⟩
    change Tracks ((p.withMtu mtu).toOption.getD p) l
    unfold Payloader.withMtu
    split
    next => exact h
    next hroom =>
      exact ⟨h.payloadType, Nat.lt_of_not_le hroom, h.queue, h.flags, h.eventType,
        h.nextVersion, h.hasCaps, h.held⟩
  | setCaps caps =>
    obtain ⟨hemits, htracks, hversion⟩ := (h.accept caps).sendEvents p.held
    have hnext := hversion.trans h.nextVersion
    rw [← Ledger.count_sendEvents { l with hasCaps := true, held := [] } p.held] at hnext
    rw [Ledger.step, ← h.held]
    exact ⟨hemits, htracks.queueCaps hnext caps⟩
  | event e =>
    rw [Call.perform, handleEvent_run, Ledger.step, h.hasCaps]
    split
    next =>
      obtain ⟨hemits, htracks, -⟩ := h.sendEvent e
      exact ⟨hemits, htracks⟩
    next =>
      refine ⟨.nil, h.payloadType, h.room, h.queue, h.flags, h.eventType, h.nextVersion, rfl, ?_⟩
      rw [h.held]
  | buffer b =>
    have htime : (p.atTime b.time).sender.payloadType < 128 := by
      rw [atTime_payloadType]
      exact h.payloadType
    rw [Call.perform, h.handleBuffer_run, Payloader.flush_run]
    exact h.flush_load htime (.buffer b)
  | flush =>
    rw [Call.perform, ← h.load_nothing, Payloader.flush_run]
    exact h.flush_load h.payloadType .nothing
  | reset =>
    exact ⟨.nil, h.payloadType, h.room, h.queue, h.flags, h.eventType, h.nextVersion, rfl, rfl⟩

end Tracks

/-- A new payloader has an empty ledger. -/
theorem tracks_start (payloadType : UInt8) (ssrc : UInt32) (sequence : UInt16)
    (timestamp : UInt32) : Tracks (.start payloadType ssrc sequence timestamp) {} := by
  have hroom : overhead < defaultMtu := by decide
  exact ⟨Rtp.Sender.start_payloadType_lt payloadType ssrc sequence timestamp, hroom, rfl, rfl, rfl,
    rfl, rfl, rfl⟩

/-- The units of a whole run are those of its flushes. -/
theorem performAll_emits {p : Payloader} {l : Ledger} (h : Tracks p l) (calls : List Call) :
    Emits ((Call.performAll calls).run p).1 (l.flushes calls) := by
  induction calls generalizing p l with
  | nil => exact .nil
  | cons call rest ih =>
    obtain ⟨hemits, htracks⟩ := h.perform call
    exact hemits.append (ih htracks)

/-- Whatever the calls on a new payloader are, its packets can be read, and cut at the
markers they are the units of those flushes that have something to send, in order. -/
theorem performAll_cutAtMarkers (payloadType : UInt8) (ssrc : UInt32) (sequence : UInt16)
    (timestamp : UInt32) (calls : List Call) :
    ∃ pieces : List Piece,
      ((Call.performAll calls).run (.start payloadType ssrc sequence timestamp)).1.mapM Piece.read
        = .ok pieces ∧
      List.Forall₂ Carries (cutAtMarkers pieces)
        ((Ledger.flushes {} calls).filter fun f => f.bytes ≠ []) := by
  obtain ⟨us, hread, hcarries⟩ :=
    performAll_emits (tracks_start payloadType ssrc sequence timestamp) calls
  refine ⟨us.flatten, hread, ?_⟩
  rw [cutAtMarkers_flatten hcarries]
  exact hcarries

end MediaTransport.Payload
