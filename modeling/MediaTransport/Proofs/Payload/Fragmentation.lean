import MediaTransport.Proofs.Payload.Conservation

/-!
# Fragmentation

A flush cuts the queue into packets of the largest size, the last of which may be smaller
(`Fragmentation`).  What the packets carry and where they start is known of fragments
(`flatMap_body_fragments`, `offset_fragments`); their sizes are those of chunks, and their
headers are written from the state that the packets before leave (`getElem?_packetsFrom`).

The packets of a stream are numbered through.  A payloader is *numbered* (`Numbered`) when its
next packet has the number of packets that it has sent, counted from the start.  A call sends the
packets of its flushes, one after another (`Dispatch`), and leaves the payloader numbered, whatever
else it does to it (`Numbered.perform`).  The largest size is the one that was set last, of those
that leave room for a body (`Numbered.mtu_performAll`).
-/

namespace MediaTransport.Payload

open Bytes

/-! ## Packets of fragments -/

/-- Each fragment uses up one sequence number, which wraps. -/
theorem passed_eq (s : Rtp.Sender) (fs : List Fragment) :
    passed s fs = { s with sequence := s.sequence + UInt16.ofNat fs.length } := by
  induction fs generalizing s with
  | nil => simp [passed]
  | cons f rest ih =>
    have hrest : passed s (f :: rest) = passed s.next rest := rfl
    rw [hrest, ih, List.length_cons, Nat.add_comm rest.length, UInt16.ofNat_add,
      ← UInt16.add_assoc]
    rfl

/-- The packet of a fragment has the header that the packets before it leave. -/
theorem getElem?_packetsFrom (flags eventType : UInt8) (s : Rtp.Sender) (fs : List Fragment)
    (i : ℕ) : (packetsFrom flags eventType s fs)[i]? = fs[i]?.map fun f =>
      (passed s (fs.take i)).header f.isLast
        ++ subHeader flags eventType (UInt32.ofNat f.offset) ++ f.body := by
  induction fs generalizing s i with
  | nil => rfl
  | cons f rest ih =>
    cases i with
    | zero => rfl
    | succ i => exact ih s.next i

theorem take_packetsFrom (flags eventType : UInt8) (s : Rtp.Sender) (fs : List Fragment) (i : ℕ) :
    (packetsFrom flags eventType s fs).take i = packetsFrom flags eventType s (fs.take i) := by
  induction fs generalizing s i with
  | nil => simp [packetsFrom]
  | cons f rest ih =>
    cases i with
    | zero => rfl
    | succ i => rw [packetsFrom, List.take_succ_cons, ih, List.take_succ_cons, packetsFrom]

theorem length_packetsFrom (flags eventType : UInt8) (s : Rtp.Sender) (fs : List Fragment) :
    (packetsFrom flags eventType s fs).length = fs.length := by
  induction fs generalizing s with
  | nil => rfl
  | cons f rest ih => simp [packetsFrom, ih]

/-- Behind the two headers of a packet stands its body. -/
theorem drop_packet (s : Rtp.Sender) (marker : Bool) (flags eventType : UInt8) (offset : UInt32)
    (body : List UInt8) :
    (s.header marker ++ subHeader flags eventType offset ++ body).drop overhead = body :=
  rfl

/-- A packet is longer than its body by the two headers. -/
theorem length_packet (s : Rtp.Sender) (marker : Bool) (flags eventType : UInt8) (offset : UInt32)
    (body : List UInt8) :
    (s.header marker ++ subHeader flags eventType offset ++ body).length
      = overhead + body.length := by
  rw [List.length_append]
  rfl

/-- Behind the headers stand the bodies, in order and without a gap. -/
theorem flatMap_drop_packetsFrom (flags eventType : UInt8) (s : Rtp.Sender)
    (fs : List Fragment) :
    (packetsFrom flags eventType s fs).flatMap (·.drop overhead) = fs.flatMap (·.body) := by
  induction fs generalizing s with
  | nil => rfl
  | cons f rest ih => rw [packetsFrom, List.flatMap_cons, drop_packet, ih, List.flatMap_cons]

theorem getElem?_chunks_of_fragments {size : ℕ} {unit : List UInt8} {i : ℕ} {f : Fragment}
    (h : (fragments size unit)[i]? = some f) : (chunks size unit)[i]? = some f.body := by
  rw [← map_body_fragments, List.getElem?_map, h]
  rfl

/-- A packet of a flush is the headers that the fragments before it leave, and a body. -/
theorem Payloader.exists_fragment {p : Payloader} {i : ℕ} {packet : List UInt8}
    (h : p.packets[i]? = some packet) : ∃ f, p.fragments[i]? = some f ∧
      (passed p.sender (p.fragments.take i)).header f.isLast
        ++ subHeader p.flags p.eventType (UInt32.ofNat f.offset) ++ f.body = packet := by
  rw [Payloader.packets, getElem?_packetsFrom] at h
  exact Option.map_eq_some_iff.1 h

/-- A packet has something in it, and no more than there is room for. -/
theorem Payloader.exists_body {p : Payloader} (hroom : overhead < p.mtu) {packet : List UInt8}
    (h : packet ∈ p.packets) : ∃ (s : Rtp.Sender) (f : Fragment),
      (0 < f.body.length ∧ overhead + f.body.length ≤ p.mtu) ∧
        s.header f.isLast ++ subHeader p.flags p.eventType (UInt32.ofNat f.offset) ++ f.body
          = packet := by
  have hsize : 0 < p.mtu - overhead := by omega
  obtain ⟨i, hi⟩ := List.mem_iff_getElem?.1 h
  obtain ⟨f, hf, heq⟩ := exists_fragment hi
  obtain ⟨hpos, hle⟩ :=
    length_of_mem_chunks hsize (List.mem_of_getElem? (getElem?_chunks_of_fragments hf))
  exact ⟨_, f, ⟨hpos, by omega⟩, heq⟩

/-! ## Flushes -/

/-- What a flush sends and leaves.  The stream has started with the header state `origin`, and
`number` packets of it have been sent before. -/
structure Fragmentation (origin : Rtp.Sender) (number : ℕ) (p : Payloader)
    (packets : List (List UInt8)) (p' : Payloader) : Prop where
  /-- There is room for a body behind the two headers. -/
  room : overhead < p.mtu
  /-- The bodies hold the queue. -/
  bodies : packets.flatMap (·.drop overhead) = p.queue
  /-- Every packet has a body, and none is larger than the limit. -/
  sizes : ∀ packet ∈ packets, overhead < packet.length ∧ packet.length ≤ p.mtu
  /-- A packet that is not the last is as large as the limit. -/
  full : ∀ (i : ℕ) (packet : List UInt8), packets[i]? = some packet → i + 1 < packets.length →
    packet.length = p.mtu
  /-- Only the last packet is marked.  The packets of the stream are numbered through, and those of
  a flush share the payload type, the timestamp and the source. -/
  header : ∀ (i : ℕ) (packet : List UInt8), packets[i]? = some packet →
    Rtp.Packet.parse packet = .ok {
      marker := decide (i + 1 = packets.length)
      payloadType := origin.payloadType
      sequence := origin.sequence + UInt16.ofNat (number + i)
      timestamp := p.sender.timestamp
      ssrc := origin.ssrc
      contributors := 0
      payload := packet.drop Rtp.headerLength }
  /-- They share the flags and the event type too. -/
  flags : ∀ packet ∈ packets, packet[Rtp.headerLength]? = some p.flags ∧
    packet[Rtp.headerLength + 1]? = some p.eventType
  /-- A packet tells how many bytes the bodies before it hold. -/
  offset : ∀ (i : ℕ) (packet : List UInt8), packets[i]? = some packet →
    (SubHeader.parse (packet.drop Rtp.headerLength)).map (·.offset)
      = .ok (UInt32.ofNat ((packets.take i).flatMap (·.drop overhead)).length)
  /-- When nothing is queued, nothing is sent and no number is used up. -/
  empty : p.queue = [] → packets = [] ∧ p'.sender = p.sender
  /-- The queue is empty afterwards, and of the flags the version is left. -/
  after : p' = { p with
    queue := []
    flags := p.flags &&& versionMask
    eventType := 0
    sender := { p.sender with
      sequence := p.sender.sequence + UInt16.ofNat packets.length } }

/-- A payloader that has sent a number of packets of a stream. -/
structure Numbered (origin : Rtp.Sender) (number : ℕ) (p : Payloader) : Prop where
  /-- The payload type fits in its bits. -/
  narrow : origin.payloadType < 128
  /-- It is the one of the stream. -/
  payloadType : p.sender.payloadType = origin.payloadType
  /-- So is the source. -/
  ssrc : p.sender.ssrc = origin.ssrc
  /-- The next packet has the next number. -/
  sequence : p.sender.sequence = origin.sequence + UInt16.ofNat number
  /-- A packet has room for a body. -/
  room : overhead < p.mtu

namespace Numbered

variable {origin : Rtp.Sender} {number : ℕ} {p : Payloader} {l : Ledger}

/-- A numbered payloader cuts what it flushes as it should. -/
theorem fragmentation (h : Numbered origin number p) :
    Fragmentation origin number p p.packets p.flushed := by
  have hsize : 0 < p.mtu - overhead := by
    have hroom := h.room
    omega
  have hlength : p.packets.length = p.fragments.length := length_packetsFrom _ _ _ _
  refine ⟨h.room, ?_, ?_, ?_, ?_, ?_, ?_, ?_, ?_⟩
  · rw [Payloader.packets, flatMap_drop_packetsFrom]
    exact flatMap_body_fragments hsize p.queue
  · intro packet hin
    obtain ⟨s, f, ⟨hpos, hle⟩, rfl⟩ := Payloader.exists_body h.room hin
    rw [length_packet]
    omega
  · intro i packet hi hmore
    obtain ⟨f, hf, rfl⟩ := Payloader.exists_fragment hi
    rw [hlength, Payloader.fragments, length_fragments] at hmore
    have hfull := length_of_getElem?_chunks hsize (getElem?_chunks_of_fragments hf) hmore
    rw [length_packet, hfull]
    exact Nat.add_sub_cancel' (Nat.le_of_lt h.room)
  · intro i packet hi
    obtain ⟨f, hf, rfl⟩ := Payloader.exists_fragment hi
    have hcount : (p.fragments.take i).length = i :=
      List.length_take_of_le (Nat.le_of_lt (List.getElem?_eq_some_iff.1 hf).1)
    have hlow : (passed p.sender (p.fragments.take i)).payloadType < 128 := by
      rw [passed_payloadType, h.payloadType]
      exact h.narrow
    rw [List.append_assoc, Rtp.parse_header hlow, Rtp.drop_header, hlength, isLast_fragments hf,
      passed_eq, hcount]
    simp only [h.payloadType, h.ssrc, h.sequence, UInt16.ofNat_add, UInt16.add_assoc]
    rfl
  · intro packet hin
    obtain ⟨s, f, -, rfl⟩ := Payloader.exists_body h.room hin
    exact ⟨rfl, rfl⟩
  · intro i packet hi
    obtain ⟨f, hf, rfl⟩ := Payloader.exists_fragment hi
    have hoffset : f.offset = ((p.fragments.take i).flatMap (·.body)).length :=
      offset_fragments hsize hf
    rw [List.append_assoc, Rtp.drop_header, parse_subHeader, Payloader.packets, take_packetsFrom,
      flatMap_drop_packetsFrom, hoffset]
    rfl
  · intro hempty
    have hnone : p.fragments = [] := (fragments_eq_nil hsize).2 hempty
    rw [Payloader.packets, Payloader.flushed, hnone]
    exact ⟨rfl, rfl⟩
  · rw [Payloader.flushed, passed_eq, hlength]
    rfl

/-- After a flush the numbering goes on behind its packets. -/
theorem flushed (h : Numbered origin number p) :
    Numbered origin (number + p.packets.length) p.flushed := by
  have hafter := h.fragmentation.after
  refine ⟨h.narrow, ?_, ?_, ?_, ?_⟩ <;> rw [hafter]
  · exact h.payloadType
  · exact h.ssrc
  · rw [h.sequence, UInt16.ofNat_add, UInt16.add_assoc]
  · exact h.room

end Numbered

/-! ## Calls -/

/-- The packets that some flushes send one after another, below a limit of their size. -/
inductive Dispatch (origin : Rtp.Sender) (mtu : ℕ) :
    (number : ℕ) → List (List UInt8) → List Flush → Prop where
  | nil (number : ℕ) : Dispatch origin mtu number [] []
  | cons {number : ℕ} {p p' : Payloader} {packets more : List (List UInt8)} {f : Flush}
      {fs : List Flush} (hmtu : p.mtu = mtu) (hqueue : p.queue = f.bytes)
      (hpackets : Fragmentation origin number p packets p')
      (hmore : Dispatch origin mtu (number + packets.length) more fs) :
      Dispatch origin mtu number (packets ++ more) (f :: fs)

variable {origin : Rtp.Sender} {mtu number : ℕ}

/-- What two calls send is numbered through. -/
theorem Dispatch.append {packets more : List (List UInt8)} {fs gs : List Flush}
    (h : Dispatch origin mtu number packets fs)
    (h' : Dispatch origin mtu (number + packets.length) more gs) :
    Dispatch origin mtu number (packets ++ more) (fs ++ gs) := by
  induction h with
  | nil => simpa using h'
  | cons hmtu hqueue hpackets hmore ih =>
    rw [List.append_assoc, List.cons_append]
    rw [List.length_append, ← Nat.add_assoc] at h'
    exact .cons hmtu hqueue hpackets (ih h')

/-- Packets that a payloader sends for some flushes, and what it is afterwards. -/
structure Dispatches (origin : Rtp.Sender) (number : ℕ) (p : Payloader)
    (sent : List (List UInt8) × Payloader) (fs : List Flush) : Prop where
  /-- The packets are those of the flushes. -/
  packets : Dispatch origin p.mtu number sent.1 fs
  /-- The numbers go on behind them. -/
  numbered : Numbered origin (number + sent.1.length) sent.2
  /-- The limit is the same. -/
  mtu : sent.2.mtu = p.mtu

variable {p : Payloader} {l : Ledger}

/-- A call that sends nothing leaves the numbering alone. -/
theorem Numbered.silent (h : Numbered origin number p) : Dispatches origin number p ([], p) [] :=
  ⟨.nil number, h, rfl⟩

/-- Anything loaded goes out in one numbered flush. -/
theorem Numbered.flush_load (h : Numbered origin number p) (ht : Tracks p l) {s : Rtp.Sender}
    (hs : Numbered origin number { p with sender := s }) (c : Cargo) :
    Dispatches origin number p (Payloader.flush.run (p.load s c)) [l.flush c] := by
  have hload : Numbered origin number (p.load s c) :=
    ⟨h.narrow, hs.payloadType, hs.ssrc, hs.sequence, h.room⟩
  have hqueue : (p.load s c).queue = (l.flush c).bytes := by
    rw [Payloader.load, ht.queue]
    rfl
  rw [Payloader.flush_run]
  refine ⟨?_, hload.flushed, rfl⟩
  have hpackets := Dispatch.cons rfl hqueue hload.fragmentation (.nil _)
  rwa [List.append_nil] at hpackets

theorem Numbered.sendEvent (h : Numbered origin number p) (ht : Tracks p l) (e : Event) :
    Dispatches origin number p ((Payloader.sendEvent e).run p) (l.sendEvent e).1 := by
  cases hcode : e.kind.code? with
  | none =>
    rw [Payloader.sendEvent, hcode, l.sendEvent_uncarried hcode]
    exact h.silent
  | some code =>
    rw [Tracks.sendEvent_run p hcode, l.sendEvent_carried (code?_eq_some_iff.1 hcode)]
    exact h.flush_load ht h (.event code e.text)

/-- Held events go out one behind the other, in flushes of their own. -/
theorem Numbered.sendEvents (h : Numbered origin number p) (ht : Tracks p l) (es : List Event) :
    Dispatches origin number p
      (((es.mapM Payloader.sendEvent).run p).1.flatten, ((es.mapM Payloader.sendEvent).run p).2)
      (l.sendEvents es).1 := by
  induction es generalizing p l number with
  | nil => exact h.silent
  | cons e rest ih =>
    have hfirst := h.sendEvent ht e
    obtain ⟨-, htracks, -⟩ := ht.sendEvent e
    have hrest := ih hfirst.numbered htracks
    rw [List.mapM_cons]
    refine ⟨hfirst.packets.append (hfirst.mtu ▸ hrest.packets), ?_, hrest.mtu.trans hfirst.mtu⟩
    have hlast := hrest.numbered
    rw [Nat.add_assoc, ← List.length_append] at hlast
    exact hlast

theorem Numbered.withTimestamp (h : Numbered origin number p) (timestamp : UInt32) :
    Numbered origin number { p with sender := p.sender.atTime timestamp } :=
  ⟨h.narrow, h.payloadType, h.ssrc, h.sequence, h.room⟩

theorem Numbered.atTime (h : Numbered origin number p) (time : Option ℕ) :
    Numbered origin number { p with sender := (p.atTime time).sender } := by
  cases time with
  | none => exact h
  | some time => exact h.withTimestamp (p.base + ticksOfNanos time)

/-- A call sends the packets of its flushes. -/
theorem Numbered.perform (h : Numbered origin number p) (ht : Tracks p l) (call : Call) :
    Dispatch origin p.mtu number (call.perform.run p).1 (l.step call).1 ∧
      Numbered origin (number + (call.perform.run p).1.length) (call.perform.run p).2 := by
  cases call with
  | setMtu mtu =>
    refine ⟨.nil number, ?_⟩
    change Numbered origin number ((p.withMtu mtu).toOption.getD p)
    unfold Payloader.withMtu
    split
    next => exact h
    next hroom => exact ⟨h.narrow, h.payloadType, h.ssrc, h.sequence, Nat.lt_of_not_le hroom⟩
  | setCaps caps =>
    have haccepted : Numbered origin number
        { p with capsVersion := p.nextVersion, hasCaps := true, caps := some caps, held := [] } :=
      ⟨h.narrow, h.payloadType, h.ssrc, h.sequence, h.room⟩
    have hsent := haccepted.sendEvents (ht.accept caps) p.held
    have hlast := hsent.numbered
    rw [Ledger.step, ← ht.held]
    exact ⟨hsent.packets, hlast.narrow, hlast.payloadType, hlast.ssrc, hlast.sequence, hlast.room⟩
  | event e =>
    rw [Call.perform, Tracks.handleEvent_run, Ledger.step, ht.hasCaps]
    split
    next =>
      have hsent := h.sendEvent ht e
      exact ⟨hsent.packets, hsent.numbered⟩
    next => exact ⟨.nil number, h.narrow, h.payloadType, h.ssrc, h.sequence, h.room⟩
  | buffer b =>
    have hsent := h.flush_load ht (h.atTime b.time) (.buffer b)
    rw [Call.perform, ht.handleBuffer_run]
    exact ⟨hsent.packets, hsent.numbered⟩
  | flush =>
    have hsent := h.flush_load ht h .nothing
    rw [ht.load_nothing] at hsent
    exact ⟨hsent.packets, hsent.numbered⟩
  | reset => exact ⟨.nil number, h.narrow, h.payloadType, h.ssrc, h.sequence, h.room⟩

/-- The ledger after some calls. -/
def Ledger.after (l : Ledger) (calls : List Call) : Ledger :=
  calls.foldl (fun l call => (l.step call).2) l

/-- The numbering holds over whole runs. -/
theorem Numbered.performAll (h : Numbered origin number p) (ht : Tracks p l)
    (calls : List Call) :
    Numbered origin (number + ((Call.performAll calls).run p).1.length)
        ((Call.performAll calls).run p).2 ∧
      Tracks ((Call.performAll calls).run p).2 (l.after calls) := by
  induction calls generalizing p l number with
  | nil => exact ⟨h, ht⟩
  | cons call rest ih =>
    obtain ⟨-, hnumbered⟩ := h.perform ht call
    obtain ⟨-, htracks⟩ := ht.perform call
    obtain ⟨hlast, hlastTracks⟩ := ih hnumbered htracks
    rw [Nat.add_assoc, ← List.length_append] at hlast
    exact ⟨hlast, hlastTracks⟩

/-! ## The largest size -/

/-- The largest size that a call sets.  Sizes without room behind the 20 bytes of headers are
refused. -/
def Call.mtu? : Call → Option ℕ
  | .setMtu mtu => if 20 < mtu then some mtu else none
  | _ => none

/-- The largest size that some calls set last. -/
def lastMtu? (calls : List Call) : Option ℕ :=
  calls.reverse.findSome? Call.mtu?

theorem lastMtu?_cons (call : Call) (rest : List Call) :
    lastMtu? (call :: rest) = (lastMtu? rest).or call.mtu? := by
  rw [lastMtu?, List.reverse_cons, List.findSome?_append, List.findSome?_singleton, lastMtu?]

/-- Only setting the size changes it. -/
theorem Numbered.mtu_perform (h : Numbered origin number p) (ht : Tracks p l) (call : Call) :
    (call.perform.run p).2.mtu = call.mtu?.getD p.mtu := by
  cases call with
  | setMtu mtu =>
    change ((p.withMtu mtu).toOption.getD p).mtu = (if 20 < mtu then some mtu else none).getD p.mtu
    have hoverhead : overhead = 20 := rfl
    by_cases hroom : 20 < mtu
    · rw [Payloader.withMtu, hoverhead, if_neg (Nat.not_le_of_lt hroom), if_pos hroom]
      rfl
    · rw [Payloader.withMtu, hoverhead, if_pos (Nat.le_of_not_lt hroom), if_neg hroom]
      rfl
  | setCaps caps =>
    have haccepted : Numbered origin number
        { p with capsVersion := p.nextVersion, hasCaps := true, caps := some caps, held := [] } :=
      ⟨h.narrow, h.payloadType, h.ssrc, h.sequence, h.room⟩
    exact (haccepted.sendEvents (ht.accept caps) p.held).mtu
  | event e =>
    rw [Call.perform, Tracks.handleEvent_run]
    split
    next => exact (h.sendEvent ht e).mtu
    next => rfl
  | buffer b =>
    rw [Call.perform, ht.handleBuffer_run]
    exact (h.flush_load ht (h.atTime b.time) (.buffer b)).mtu
  | flush =>
    rw [Call.perform, Payloader.flush_run]
    rfl
  | reset => rfl

/-- After a whole run the size is the one that was accepted last, if there is one. -/
theorem Numbered.mtu_performAll (h : Numbered origin number p) (ht : Tracks p l)
    (calls : List Call) :
    ((Call.performAll calls).run p).2.mtu = (lastMtu? calls).getD p.mtu := by
  induction calls generalizing p l number with
  | nil => rfl
  | cons call rest ih =>
    obtain ⟨-, hnumbered⟩ := h.perform ht call
    obtain ⟨-, htracks⟩ := ht.perform call
    have hrest := ih hnumbered htracks
    rw [h.mtu_perform ht call] at hrest
    rw [lastMtu?_cons, Option.getD_or]
    exact hrest

/-! ## Runs -/

theorem numbered_start (payloadType : UInt8) (ssrc : UInt32) (sequence : UInt16)
    (timestamp : UInt32) :
    Numbered (.start payloadType ssrc sequence timestamp) 0
      (.start payloadType ssrc sequence timestamp) := by
  have hroom : overhead < defaultMtu := by decide
  exact ⟨Rtp.Sender.start_payloadType_lt payloadType ssrc sequence timestamp, rfl, rfl,
    (UInt16.add_zero _).symm, hroom⟩

/-- Whatever calls came before, a flush cuts the queue as it should and goes on numbering, and so
does every flush that another call makes.  The limit of the packets is the size that was set last,
or 1400 bytes. -/
theorem fragmentation_afterAll (payloadType : UInt8) (ssrc : UInt32) (sequence : UInt16)
    (timestamp : UInt32) (calls : List Call) :
    let origin : Rtp.Sender := .start payloadType ssrc sequence timestamp
    let sent := ((Call.performAll calls).run (.start payloadType ssrc sequence timestamp)).1
    let p := ((Call.performAll calls).run (.start payloadType ssrc sequence timestamp)).2
    p.mtu = (lastMtu? calls).getD 1400 ∧
      Fragmentation origin sent.length p (Payloader.flush.run p).1 (Payloader.flush.run p).2 ∧
      ∀ call : Call, Dispatch origin p.mtu sent.length (call.perform.run p).1
        ((Ledger.after {} calls).step call).1 := by
  intro origin sent p
  have hstart := numbered_start payloadType ssrc sequence timestamp
  have htracks := tracks_start payloadType ssrc sequence timestamp
  obtain ⟨hnumbered, htracked⟩ := hstart.performAll htracks calls
  rw [Nat.zero_add] at hnumbered
  refine ⟨hstart.mtu_performAll htracks calls, ?_, ?_⟩
  · rw [Payloader.flush_run]
    exact hnumbered.fragmentation
  · intro call
    exact (hnumbered.perform htracked call).1

end MediaTransport.Payload
