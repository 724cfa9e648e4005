import MediaTransport.Proofs.Audio.Announcement
import MediaTransport.Proofs.Audio.Loopback

/-!
# Packetization

A buffer becomes packets of one size, the last of which may be smaller.  Each carries whole
frames, as many as there is room for; their headers number them and tell the frames that came
before (`Packetization`).

The packets of a buffer are those of its runs (`packetize_run`), so a fact about packets is one
about runs: how many frames they count (`map_framesIn_packetsFrom`), what they carry
(`map_drop_packetsFrom`), and how long they are (`Packetizer.Valid.length_run`).  The header of a
packet is written from the counters that the runs before it leave (`foldl_pass`).

Whatever calls came before, a packetizer is valid and its source is the one that it was built
with (`Packetizer.afterAll_reachable`, `Packetizer.afterAll_ssrc`).
-/

namespace MediaTransport.Audio

open Bytes

/-! ## Calls -/

/-- A call on a packetizer. -/
inductive Packetizer.Call where
  | setMtu (mtu : ℕ)
  | setFormat (format : Format)
  | discontinuity
  | packetize (buffer : Buffer)

namespace Packetizer

variable {p : Packetizer}

/-- The packetizer after a call.  A setting that is refused changes nothing. -/
def after (p : Packetizer) : Call → Packetizer
  | .setMtu mtu => (p.withMtu mtu).toOption.getD p
  | .setFormat format => (p.withFormat format).toOption.getD p
  | .discontinuity => p.discontinuity
  | .packetize buffer => ((packetize buffer).run p).2

/-- The packetizer after some calls. -/
def afterAll (p : Packetizer) (calls : List Call) : Packetizer :=
  calls.foldl after p

/-- A call leads from a reachable packetizer to another one, also when it is refused. -/
theorem Reachable.after (h : p.Reachable) (call : Call) : (p.after call).Reachable := by
  cases call with
  | setMtu mtu =>
    rw [Packetizer.after]
    cases hmtu : p.withMtu mtu with
    | error e => exact h
    | ok p' => exact h.withMtu hmtu
  | setFormat format =>
    rw [Packetizer.after]
    cases hformat : p.withFormat format with
    | error e => exact h
    | ok p' => exact h.withFormat hformat
  | discontinuity => exact h.discontinuity
  | packetize buffer => exact h.packetize buffer

theorem Reachable.afterAll (h : p.Reachable) (calls : List Call) :
    (p.afterAll calls).Reachable := by
  induction calls generalizing p with
  | nil => exact h
  | cons call rest ih => exact ih (h.after call)

theorem withMtu_ssrc {p' : Packetizer} {mtu : ℕ} (h : p.withMtu mtu = .ok p') :
    p'.sender.ssrc = p.sender.ssrc := by
  unfold withMtu at h
  cases hcheck : checkMtu mtu p.format.toSampling <;> rw [hcheck] at h <;> cases h
  rfl

theorem withFormat_ssrc {p' : Packetizer} {format : Format} (h : p.withFormat format = .ok p') :
    p'.sender.ssrc = p.sender.ssrc := by
  unfold withFormat at h
  cases hselect : payloadTypeFor format p.map p.mtu <;> rw [hselect] at h <;> cases h
  rfl

theorem build_ssrc {format : Format} {map : PayloadMap} {ssrc : UInt32} {sequence : UInt16}
    {timestamp : UInt32} (h : build format map ssrc sequence timestamp = .ok p) :
    p.sender.ssrc = ssrc := by
  unfold build at h
  cases hselect : payloadTypeFor format map defaultMtu <;> rw [hselect] at h <;> cases h
  rfl

/-- No call changes the source. -/
theorem after_ssrc (p : Packetizer) (call : Call) : (p.after call).sender.ssrc = p.sender.ssrc := by
  cases call with
  | setMtu mtu =>
    rw [after]
    cases hmtu : p.withMtu mtu with
    | error e => rfl
    | ok p' => exact withMtu_ssrc hmtu
  | setFormat format =>
    rw [after]
    cases hformat : p.withFormat format with
    | error e => rfl
    | ok p' => exact withFormat_ssrc hformat
  | discontinuity => rfl
  | packetize buffer => rw [after, packetize_run, foldl_pass]

/-- No call changes the source identifier. -/
theorem afterAll_ssrc (p : Packetizer) (calls : List Call) :
    (p.afterAll calls).sender.ssrc = p.sender.ssrc := by
  induction calls generalizing p with
  | nil => rfl
  | cons call rest ih => exact (ih (p.after call)).trans (p.after_ssrc call)

/-! ## Runs -/

/-- The frames of a packet fill it up to less than one frame. -/
theorem lt_space_add (h : p.Valid) : p.mtu < Rtp.headerLength + p.space + p.format.frameSize := by
  have hroom := h.room
  have hdiv := Nat.lt_div_mul_add (a := p.mtu - Rtp.headerLength) h.frameSize_pos
  rw [space]
  omega

/-- What a packet takes fits in it behind the header. -/
theorem space_le (h : p.Valid) : Rtp.headerLength + p.space ≤ p.mtu := by
  have hroom := h.room
  have hdiv := Nat.div_mul_le_self (p.mtu - Rtp.headerLength) p.format.frameSize
  rw [space]
  omega

/-- No run is empty, and each fits in a packet. -/
theorem Valid.length_run (h : p.Valid) {buffer : Buffer} {run : List UInt8}
    (hrun : run ∈ p.runs buffer) : 0 < run.length ∧ Rtp.headerLength + run.length ≤ p.mtu := by
  obtain ⟨hpos, hle⟩ := length_of_mem_chunks h.space_pos hrun
  have hspace := space_le h
  exact ⟨hpos, by omega⟩

end Packetizer

/-- Less than a frame is left over. -/
theorem Sampling.length_wholeFrames {s : Sampling} (hs : 0 < s.frameSize) (samples : List UInt8) :
    samples.length < (wholeFrames s samples).length + s.frameSize := by
  have hle := Nat.div_mul_le_self samples.length s.frameSize
  have hdiv := Nat.lt_div_mul_add (a := samples.length) hs
  rw [wholeFrames, List.length_take, Nat.min_eq_left hle]
  exact hdiv

/-- Whole frames at the start do not change which bytes are left over. -/
theorem Sampling.wholeFrames_append {s : Sampling} (hs : 0 < s.frameSize) {samples : List UInt8}
    (h : s.frameSize ∣ samples.length) (more : List UInt8) :
    wholeFrames s (samples ++ more) = samples ++ wholeFrames s more := by
  obtain ⟨count, hcount⟩ := h
  have hlength : (samples ++ more).length / s.frameSize * s.frameSize
      = samples.length + more.length / s.frameSize * s.frameSize := by
    rw [List.length_append, hcount, Nat.mul_add_div hs, Nat.add_mul, Nat.mul_comm count]
  rw [wholeFrames, wholeFrames, hlength, List.take_length_add_append]

theorem Sampling.wholeFrames_eq {s : Sampling} (hs : 0 < s.frameSize) {samples : List UInt8}
    (h : s.frameSize ∣ samples.length) : wholeFrames s samples = samples := by
  have happend := wholeFrames_append hs h []
  have hnone : wholeFrames s [] = [] := List.take_nil
  rwa [List.append_nil, hnone, List.append_nil] at happend

/-! ## Packets of runs -/

variable {f : Format} {runs : List (List UInt8)}

/-- The first packets are those of the first runs. -/
theorem take_packetsFrom (f : Format) (s : Rtp.Sender) (runs : List (List UInt8)) (i : ℕ) :
    (packetsFrom f s runs).take i = packetsFrom f s (runs.take i) := by
  induction runs generalizing s i with
  | nil => simp [packetsFrom]
  | cons run rest ih =>
    cases i with
    | zero => rfl
    | succ i => rw [packetsFrom, List.take_succ_cons, ih, List.take_succ_cons, packetsFrom]

/-- A packet is the header that the earlier runs leave and a run on the wire. -/
theorem run_of_getElem?_packetsFrom {s : Rtp.Sender} {i : ℕ} {packet : List UInt8}
    (h : (packetsFrom f s runs)[i]? = some packet) :
    ∃ run, runs[i]? = some run ∧
      ((runs.take i).foldl f.pass s).header false ++ toWire f.order run = packet := by
  rw [getElem?_packetsFrom] at h
  exact Option.map_eq_some_iff.1 h

theorem run_of_mem_packetsFrom {s : Rtp.Sender} {packet : List UInt8}
    (h : packet ∈ packetsFrom f s runs) :
    ∃ run ∈ runs, ∃ s : Rtp.Sender, s.header false ++ toWire f.order run = packet := by
  obtain ⟨i, hi⟩ := List.mem_iff_getElem?.1 h
  obtain ⟨run, hrun, heq⟩ := run_of_getElem?_packetsFrom hi
  exact ⟨run, List.mem_of_getElem? hrun, _, heq⟩

/-- Behind the header of a packet stands its run. -/
theorem map_drop_packetsFrom (f : Format) (s : Rtp.Sender) (runs : List (List UInt8)) :
    (packetsFrom f s runs).map (·.drop Rtp.headerLength) = runs.map (toWire f.order) := by
  induction runs generalizing s with
  | nil => rfl
  | cons run rest ih => rw [packetsFrom, List.map_cons, Rtp.drop_header, ih, List.map_cons]

/-- The frames in a packet are counted from its length alone. -/
theorem map_framesIn_packetsFrom (s : Rtp.Sender) (h : ∀ run ∈ runs, 2 ∣ run.length) :
    (packetsFrom f s runs).map f.framesIn = runs.map fun run => run.length / f.frameSize := by
  induction runs generalizing s with
  | nil => rfl
  | cons run rest ih =>
    obtain ⟨hrun, hrest⟩ := List.forall_mem_cons.1 h
    rw [packetsFrom, List.map_cons, f.framesIn_packet s hrun, ih _ hrest, List.map_cons]

/-! ## Buffers -/

/-- What a packetizer of a source makes of a buffer. -/
structure Packetization (ssrc : UInt32) (p : Packetizer) (buffer : Buffer)
    (packets : List (List UInt8)) (p' : Packetizer) : Prop where
  /-- A frame is not empty, and there is room for one behind a header. -/
  room : 0 < p.format.frameSize ∧ Rtp.headerLength + p.format.frameSize ≤ p.mtu
  /-- The payload type is the one that is selected for the format. -/
  payloadType : selectPayloadType p.format.toSampling p.map = .ok p.sender.payloadType
  /-- A packet starts with version 2, and without padding, an extension or contributing
  sources. -/
  plain : ∀ packet ∈ packets, packet.head? = some 0x80
  /-- The header of a packet is not marked.  It numbers the packet and tells how many frames
  came before, and everything behind it is payload. -/
  header : ∀ (i : ℕ) (packet : List UInt8), packets[i]? = some packet →
    Rtp.Packet.parse packet = .ok {
      marker := false
      payloadType := p.sender.payloadType
      sequence := p.sender.sequence + UInt16.ofNat i
      timestamp := p.sender.timestamp + UInt32.ofNat ((packets.take i).map p.format.framesIn).sum
      ssrc
      contributors := 0
      payload := packet.drop Rtp.headerLength }
  /-- The payload is made of whole frames, and there is one. -/
  frames : ∀ packet ∈ packets, packet.drop Rtp.headerLength ≠ [] ∧
    p.format.frameSize ∣ (packet.drop Rtp.headerLength).length
  /-- No packet is larger than the limit. -/
  fits : ∀ packet ∈ packets, packet.length ≤ p.mtu
  /-- There is no room for another frame in a packet that is not the last. -/
  full : ∀ (i : ℕ) (packet : List UInt8), packets[i]? = some packet → i + 1 < packets.length →
    p.mtu < packet.length + p.format.frameSize
  /-- The payloads are the longest opening of the buffer that is made of whole frames, in the order
  of the wire.  What is left of the buffer is less than a frame. -/
  samples : ∃ whole, IsWhole p.format.frameSize buffer.data whole ∧
    buffer.data.length < whole.length + p.format.frameSize ∧
    OnWire p.format.order whole (packets.flatMap (·.drop Rtp.headerLength))
  /-- Each packet has used up one number and each frame one tick, and nothing else has
  changed. -/
  after : p' = { p with sender := { p.sender with
    sequence := p.sender.sequence + UInt16.ofNat packets.length
    timestamp := p.sender.timestamp + UInt32.ofNat (packets.map p.format.framesIn).sum } }

namespace Packetizer

variable {p : Packetizer}

/-- A valid packetizer makes packets of a buffer as it should. -/
theorem Valid.packetization (h : p.Valid) (buffer : Buffer) :
    Packetization p.sender.ssrc p buffer ((packetize buffer).run p).1
      ((packetize buffer).run p).2 := by
  have hdvd : ∀ run ∈ p.runs buffer, p.format.frameSize ∣ run.length := fun run hrun =>
    dvd_length_of_mem_runs h hrun
  have heven : ∀ run ∈ p.runs buffer, 2 ∣ run.length := fun run hrun =>
    Sampling.two_dvd (hdvd run hrun)
  rw [packetize_run]
  dsimp only
  refine ⟨⟨h.frameSize_pos, h.room⟩, h.payloadType, ?_, ?_, ?_, ?_, ?_, ?_, ?_⟩
  · intro packet hin
    obtain ⟨run, -, s, rfl⟩ := run_of_mem_packetsFrom hin
    rfl
  · intro i packet hi
    obtain ⟨run, hrun, rfl⟩ := run_of_getElem?_packetsFrom hi
    have hbefore : ∀ run ∈ (p.runs buffer).take i, 2 ∣ run.length := fun run hin =>
      heven run (List.mem_of_mem_take hin)
    have hcount : ((p.runs buffer).take i).length = i :=
      List.length_take_of_le (Nat.le_of_lt (List.getElem?_eq_some_iff.1 hrun).1)
    have hlow : (((p.runs buffer).take i).foldl p.format.pass p.sender).payloadType < 128 := by
      rw [foldl_pass_payloadType]
      exact h.payloadType_lt
    rw [Rtp.parse_header hlow, Rtp.drop_header, foldl_pass, hcount, take_packetsFrom,
      map_framesIn_packetsFrom _ hbefore]
  · intro packet hin
    obtain ⟨run, hrun, s, rfl⟩ := run_of_mem_packetsFrom hin
    rw [Rtp.drop_header, ← List.length_pos_iff, length_toWire _ (heven run hrun)]
    exact ⟨(h.length_run hrun).1, hdvd run hrun⟩
  · intro packet hin
    obtain ⟨run, hrun, s, rfl⟩ := run_of_mem_packetsFrom hin
    rw [List.length_append, Rtp.length_header, length_toWire _ (heven run hrun)]
    exact (h.length_run hrun).2
  · intro i packet hi hmore
    obtain ⟨run, hrun, rfl⟩ := run_of_getElem?_packetsFrom hi
    rw [length_packetsFrom] at hmore
    have hfull : run.length = p.space := length_of_getElem?_chunks h.space_pos hrun hmore
    rw [List.length_append, Rtp.length_header,
      length_toWire _ (heven run (List.mem_of_getElem? hrun)), hfull]
    exact lt_space_add h
  · have hwhole := Sampling.isWhole_wholeFrames h.frameSize_pos buffer.data
    refine ⟨wholeFrames p.format.toSampling buffer.data, hwhole,
      Sampling.length_wholeFrames h.frameSize_pos _, ?_⟩
    rw [List.flatMap_def, map_drop_packetsFrom, ← flatten_runs h]
    exact onWire_flatten p.format.order heven
  · rw [foldl_pass, length_packetsFrom, map_framesIn_packetsFrom _ heven]

/-- The runs behind full packets are those of a buffer of their own. -/
theorem Valid.runs_append (h : p.Valid) {first second joined : Buffer}
    (hfull : p.space ∣ first.data.length) (hjoined : joined.data = first.data ++ second.data) :
    p.runs joined = p.runs first ++ p.runs second := by
  have hwhole : p.format.frameSize ∣ first.data.length := (Nat.dvd_mul_left _ _).trans hfull
  rw [runs, runs, runs, hjoined, Sampling.wholeFrames_append h.frameSize_pos hwhole,
    Sampling.wholeFrames_eq h.frameSize_pos hwhole, chunks_append h.space_pos hfull]

/-- So two buffers and their joined one make the same packets. -/
theorem Valid.packetize_append (h : p.Valid) {first second joined : Buffer}
    (hfull : p.space ∣ first.data.length) (hjoined : joined.data = first.data ++ second.data) :
    (packetize joined).run p
      = (do return (← packetize first) ++ (← packetize second) : StateM Packetizer _).run p := by
  have hsecond := packetize_run { p with sender := (p.runs first).foldl p.format.pass p.sender }
    second
  rw [StateT.run_bind, packetize_run p first]
  change _ = (packetize second >>= _).run _
  rw [StateT.run_bind, hsecond, packetize_run, h.runs_append hfull hjoined, packetsFrom_append,
    List.foldl_append]
  rfl

end Packetizer

/-- Whatever calls came before, a packetizer makes packets of every buffer as it should, and makes
of two buffers what it makes of the joined one when the first fills its packets. -/
theorem packetization_afterAll {map : PayloadMap} (hmap : map.Built) {format : Format}
    {ssrc : UInt32} {sequence : UInt16} {timestamp : UInt32} {built : Packetizer}
    (hbuild : Packetizer.build format map ssrc sequence timestamp = .ok built)
    (calls : List Packetizer.Call) :
    (∀ buffer, Packetization ssrc (built.afterAll calls) buffer
      ((Packetizer.packetize buffer).run (built.afterAll calls)).1
      ((Packetizer.packetize buffer).run (built.afterAll calls)).2) ∧
    ∀ first second joined : Buffer, (built.afterAll calls).space ∣ first.data.length →
      joined.data = first.data ++ second.data →
      (Packetizer.packetize joined).run (built.afterAll calls)
        = (do return (← Packetizer.packetize first) ++ (← Packetizer.packetize second) :
          StateM Packetizer (List (List UInt8))).run (built.afterAll calls) := by
  have hbuilt : built.Reachable := .build hmap hbuild
  have hvalid := (hbuilt.afterAll calls).valid
  have hssrc := (built.afterAll_ssrc calls).trans (Packetizer.build_ssrc hbuild)
  constructor
  · intro buffer
    rw [← hssrc]
    exact hvalid.packetization buffer
  · intro first second joined hfull hjoined
    exact hvalid.packetize_append hfull hjoined

/-- Little-endian samples, both counters about to wrap, a size that is refused and one that leaves
a byte of a packet unused, and a byte that is dropped.  Big-endian samples go out as they are. -/
theorem packetization_afterAll_wrapping :
    ∃ (map : PayloadMap) (built bigEndian : Packetizer), map.Built ∧
      Packetizer.build ⟨⟨48000, 1⟩, .little⟩ map 7 65535 4294967295 = .ok built ∧
      Packetizer.build ⟨⟨48000, 1⟩, .big⟩ map 7 65535 4294967295 = .ok bigEndian ∧
      Packetization 7 (built.afterAll [.setMtu 3, .setMtu 17]) { data := [1, 2, 3, 4, 5, 6, 7] }
        [[128, 96, 255, 255, 255, 255, 255, 255, 0, 0, 0, 7, 2, 1, 4, 3],
          [128, 96, 0, 0, 0, 0, 0, 1, 0, 0, 0, 7, 6, 5]]
        ⟨⟨96, 7, 1, 2⟩, ⟨⟨48000, 1⟩, .little⟩, map, 17⟩ ∧
      Packetization 7 (bigEndian.afterAll []) { data := [1, 2, 3, 4, 5] }
        [[128, 96, 255, 255, 255, 255, 255, 255, 0, 0, 0, 7, 1, 2, 3, 4]]
        ⟨⟨96, 7, 0, 1⟩, ⟨⟨48000, 1⟩, .big⟩, map, 1400⟩ ∧
      (Packetizer.packetize { data := [1, 2, 3, 4, 5, 6, 7] }).run
          (built.afterAll [.setMtu 3, .setMtu 17])
        = (do return (← Packetizer.packetize { data := [1, 2, 3, 4] })
            ++ (← Packetizer.packetize { data := [5, 6, 7] }) :
          StateM Packetizer (List (List UInt8))).run (built.afterAll [.setMtu 3, .setMtu 17]) := by
  have hinsert : PayloadMap.empty.insert 96 ⟨48000, 1⟩ = .ok ⟨[(96, ⟨48000, 1⟩)]⟩ := rfl
  have hmap : PayloadMap.Built ⟨[(96, ⟨48000, 1⟩)]⟩ := .insert .empty hinsert
  have hbuild (order : ByteOrder) :
      Packetizer.build ⟨⟨48000, 1⟩, order⟩ ⟨[(96, ⟨48000, 1⟩)]⟩ 7 65535 4294967295
        = .ok ⟨⟨96, 7, 65535, 4294967295⟩, ⟨⟨48000, 1⟩, order⟩, ⟨[(96, ⟨48000, 1⟩)]⟩, 1400⟩ := rfl
  obtain ⟨hpackets, hjoined⟩ := packetization_afterAll hmap (hbuild .little)
    [.setMtu 3, .setMtu 17]
  obtain ⟨hbig, -⟩ := packetization_afterAll hmap (hbuild .big) []
  have hrun : (Packetizer.packetize { data := [1, 2, 3, 4, 5, 6, 7] }).run
      (Packetizer.afterAll ⟨⟨96, 7, 65535, 4294967295⟩, ⟨⟨48000, 1⟩, .little⟩,
        ⟨[(96, ⟨48000, 1⟩)]⟩, 1400⟩ [.setMtu 3, .setMtu 17])
      = ([[128, 96, 255, 255, 255, 255, 255, 255, 0, 0, 0, 7, 2, 1, 4, 3],
          [128, 96, 0, 0, 0, 0, 0, 1, 0, 0, 0, 7, 6, 5]],
        ⟨⟨96, 7, 1, 2⟩, ⟨⟨48000, 1⟩, .little⟩, ⟨[(96, ⟨48000, 1⟩)]⟩, 17⟩) := by
    change (_ : List (List UInt8) × Packetizer) = _
    decide +kernel
  have hbigRun : (Packetizer.packetize { data := [1, 2, 3, 4, 5] }).run
      (Packetizer.afterAll ⟨⟨96, 7, 65535, 4294967295⟩, ⟨⟨48000, 1⟩, .big⟩,
        ⟨[(96, ⟨48000, 1⟩)]⟩, 1400⟩ [])
      = ([[128, 96, 255, 255, 255, 255, 255, 255, 0, 0, 0, 7, 1, 2, 3, 4]],
        ⟨⟨96, 7, 0, 1⟩, ⟨⟨48000, 1⟩, .big⟩, ⟨[(96, ⟨48000, 1⟩)]⟩, 1400⟩) := by
    change (_ : List (List UInt8) × Packetizer) = _
    decide +kernel
  have hbuffer := hpackets { data := [1, 2, 3, 4, 5, 6, 7] }
  have hbigBuffer := hbig { data := [1, 2, 3, 4, 5] }
  rw [hrun] at hbuffer
  rw [hbigRun] at hbigBuffer
  exact ⟨_, _, _, hmap, hbuild .little, hbuild .big, hbuffer, hbigBuffer,
    hjoined _ _ _ (by decide) rfl⟩

end MediaTransport.Audio
