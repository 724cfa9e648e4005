import Mathlib.Algebra.GroupWithZero.Nat
import MediaTransport.Audio.Depacketizer
import MediaTransport.Proofs.Activity
import MediaTransport.Proofs.Audio.Packets

/-!
# Loopback

A receiver that gets every packet of a sender, and shares its map, gets back the
whole frames that were handed in, in the order of the wire.  The packets may be
of any sizes, since the size of the largest one can be set between two buffers.

The proof goes along the runs of the stream.  A receiver is *tuned* to a sender
(`Tuned`) when it follows the sender's payload type and its origin of time lies a
known number of frames behind the sender's clock.  The first packet tunes a new
receiver (`depacketize_first`), and every later one leaves a tuned receiver as it
is (`depacketize_tuned`).  Both counters wrap, so the number of frames counts
modulo the width of the clock.
-/

namespace MediaTransport.Audio

/-- The frames in a packet. -/
def Format.framesIn (f : Format) (packet : List UInt8) : Nat :=
  (packet.length - Rtp.headerLength) / f.frameSize

/-- The nanoseconds from the origin of time to a frame, whose number counts
modulo the width of the clock. -/
def Format.dueTime (f : Format) (frames : Nat) : Nat :=
  frames % 2 ^ 32 * nanosPerSecond / f.rate.toNat

/-- The format of a sampling on the wire. -/
def Sampling.onWire (s : Sampling) : Format := { s with }

/-- Receives packets one by one. -/
def Depacketizer.receiveAll (packets : List (List UInt8)) :
    ExceptT Error (StateM Depacketizer) (List Received) :=
  packets.mapM Depacketizer.depacketize

theorem Format.framesIn_packet (f : Format) (s : Rtp.Sender) {run : List UInt8}
    (h : 2 ∣ run.length) :
    f.framesIn (s.header false ++ toWire f.order run) = run.length / f.frameSize := by
  rw [Format.framesIn, List.length_append, Rtp.length_header, Nat.add_sub_cancel_left,
    length_toWire _ h]

/-! ## One packet -/

theorem depacketize_run {bytes : List UInt8} {packet : Rtp.Packet}
    (h : Rtp.Packet.parse bytes = .ok packet) (d : Depacketizer) :
    (Depacketizer.depacketize bytes).run.run d = (.ok (d.accept packet).1, (d.accept packet).2) := by
  unfold Depacketizer.depacketize
  rw [h]
  rfl

theorem depacketize_error {bytes : List UInt8} {e : Error}
    (h : Rtp.Packet.parse bytes = .error e) (d : Depacketizer) :
    (Depacketizer.depacketize bytes).run.run d = (.error e, d) := by
  unfold Depacketizer.depacketize
  rw [h]
  rfl

/-! ## Tuned receivers -/

/-- A receiver whose origin of time is a number of frames behind the clock of a
sender. -/
structure Tuned (f : Format) (s : Rtp.Sender) (d : Depacketizer) (origin : UInt32)
    (frames : Nat) : Prop where
  /-- The receiver knows the payload type. -/
  payloadType : d.payloadType = s.payloadType
  /-- The receiver knows the format. -/
  format : d.format = f.toSampling.onWire
  /-- The receiver has the origin of time. -/
  start : d.origin = some origin
  /-- The clock of the sender is ahead of it. -/
  clock : s.timestamp = origin + UInt32.ofNat frames

/-- A tuned receiver stays tuned when the sender passes on to the next run. -/
theorem Tuned.pass {f : Format} {s : Rtp.Sender} {d : Depacketizer} {origin : UInt32}
    {frames : Nat} (h : Tuned f s d origin frames) (run : List UInt8) :
    Tuned f (f.pass s run) d origin (frames + run.length / f.frameSize) := by
  refine ⟨h.payloadType, h.format, h.start, ?_⟩
  rw [UInt32.ofNat_add, ← UInt32.add_assoc, ← h.clock]
  rfl

theorem nanosOfTicks_ofNat (f : Format) (frames : Nat) :
    nanosOfTicks (UInt32.ofNat frames) f.rate = f.dueTime frames := by
  rw [nanosOfTicks, UInt32.toNat_ofNat', Format.dueTime]

/-- A tuned receiver reports nothing and stays as it is. -/
theorem depacketize_tuned {f : Format} {s : Rtp.Sender} {d : Depacketizer} {origin : UInt32}
    {frames : Nat} (h : Tuned f s d origin frames) (hs : s.payloadType < 128)
    (payload : List UInt8) :
    (Depacketizer.depacketize (s.header false ++ payload)).run.run d
      = (.ok ⟨{ data := payload, time := some (f.dueTime frames) }, none⟩, d) := by
  have hfollow : d.follow s.payloadType = (none, d) := by
    rw [Depacketizer.follow, if_pos h.payloadType.symm]
  have hticks : s.timestamp - origin = UInt32.ofNat frames := by
    rw [h.clock, UInt32.add_comm, UInt32.add_sub_cancel]
  have hrate : d.format.rate = f.rate := by
    rw [h.format]
    rfl
  have hstays : { d with origin := some origin } = d := by
    rw [← h.start]
  rw [depacketize_run (Rtp.parse_header hs false payload)]
  simp only [Depacketizer.accept, hfollow, h.start, Option.getD_some, hticks, hrate,
    nanosOfTicks_ofNat, hstays]

/-- A new receiver takes the format of its first payload type, and reports it
unless it is the one that it starts with. -/
theorem follow_new {map : PayloadMap} {payloadType : UInt8} {s : Sampling}
    (h : samplingOf? payloadType map = some s) :
    ({ map } : Depacketizer).follow payloadType
      = (if s = stereo then none else some (.changed s.onWire),
        { map, payloadType, format := s.onWire }) := by
  rw [Depacketizer.follow]
  split
  next hsame =>
    -- The payload type is the fixed one for stereo, which no map can redefine.
    have hstereo : s = stereo := by
      rw [hsame] at h
      exact (Option.some.inj h).symm
    rw [if_pos hstereo, hstereo, hsame]
    rfl
  next =>
    simp only [h]
    by_cases hstereo : s = stereo
    · rw [if_pos hstereo, hstereo]
      rfl
    · have hformat : s.onWire ≠ Format.initial := by
        intro heq
        exact hstereo (congrArg Format.toSampling heq)
      rw [if_neg hstereo]
      exact if_neg hformat

/-- The first packet of a stream tunes a new receiver to it, which reports the
format unless it is the one that it starts with. -/
theorem depacketize_first {f : Format} {s : Rtp.Sender} {map : PayloadMap}
    (hs : s.payloadType < 128) (hsampling : samplingOf? s.payloadType map = some f.toSampling)
    (payload : List UInt8) :
    ∃ d, Tuned f s d s.timestamp 0 ∧
      (Depacketizer.depacketize (s.header false ++ payload)).run.run { map }
        = (.ok ⟨{ data := payload, time := some (f.dueTime 0) },
          if f.toSampling = stereo then none else some (.changed f.toSampling.onWire)⟩, d) := by
  have hfollow := follow_new hsampling
  refine ⟨⟨f.toSampling.onWire, s.payloadType, map, some s.timestamp⟩,
    ⟨rfl, rfl, rfl, (UInt32.add_zero _).symm⟩, ?_⟩
  rw [depacketize_run (Rtp.parse_header hs false payload)]
  simp only [Depacketizer.accept, hfollow, Option.getD_none, UInt32.sub_self]
  rw [← nanosOfTicks_ofNat]
  rfl

/-! ## Whole streams -/

/-- What comes out of the packets of some runs, of which the first reports a
notice.  The runs start a number of frames after the origin of time. -/
def receivedFrom (f : Format) (notice : Option FormatNotice) : (frames : Nat) →
    List (List UInt8) → List Received
  | _, [] => []
  | frames, run :: rest =>
    ⟨{ data := toWire f.order run, time := some (f.dueTime frames) }, notice⟩
      :: receivedFrom f none (frames + run.length / f.frameSize) rest

theorem receiveAll_cons {packet : List UInt8} {packets : List (List UInt8)} {r : Received}
    {rs : List Received} {d d₁ d₂ : Depacketizer}
    (hfirst : (Depacketizer.depacketize packet).run.run d = (.ok r, d₁))
    (hrest : (Depacketizer.receiveAll packets).run.run d₁ = (.ok rs, d₂)) :
    (Depacketizer.receiveAll (packet :: packets)).run.run d = (.ok (r :: rs), d₂) := by
  rw [Depacketizer.receiveAll, List.mapM_cons, run_bind_ok _ hfirst]
  exact run_bind_ok _ hrest

/-- A tuned receiver gets every packet. -/
theorem receiveAll_tuned {f : Format} {s : Rtp.Sender} {d : Depacketizer} {origin : UInt32}
    {frames : Nat} (h : Tuned f s d origin frames) (hs : s.payloadType < 128)
    (runs : List (List UInt8)) :
    (Depacketizer.receiveAll (packetsFrom f s runs)).run.run d
      = (.ok (receivedFrom f none frames runs), d) := by
  induction runs generalizing s frames with
  | nil => rfl
  | cons run rest ih =>
    have hfirst := depacketize_tuned h hs (toWire f.order run)
    exact receiveAll_cons hfirst (ih (h.pass run) hs)

/-- A new receiver gets every packet, and the first one reports its format. -/
theorem receiveAll_new {f : Format} {s : Rtp.Sender} {map : PayloadMap}
    (hs : s.payloadType < 128) (hsampling : samplingOf? s.payloadType map = some f.toSampling)
    (runs : List (List UInt8)) :
    ((Depacketizer.receiveAll (packetsFrom f s runs)).run.run { map }).1
      = .ok (receivedFrom f
        (if f.toSampling = stereo then none else some (.changed f.toSampling.onWire)) 0 runs) := by
  cases runs with
  | nil => rfl
  | cons run rest =>
    obtain ⟨d, htuned, hfirst⟩ := depacketize_first hs hsampling (toWire f.order run)
    have hrest := receiveAll_tuned (htuned.pass run) hs rest
    rw [packetsFrom, receiveAll_cons hfirst hrest, Nat.zero_add, receivedFrom]
    rw [Nat.zero_add]

theorem length_receivedFrom (f : Format) (notice : Option FormatNotice) (frames : Nat)
    (runs : List (List UInt8)) : (receivedFrom f notice frames runs).length = runs.length := by
  induction runs generalizing notice frames with
  | nil => rfl
  | cons run rest ih => simp [receivedFrom, ih]

theorem map_data_receivedFrom (f : Format) (notice : Option FormatNotice) (frames : Nat)
    (runs : List (List UInt8)) :
    (receivedFrom f notice frames runs).map (·.buffer.data) = runs.map (toWire f.order) := by
  induction runs generalizing notice frames with
  | nil => rfl
  | cons run rest ih => simp [receivedFrom, ih]

/-- A buffer is due after all frames in earlier packets. -/
theorem receivedFrom_time {f : Format} {s : Rtp.Sender} {notice : Option FormatNotice}
    {frames : Nat} {runs : List (List UInt8)} (h : ∀ run ∈ runs, f.frameSize ∣ run.length)
    {j : Nat} {r : Received} (hj : (receivedFrom f notice frames runs)[j]? = some r) :
    r.buffer.time = some (f.dueTime
      (frames + (((packetsFrom f s runs).take j).map f.framesIn).sum)) := by
  induction runs generalizing s notice frames j with
  | nil => cases hj
  | cons run rest ih =>
    cases j with
    | zero =>
      cases hj
      rfl
    | succ j =>
      have hframes := f.framesIn_packet s (Sampling.two_dvd (h run List.mem_cons_self))
      have hrest := ih (s := f.pass s run) (fun r hr => h r (List.mem_cons_of_mem run hr)) hj
      rw [hrest, packetsFrom, List.take_succ_cons, List.map_cons, List.sum_cons, hframes,
        Nat.add_assoc]

/-- Only the first buffer reports a notice. -/
theorem receivedFrom_notice {f : Format} {notice : Option FormatNotice} {frames : Nat}
    {runs : List (List UInt8)} {j : Nat} {r : Received}
    (hj : (receivedFrom f notice frames runs)[j]? = some r) :
    r.notice = if j = 0 then notice else none := by
  induction runs generalizing notice frames j with
  | nil => cases hj
  | cons run rest ih =>
    cases j with
    | zero =>
      cases hj
      rfl
    | succ j =>
      rw [ih hj]
      simp

/-- Whatever the calls on a sender are, a new receiver with the same map gets
every packet.  Together the packets hold the whole frames of every buffer in the
order of the wire, each is due after the frames in the packets before it, and only
the first one reports a format, unless it is stereo at the fixed rate. -/
theorem receiveAll_performAll {map : PayloadMap} (hmap : map.Built)
    (hstereo : map.get? stereoPayloadType = none) (hmono : map.get? monoPayloadType = none)
    {format : Format} {ssrc : UInt32} {sequence : UInt16} {timestamp : UInt32} {p : Packetizer}
    (hp : Packetizer.build format map ssrc sequence timestamp = .ok p)
    (calls : List SenderCall) :
    ∃ received : List Received,
      ((Depacketizer.receiveAll ((SenderCall.performAll calls).run p).1).run.run { map }).1
        = .ok received ∧
      received.length = ((SenderCall.performAll calls).run p).1.length ∧
      (∃ wholes : List (List UInt8),
        List.Forall₂ (fun call whole => IsWhole format.frameSize call.samples whole) calls wholes ∧
        OnWire format.order wholes.flatten (received.flatMap (·.buffer.data))) ∧
      ∀ (j : Nat) (r : Received), received[j]? = some r →
        r.buffer.time = some (((((SenderCall.performAll calls).run p).1.take j).map
          format.framesIn).sum % 2 ^ 32 * nanosPerSecond / format.rate.toNat) ∧
        r.notice = if j = 0 ∧ format.toSampling ≠ stereo
          then some (.changed format.toSampling.onWire) else none := by
  obtain ⟨hvalid, rfl, rfl⟩ := build_eq_ok hmap.wellFormed hp
  obtain ⟨runs, hpackets, hflatten, hdvd⟩ := SenderCall.performAll_run calls hvalid
  have hsampling := samplingOf?_of_select hvalid.map hstereo hmono hvalid.payloadType
  rw [hpackets]
  refine ⟨_, receiveAll_new hvalid.payloadType_lt hsampling runs, ?_, ?_, ?_⟩
  · rw [length_receivedFrom, length_packetsFrom]
  · have hwhole (call : SenderCall) := Sampling.isWhole_wholeFrames hvalid.frameSize_pos call.samples
    have hruns : ∀ run ∈ runs, 2 ∣ run.length := fun run hrun => Sampling.two_dvd (hdvd run hrun)
    refine ⟨calls.map fun call => wholeFrames p.format.toSampling call.samples, ?_, ?_⟩
    · exact List.forall₂_map_right_iff.mpr (List.forall₂_same.mpr fun call _ => hwhole call)
    · rw [List.flatMap_def, map_data_receivedFrom, ← List.flatMap_def, ← hflatten]
      exact onWire_flatten p.format.order hruns
  · intro j r hj
    refine ⟨?_, ?_⟩
    · rw [receivedFrom_time hdvd hj, Nat.zero_add]
      rfl
    · rw [receivedFrom_notice hj]
      by_cases hj : j = 0 <;> by_cases hs : p.format.toSampling = stereo <;> simp [hj, hs]

/-- The data that is received, as the result of receiving tells it. -/
theorem data_of_receiveAll {result : Except Error (List Received)} {received : List Received}
    {data : List UInt8} (h : result = .ok received)
    (hdata : result.toOption.map (fun received => received.flatMap (·.buffer.data)) = some data) :
    received.flatMap (·.buffer.data) = data := by
  rw [h] at hdata
  exact Option.some.inj hdata

/-- Little-endian samples and a clock about to wrap: a packet with two frames, one
with a frame after a smaller size was set, and a byte that is dropped.  Big-endian
samples come out as they went in. -/
theorem receiveAll_performAll_wrapping :
    ∃ (map : PayloadMap) (p bigEndian : Packetizer) (received other : List Received), map.Built ∧
      Packetizer.build ⟨⟨48000, 1⟩, .little⟩ map 7 65535 4294967295 = .ok p ∧
      Packetizer.build ⟨⟨48000, 1⟩, .big⟩ map 7 65535 4294967295 = .ok bigEndian ∧
      ((Depacketizer.receiveAll ((SenderCall.performAll
        [.packetize { data := [1, 2, 3, 4] }, .setMtu 3, .setMtu 14,
          .packetize { data := [5, 6, 7] }]).run p).1).run.run { map }).1 = .ok received ∧
      ((Depacketizer.receiveAll ((SenderCall.performAll
        [.packetize { data := [1, 2, 3, 4, 5] }]).run bigEndian).1).run.run { map }).1
          = .ok other ∧
      (∃ wholes : List (List UInt8),
        List.Forall₂ (fun call whole => IsWhole 2 (SenderCall.samples call) whole)
          [.packetize { data := [1, 2, 3, 4] }, .setMtu 3, .setMtu 14,
            .packetize { data := [5, 6, 7] }] wholes ∧
        OnWire .little wholes.flatten (received.flatMap (·.buffer.data))) ∧
      received.flatMap (·.buffer.data) = [2, 1, 4, 3, 6, 5] ∧
      other.flatMap (·.buffer.data) = [1, 2, 3, 4] := by
  have hinsert : PayloadMap.empty.insert 96 ⟨48000, 1⟩ = .ok ⟨[(96, ⟨48000, 1⟩)]⟩ := rfl
  have hbuilt : PayloadMap.Built ⟨[(96, ⟨48000, 1⟩)]⟩ := .insert .empty hinsert
  have hbuild (order : ByteOrder) :
      Packetizer.build ⟨⟨48000, 1⟩, order⟩ ⟨[(96, ⟨48000, 1⟩)]⟩ 7 65535 4294967295
        = .ok ⟨⟨96, 7, 65535, 4294967295⟩, ⟨⟨48000, 1⟩, order⟩, ⟨[(96, ⟨48000, 1⟩)]⟩, 1400⟩ := rfl
  obtain ⟨received, hreceived, -, hdata, -⟩ := receiveAll_performAll hbuilt rfl rfl
    (hbuild .little)
    [.packetize { data := [1, 2, 3, 4] }, .setMtu 3, .setMtu 14, .packetize { data := [5, 6, 7] }]
  obtain ⟨other, hother, -⟩ := receiveAll_performAll hbuilt rfl rfl (hbuild .big)
    [.packetize { data := [1, 2, 3, 4, 5] }]
  refine ⟨_, _, _, received, other, hbuilt, hbuild .little, hbuild .big, hreceived, hother, hdata,
    ?_, ?_⟩
  · exact data_of_receiveAll hreceived (by decide +kernel)
  · exact data_of_receiveAll hother (by decide +kernel)

end MediaTransport.Audio
