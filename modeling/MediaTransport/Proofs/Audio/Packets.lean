import Mathlib.Algebra.BigOperators.Ring.List
import Mathlib.Algebra.Ring.Nat
import MediaTransport.Audio.Packetizer
import MediaTransport.Proofs.Audio.PayloadMap
import MediaTransport.Proofs.Bytes
import MediaTransport.Proofs.Rtp.Header

/-!
# The packets of a stream

A packetizer that was built is *valid* (`Packetizer.Valid`): its format is not
empty, a frame fits in a packet, and its headers carry the payload type that is
selected for its format.

A buffer is cut into *runs* of whole frames, and each run becomes one packet.
`packetsFrom` writes the packets of a list of runs without the state monad, and
`packetize_run` says that it is what a packetizer sends.  A whole life of a
packetizer is a list of calls (`SenderCall`).  Whatever the calls are, what it
sends is the packets of one list of runs, which concatenate to the whole frames
of its buffers (`SenderCall.performAll_run`).
-/

namespace MediaTransport.Audio

open Bytes

/-! ## Valid packetizers -/

/-- The invariant of packetizers. -/
structure Packetizer.Valid (p : Packetizer) : Prop where
  /-- The map can be built. -/
  map : p.map.WellFormed
  /-- The format has a rate and channels. -/
  occupied : p.format.rate ≠ 0 ∧ p.format.channels ≠ 0
  /-- A packet has room for a header and a frame. -/
  room : Rtp.headerLength + p.format.frameSize ≤ p.mtu
  /-- Headers carry the payload type of the format. -/
  payloadType : selectPayloadType p.format.toSampling p.map = .ok p.sender.payloadType

theorem check_eq_ok {s : Sampling} (h : s.check = .ok ()) : s.rate ≠ 0 ∧ s.channels ≠ 0 := by
  unfold Sampling.check at h
  split at h
  next => cases h
  next hoccupied => exact not_or.mp hoccupied

/-- A size is accepted only if a header and a frame fit in it. -/
theorem checkMtu_eq_ok {mtu : Nat} {s : Sampling} (h : checkMtu mtu s = .ok ()) :
    Rtp.headerLength + s.frameSize ≤ mtu := by
  unfold checkMtu at h
  split at h
  next => cases h
  next hroom => exact Nat.le_of_not_lt hroom

/-- A format gets a payload type only after it has passed both checks. -/
theorem payloadTypeFor_eq_ok {format : Format} {map : PayloadMap} {mtu : Nat} {payloadType : UInt8}
    (h : payloadTypeFor format map mtu = .ok payloadType) :
    (format.rate ≠ 0 ∧ format.channels ≠ 0) ∧ Rtp.headerLength + format.frameSize ≤ mtu ∧
      selectPayloadType format.toSampling map = .ok payloadType := by
  unfold payloadTypeFor at h
  cases hcheck : format.check with
  | error e =>
    rw [hcheck] at h
    cases h
  | ok =>
    cases hmtu : checkMtu mtu format.toSampling with
    | error e =>
      rw [hcheck, hmtu] at h
      cases h
    | ok =>
      rw [hcheck, hmtu] at h
      exact ⟨check_eq_ok hcheck, checkMtu_eq_ok hmtu, h⟩

/-- A new packetizer has the format and the map that it was built from. -/
theorem build_eq_ok {format : Format} {map : PayloadMap} {ssrc : UInt32} {sequence : UInt16}
    {timestamp : UInt32} {p : Packetizer} (hmap : map.WellFormed)
    (h : Packetizer.build format map ssrc sequence timestamp = .ok p) :
    p.Valid ∧ p.format = format ∧ p.map = map := by
  unfold Packetizer.build at h
  cases hselect : payloadTypeFor format map defaultMtu with
  | error e =>
    rw [hselect] at h
    cases h
  | ok payloadType =>
    rw [hselect] at h
    cases h
    obtain ⟨hoccupied, hroom, hpayloadType⟩ := payloadTypeFor_eq_ok hselect
    have hcut := Rtp.and_low_eq (selectPayloadType_lt hmap hpayloadType)
    exact ⟨⟨hmap, hoccupied, hroom, by rw [hpayloadType, Rtp.Sender.start, hcut]⟩, rfl, rfl⟩

namespace Packetizer.Valid

variable {p : Packetizer}

theorem frameSize_pos (h : p.Valid) : 0 < p.format.frameSize := by
  have hchannels : p.format.channels.toNat ≠ 0 := fun h0 => h.occupied.2 (UInt16.toNat_inj.mp h0)
  rw [Sampling.frameSize]
  omega

theorem payloadType_lt (h : p.Valid) : p.sender.payloadType < 128 :=
  selectPayloadType_lt h.map h.payloadType

/-- A packet takes one frame at least, so cutting a buffer makes headway. -/
theorem space_pos (h : p.Valid) : 0 < p.space := by
  have hroom := h.room
  have hframe := h.frameSize_pos
  have hfits : 0 < (p.mtu - Rtp.headerLength) / p.format.frameSize :=
    Nat.div_pos (by omega) hframe
  exact Nat.mul_pos hfits hframe

/-- Another size changes nothing else. -/
theorem withMtu (h : p.Valid) {mtu : Nat} {p' : Packetizer} (hmtu : p.withMtu mtu = .ok p') :
    p'.Valid ∧ p' = { p with mtu } := by
  unfold Packetizer.withMtu at hmtu
  cases hcheck : checkMtu mtu p.format.toSampling with
  | error e =>
    rw [hcheck] at hmtu
    cases hmtu
  | ok =>
    rw [hcheck] at hmtu
    cases hmtu
    exact ⟨⟨h.map, h.occupied, checkMtu_eq_ok hcheck, h.payloadType⟩, rfl⟩

theorem withSender (h : p.Valid) {s : Rtp.Sender} (hs : s.payloadType = p.sender.payloadType) :
    Valid { p with sender := s } :=
  ⟨h.map, h.occupied, h.room, by rw [h.payloadType, hs]⟩

end Packetizer.Valid

/-! ## Samples on the wire -/

/-- Samples and their bytes on the wire.  Those of a big-endian format go out as they are, and those
of a little-endian one with the two bytes of each sample swapped. -/
inductive OnWire : ByteOrder → List UInt8 → List UInt8 → Prop where
  | big (samples : List UInt8) : OnWire .big samples samples
  | nil : OnWire .little [] []
  | little (first second : UInt8) {samples wire : List UInt8} (h : OnWire .little samples wire) :
      OnWire .little (first :: second :: samples) (second :: first :: wire)

theorem onWire_swapPairs : ∀ {samples : List UInt8}, 2 ∣ samples.length →
    OnWire .little samples (swapPairs samples)
  | [], _ => .nil
  | [_], h => by
    rw [List.length_singleton] at h
    omega
  | first :: second :: rest, h => by
    rw [List.length_cons, List.length_cons] at h
    exact .little first second (onWire_swapPairs (by omega))

/-- Whole samples are put on the wire as `OnWire` says. -/
theorem onWire_toWire (order : ByteOrder) {samples : List UInt8} (h : 2 ∣ samples.length) :
    OnWire order samples (toWire order samples) := by
  cases order with
  | big => exact .big samples
  | little => exact onWire_swapPairs h

theorem length_swapPairs : ∀ {samples : List UInt8}, 2 ∣ samples.length →
    (swapPairs samples).length = samples.length
  | [], _ => rfl
  | [_], h => by
    rw [List.length_singleton] at h
    omega
  | _ :: _ :: rest, h => by
    rw [List.length_cons, List.length_cons] at h
    have ih : (swapPairs rest).length = rest.length := length_swapPairs (by omega)
    simp [swapPairs, ih]

theorem swapPairs_append : ∀ {samples : List UInt8} (more : List UInt8), 2 ∣ samples.length →
    swapPairs (samples ++ more) = swapPairs samples ++ swapPairs more
  | [], _, _ => rfl
  | [_], _, h => by
    rw [List.length_singleton] at h
    omega
  | _ :: _ :: rest, more, h => by
    rw [List.length_cons, List.length_cons] at h
    have ih : swapPairs (rest ++ more) = swapPairs rest ++ swapPairs more :=
      swapPairs_append more (by omega)
    simp [swapPairs, ih]

theorem length_toWire (order : ByteOrder) {samples : List UInt8} (h : 2 ∣ samples.length) :
    (toWire order samples).length = samples.length := by
  cases order with
  | big => rfl
  | little => exact length_swapPairs h

theorem toWire_nil (order : ByteOrder) : toWire order [] = [] := by
  cases order <;> rfl

/-- Whole samples can be put on the wire piece by piece. -/
theorem toWire_append (order : ByteOrder) {samples : List UInt8} (more : List UInt8)
    (h : 2 ∣ samples.length) :
    toWire order (samples ++ more) = toWire order samples ++ toWire order more := by
  cases order with
  | big => rfl
  | little => exact swapPairs_append more h

theorem toWire_flatten (order : ByteOrder) {pieces : List (List UInt8)}
    (h : ∀ piece ∈ pieces, 2 ∣ piece.length) :
    toWire order pieces.flatten = (pieces.map (toWire order)).flatten := by
  induction pieces with
  | nil => exact toWire_nil order
  | cons piece rest ih =>
    rw [List.flatten_cons, toWire_append _ _ (h piece List.mem_cons_self),
      ih fun other hother => h other (List.mem_cons_of_mem piece hother)]
    rfl

/-- Pieces of whole samples go out one behind the other. -/
theorem onWire_flatten (order : ByteOrder) {pieces : List (List UInt8)}
    (h : ∀ piece ∈ pieces, 2 ∣ piece.length) :
    OnWire order pieces.flatten (pieces.map (toWire order)).flatten := by
  rw [← toWire_flatten order h]
  apply onWire_toWire
  rw [List.length_flatten]
  apply List.dvd_sum
  intro length hlength
  obtain ⟨piece, hpiece, rfl⟩ := List.mem_map.mp hlength
  exact h piece hpiece

/-- A frame has two bytes for each channel, so whole frames are whole samples. -/
theorem Sampling.two_dvd {s : Sampling} {samples : List UInt8} (h : s.frameSize ∣ samples.length) :
    2 ∣ samples.length :=
  (Nat.dvd_mul_right 2 s.channels.toNat).trans h

theorem Sampling.dvd_length_wholeFrames (s : Sampling) (samples : List UInt8) :
    s.frameSize ∣ (wholeFrames s samples).length := by
  have hle := Nat.div_mul_le_self samples.length s.frameSize
  rw [wholeFrames, List.length_take, Nat.min_eq_left hle]
  exact Nat.dvd_mul_left _ _

/-- The longest opening of some samples that is made of whole frames. -/
structure IsWhole (frameSize : ℕ) (samples whole : List UInt8) : Prop where
  /-- It is an opening. -/
  opening : whole <+: samples
  /-- It is made of whole frames. -/
  frames : frameSize ∣ whole.length
  /-- It holds every other one that is. -/
  longest : ∀ other, other <+: samples → frameSize ∣ other.length → other <+: whole

/-- Every opening that is made of whole frames is an opening of the whole frames. -/
theorem Sampling.isPrefix_wholeFrames {s : Sampling} (hs : 0 < s.frameSize)
    {opening samples : List UInt8} (hopening : opening <+: samples)
    (hwhole : s.frameSize ∣ opening.length) : opening <+: wholeFrames s samples := by
  refine List.prefix_take_iff.mpr ⟨hopening, ?_⟩
  obtain ⟨count, hcount⟩ := hwhole
  rw [hcount, Nat.mul_comm]
  apply Nat.mul_le_mul_right
  rw [Nat.le_div_iff_mul_le hs, Nat.mul_comm, ← hcount]
  exact hopening.length_le

/-- The whole frames of a buffer are its longest opening that is made of frames. -/
theorem Sampling.isWhole_wholeFrames {s : Sampling} (hs : 0 < s.frameSize) (samples : List UInt8) :
    IsWhole s.frameSize samples (wholeFrames s samples) where
  opening := List.take_prefix _ _
  frames := s.dvd_length_wholeFrames samples
  longest _ := s.isPrefix_wholeFrames hs

/-! ## Packets of runs -/

/-- The clock ticks that a run of frames takes. -/
def Format.ticks (f : Format) (run : List UInt8) : UInt32 :=
  UInt32.ofNat (run.length / f.frameSize)

/-- The sender after the packet of a run. -/
def Format.pass (f : Format) (s : Rtp.Sender) (run : List UInt8) : Rtp.Sender :=
  s.next.advance (f.ticks run)

/-- The packets of some runs. -/
def packetsFrom (f : Format) : Rtp.Sender → List (List UInt8) → List (List UInt8)
  | _, [] => []
  | s, run :: rest =>
    (s.header false ++ toWire f.order run) :: packetsFrom f (f.pass s run) rest

/-- The runs of frames in a buffer. -/
def Packetizer.runs (p : Packetizer) (buffer : Buffer) : List (List UInt8) :=
  chunks p.space (wholeFrames p.format.toSampling buffer.data)

/-- The packets of some runs use up a sequence number each, and the clock counts their frames. -/
theorem foldl_pass (f : Format) (s : Rtp.Sender) (runs : List (List UInt8)) :
    runs.foldl f.pass s = { s with
      sequence := s.sequence + UInt16.ofNat runs.length
      timestamp := s.timestamp
        + UInt32.ofNat (runs.map fun run => run.length / f.frameSize).sum } := by
  induction runs generalizing s with
  | nil => simp
  | cons run rest ih =>
    rw [List.foldl_cons, ih, List.length_cons, List.map_cons, List.sum_cons, UInt32.ofNat_add,
      Nat.add_comm rest.length, UInt16.ofNat_add, ← UInt16.add_assoc, ← UInt32.add_assoc]
    rfl

theorem foldl_pass_payloadType (f : Format) (s : Rtp.Sender) (runs : List (List UInt8)) :
    (runs.foldl f.pass s).payloadType = s.payloadType := by
  rw [foldl_pass]

/-- The packet of a run has the header that the runs before it leave. -/
theorem getElem?_packetsFrom (f : Format) (s : Rtp.Sender) (runs : List (List UInt8)) (i : Nat) :
    (packetsFrom f s runs)[i]? = runs[i]?.map fun run =>
      ((runs.take i).foldl f.pass s).header false ++ toWire f.order run := by
  induction runs generalizing s i with
  | nil => rfl
  | cons run rest ih =>
    cases i with
    | zero => rfl
    | succ i => exact ih (f.pass s run) i

/-- The packets of later runs go on where the sender has come to. -/
theorem packetsFrom_append (f : Format) (s : Rtp.Sender) (runs more : List (List UInt8)) :
    packetsFrom f s (runs ++ more)
      = packetsFrom f s runs ++ packetsFrom f (runs.foldl f.pass s) more := by
  induction runs generalizing s with
  | nil => rfl
  | cons run rest ih => simp [packetsFrom, ih]

theorem length_packetsFrom (f : Format) (s : Rtp.Sender) (runs : List (List UInt8)) :
    (packetsFrom f s runs).length = runs.length := by
  induction runs generalizing s with
  | nil => rfl
  | cons run rest ih => simp [packetsFrom, ih]

/-- A run goes out behind a header without the marker, and the sender passes on. -/
theorem send_run (p : Packetizer) (run : List UInt8) :
    (Packetizer.send run).run p
      = (p.sender.header false ++ toWire p.format.order run,
        { p with sender := p.format.pass p.sender run }) := rfl

theorem sendAll_run (p : Packetizer) (runs : List (List UInt8)) :
    (runs.mapM Packetizer.send).run p
      = (packetsFrom p.format p.sender runs,
        { p with sender := runs.foldl p.format.pass p.sender }) := by
  induction runs generalizing p with
  | nil => rfl
  | cons run rest ih =>
    have hrest := ih { p with sender := p.format.pass p.sender run }
    calc ((run :: rest).mapM Packetizer.send).run p
        = (fun q => ((p.sender.header false ++ toWire p.format.order run) :: q.1, q.2))
          ((rest.mapM Packetizer.send).run { p with sender := p.format.pass p.sender run }) := by
          rw [List.mapM_cons]
          rfl
      _ = _ := by
          rw [hrest]
          rfl

/-- A buffer becomes the packets of its runs. -/
theorem packetize_run (p : Packetizer) (buffer : Buffer) :
    (Packetizer.packetize buffer).run p
      = (packetsFrom p.format p.sender (p.runs buffer),
        { p with sender := (p.runs buffer).foldl p.format.pass p.sender }) :=
  sendAll_run p (p.runs buffer)

/-- Cutting loses nothing but the bytes behind the last whole frame. -/
theorem flatten_runs {p : Packetizer} (hp : p.Valid) (buffer : Buffer) :
    (p.runs buffer).flatten = wholeFrames p.format.toSampling buffer.data :=
  chunks_flatten hp.space_pos _

theorem dvd_length_of_mem_runs {p : Packetizer} (hp : p.Valid) {buffer : Buffer}
    {run : List UInt8} (h : run ∈ p.runs buffer) : p.format.frameSize ∣ run.length :=
  dvd_length_of_mem_chunks hp.space_pos (Nat.dvd_mul_left _ _)
    (Sampling.dvd_length_wholeFrames _ _) h

/-! ## Whole streams -/

/-- A call on a sender of audio. -/
inductive SenderCall where
  /-- Send the frames of a buffer. -/
  | packetize (buffer : Buffer)
  /-- Set the size of the largest packet. -/
  | setMtu (mtu : Nat)

/-- The packets that a call sends.  A size that is refused changes nothing. -/
def SenderCall.perform : SenderCall → StateM Packetizer (List (List UInt8))
  | .packetize buffer => Packetizer.packetize buffer
  | .setMtu mtu => fun p => ([], (p.withMtu mtu).toOption.getD p)

/-- The packets that some calls send, in order. -/
def SenderCall.performAll : List SenderCall → StateM Packetizer (List (List UInt8))
  | [] => return []
  | call :: rest => do
    let packets ← call.perform
    let more ← performAll rest
    return packets ++ more

/-- The samples that a call hands in. -/
def SenderCall.samples : SenderCall → List UInt8
  | .packetize buffer => buffer.data
  | .setMtu _ => []

/-- One call sends the packets of runs that concatenate to its whole frames. -/
theorem SenderCall.perform_run {p : Packetizer} (hp : p.Valid) (call : SenderCall) :
    ∃ (runs : List (List UInt8)) (p' : Packetizer), p'.Valid ∧ p'.format = p.format ∧
      p'.sender = runs.foldl p.format.pass p.sender ∧
      call.perform.run p = (packetsFrom p.format p.sender runs, p') ∧
      runs.flatten = wholeFrames p.format.toSampling call.samples ∧
      ∀ run ∈ runs, p.format.frameSize ∣ run.length := by
  cases call with
  | packetize buffer =>
    refine ⟨p.runs buffer, { p with sender := (p.runs buffer).foldl p.format.pass p.sender },
      hp.withSender (foldl_pass_payloadType _ _ _), rfl, rfl, packetize_run p buffer,
      flatten_runs hp buffer, ?_⟩
    intro run hrun
    exact dvd_length_of_mem_runs hp hrun
  | setMtu mtu =>
    have hnothing : wholeFrames p.format.toSampling [] = [] := List.take_nil
    cases hmtu : p.withMtu mtu with
    | error e =>
      refine ⟨[], p, hp, rfl, rfl, ?_, hnothing.symm, fun _ h => nomatch h⟩
      change (_, (p.withMtu mtu).toOption.getD p) = _
      rw [hmtu]
      rfl
    | ok p' =>
      obtain ⟨hvalid, heq⟩ := hp.withMtu hmtu
      refine ⟨[], p', hvalid, by rw [heq], by rw [heq]; rfl, ?_, hnothing.symm,
        fun _ h => nomatch h⟩
      change (_, (p.withMtu mtu).toOption.getD p) = _
      rw [hmtu]
      rfl

/-- Calls send the packets of one list of runs, which concatenate to the whole
frames of all buffers. -/
theorem SenderCall.performAll_run (calls : List SenderCall) {p : Packetizer} (hp : p.Valid) :
    ∃ runs : List (List UInt8),
      ((performAll calls).run p).1 = packetsFrom p.format p.sender runs ∧
      runs.flatten = calls.flatMap (fun call => wholeFrames p.format.toSampling call.samples) ∧
      ∀ run ∈ runs, p.format.frameSize ∣ run.length := by
  induction calls generalizing p with
  | nil => exact ⟨[], rfl, rfl, fun _ h => nomatch h⟩
  | cons call rest ih =>
    obtain ⟨runs, p', hp', hformat, hsender, hrun, hflatten, hdvd⟩ := perform_run hp call
    obtain ⟨more, hmore, hflattenMore, hdvdMore⟩ := ih hp'
    rw [hformat, hsender] at hmore
    rw [hformat] at hflattenMore hdvdMore
    refine ⟨runs ++ more, ?_, ?_, ?_⟩
    · rw [performAll, StateT.run_bind, hrun, packetsFrom_append, ← hmore]
      rfl
    · rw [List.flatten_append, hflatten, hflattenMore, List.flatMap_cons]
    · intro run h
      exact (List.mem_append.mp h).elim (hdvd run) (hdvdMore run)

end MediaTransport.Audio
