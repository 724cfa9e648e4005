import MediaTransport.Proofs.Audio.Receiver

/-!
# What a receiver reports

The *transcript* of a run has every call with its answer and the receiver after it.

A listener who sees nothing but the reports of changed formats knows the format of the
receiver at any time (`formatTold_transcript`), because the receiver never changes its
format silently (`follow_told`).  A packet that cannot be read leaves no trace but its own
answer, so the transcript without such packets is that of the run without them
(`transcript_filter`).  A type is reported as unmapped just when it is looked up and
nothing is found (`follow_unmapped_iff`), and from a reset to the next packet that can be
read the origin of time stays open (`foldl_after_origin`).
-/

namespace MediaTransport.Audio

open Depacketizer

/-! ## Reports -/

/-- The format that is known after a report. -/
def Format.told (format : Format) : Option FormatNotice → Format
  | some (.changed other) => other
  | _ => format

/-- A change of format is always reported. -/
theorem follow_told (d : Depacketizer) (payloadType : UInt8) :
    (d.follow payloadType).2.format = d.format.told (d.follow payloadType).1 := by
  unfold follow
  split
  next => rfl
  next =>
    dsimp only
    split
    next => rfl
    next => split <;> rfl

/-- Only a new payload type that nothing maps is reported as unmapped. -/
theorem follow_unmapped_iff {d : Depacketizer} {payloadType other : UInt8} :
    (d.follow payloadType).1 = some (.unmapped other) ↔
      other = payloadType ∧ payloadType ≠ d.payloadType ∧ samplingOf? payloadType d.map = none := by
  unfold follow
  split
  next hsame => simp [hsame]
  next hother =>
    dsimp only
    split
    next hnone => simp [hnone, hother, eq_comm]
    next s hsome => split <;> simp [hsome]

theorem accept_notice (d : Depacketizer) (packet : Rtp.Packet) :
    (d.accept packet).1.notice = (d.follow packet.payloadType).1 :=
  rfl

/-- The two fixed payload types always have a sampling. -/
theorem samplingOf?_eq_none_iff {payloadType : UInt8} {map : PayloadMap} :
    samplingOf? payloadType map = none ↔
      payloadType ≠ stereoPayloadType ∧ payloadType ≠ monoPayloadType ∧
        map.get? payloadType = none := by
  unfold samplingOf?
  split
  next hmono => simp [hmono]
  next hmono => split <;> simp [*]

/-! ## Transcripts -/

/-- What a receiver answers to a call.  Only a packet has an answer. -/
def ReceiverCall.answer? (d : Depacketizer) : ReceiverCall → Option (Except Error Received)
  | .packet bytes => some ((depacketize bytes).run.run d).1
  | _ => none

/-- Whether a call brings a packet that cannot be read. -/
def ReceiverCall.isDamaged : ReceiverCall → Bool
  | .packet bytes => !(Rtp.Packet.parse bytes).isOk
  | _ => false

/-- A call with its answer, and the receiver after it. -/
structure Reception where
  /-- The call. -/
  call : ReceiverCall
  /-- The answer. -/
  answer : Option (Except Error Received)
  /-- The receiver after the call. -/
  after : Depacketizer

/-- What the answer reports of the format. -/
def Reception.notice? (r : Reception) : Option FormatNotice :=
  match r.answer with
  | some (.ok received) => received.notice
  | _ => none

/-- The calls of a run with all that can be seen of them. -/
def transcript (d : Depacketizer) : List ReceiverCall → List Reception
  | [] => []
  | call :: calls => ⟨call, call.answer? d, d.after call⟩ :: transcript (d.after call) calls

/-- The format as it is known from the reports of a run. -/
def formatTold (receptions : List Reception) (format : Format) : Format :=
  receptions.foldl (fun format r => format.told r.notice?) format

/-- A damaged packet leaves no trace. -/
theorem after_damaged {call : ReceiverCall} (h : call.isDamaged = true) (d : Depacketizer) :
    d.after call = d := by
  cases call with
  | reset => cases h
  | install map => cases h
  | packet bytes =>
    cases hparse : Rtp.Packet.parse bytes with
    | ok packet => simp [ReceiverCall.isDamaged, hparse, Except.isOk, Except.toBool] at h
    | error e => rw [Depacketizer.after, depacketize_error hparse]

/-- A packet that cannot be read leaves no trace but its own answer. -/
theorem transcript_filter (d : Depacketizer) (calls : List ReceiverCall) :
    transcript d (calls.filter fun call => !call.isDamaged)
      = (transcript d calls).filter fun r => !r.call.isDamaged := by
  induction calls generalizing d with
  | nil => rfl
  | cons call calls ih =>
    cases hdamaged : call.isDamaged with
    | true => simp [transcript, hdamaged, after_damaged hdamaged, ih]
    | false => simp [transcript, hdamaged, ih]

theorem foldl_after_filter (d : Depacketizer) (calls : List ReceiverCall) :
    (calls.filter fun call => !call.isDamaged).foldl Depacketizer.after d
      = calls.foldl Depacketizer.after d := by
  induction calls generalizing d with
  | nil => rfl
  | cons call calls ih =>
    cases hdamaged : call.isDamaged with
    | true => simp [hdamaged, after_damaged hdamaged, ih]
    | false => simp [hdamaged, ih]

/-- The reports of a call tell its format. -/
theorem after_told (d : Depacketizer) (call : ReceiverCall) :
    (d.after call).format
      = d.format.told (Reception.notice? ⟨call, call.answer? d, d.after call⟩) := by
  cases call with
  | reset => rfl
  | install map => rfl
  | packet bytes =>
    cases hparse : Rtp.Packet.parse bytes with
    | ok packet =>
      simp only [Depacketizer.after, ReceiverCall.answer?, depacketize_run hparse,
        Reception.notice?]
      exact follow_told d packet.payloadType
    | error e =>
      simp only [Depacketizer.after, ReceiverCall.answer?, depacketize_error hparse,
        Reception.notice?]
      rfl

/-- The notices alone tell the format of the receiver. -/
theorem formatTold_transcript (d : Depacketizer) (calls : List ReceiverCall) :
    formatTold (transcript d calls) d.format = (calls.foldl Depacketizer.after d).format := by
  induction calls generalizing d with
  | nil => rfl
  | cons call calls ih =>
    rw [transcript, formatTold, List.foldl_cons, ← after_told]
    exact ih (d.after call)

/-! ## The origin of time -/

/-- Without a packet that can be read the origin stays open. -/
theorem foldl_after_origin {d : Depacketizer} (hd : d.origin = none) {calls : List ReceiverCall}
    (h : ∀ call ∈ calls, call.payloadType? = none) :
    (calls.foldl Depacketizer.after d).origin = none := by
  induction calls generalizing d with
  | nil => exact hd
  | cons call calls ih =>
    obtain ⟨hcall, hcalls⟩ := List.forall_mem_cons.1 h
    refine ih ?_ hcalls
    cases call with
    | reset => rfl
    | install map => exact hd
    | packet bytes =>
      cases hparse : Rtp.Packet.parse bytes with
      | ok packet => simp [ReceiverCall.payloadType?, hparse, Except.toOption] at hcall
      | error e =>
        rw [Depacketizer.after, depacketize_error hparse]
        exact hd

/-- The packet that sets the origin is due at once. -/
theorem accept_time_of_origin {d : Depacketizer} (h : d.origin = none) (packet : Rtp.Packet) :
    (d.accept packet).1.buffer.time = some 0 := by
  rw [accept_time, h, Option.getD_none, UInt32.sub_self]
  simp [nanosOfTicks]

/-- Whatever calls a new receiver has had, a packet that cannot be read is harmless, the reports
tell the format and every unknown payload type, and a reset starts time anew. -/
theorem notices_tellFormats (map : PayloadMap) (calls : List ReceiverCall) :
    (∀ bytes e, Rtp.Packet.parse bytes = .error e →
      (depacketize bytes).run.run (receiverAfter map calls) = (.error e, receiverAfter map calls)) ∧
    (transcript { map } (calls.filter fun call => !call.isDamaged)
        = (transcript { map } calls).filter fun r => !r.call.isDamaged) ∧
    receiverAfter map (calls.filter fun call => !call.isDamaged) = receiverAfter map calls ∧
    formatTold (transcript { map } calls) .initial = (receiverAfter map calls).format ∧
    (∀ bytes packet, Rtp.Packet.parse bytes = .ok packet →
      ∃ received d, (depacketize bytes).run.run (receiverAfter map calls) = (.ok received, d) ∧
        (∀ payloadType, received.notice = some (.unmapped payloadType) ↔
          payloadType = packet.payloadType ∧
          payloadType ≠ (lastPayloadType? calls).getD stereoPayloadType ∧
          payloadType ≠ stereoPayloadType ∧ payloadType ≠ monoPayloadType ∧
          (installed map calls).get? payloadType = none) ∧
        (∀ payloadType, received.notice = some (.unmapped payloadType) →
          d.format = (receiverAfter map calls).format)) ∧
    receiverAfter map (calls ++ [.reset]) = { receiverAfter map calls with origin := none } ∧
    ∀ later, (∀ call ∈ later, call.payloadType? = none) →
      ∀ bytes packet, Rtp.Packet.parse bytes = .ok packet →
        ∃ received d,
          (depacketize bytes).run.run (receiverAfter map (calls ++ .reset :: later))
            = (.ok received, d) ∧
          received.buffer.time = some 0 := by
  have hfollows := follows_receiverAfter map calls
  refine ⟨?_, transcript_filter _ _, foldl_after_filter _ _, formatTold_transcript _ _, ?_, ?_, ?_⟩
  · intro bytes e hparse
    exact depacketize_error hparse _
  · intro bytes packet hparse
    refine ⟨_, _, depacketize_run hparse _, ?_, ?_⟩
    · intro payloadType
      rw [accept_notice, follow_unmapped_iff, samplingOf?_eq_none_iff, hfollows.payloadType,
        hfollows.holds]
      constructor
      · rintro ⟨rfl, hreport⟩
        exact ⟨rfl, hreport⟩
      · rintro ⟨rfl, hreport⟩
        exact ⟨rfl, hreport⟩
    · intro payloadType hnotice
      rw [accept_notice] at hnotice
      rw [accept_format, follow_told, hnotice]
      rfl
  · rw [receiverAfter, List.foldl_append]
    rfl
  · intro later hlater bytes packet hparse
    refine ⟨_, _, depacketize_run hparse _, accept_time_of_origin ?_ packet⟩
    rw [receiverAfter, List.foldl_append, List.foldl_cons]
    exact foldl_after_origin rfl hlater

/-- After a packet of a known type, a reset and a packet that is cut off comes a packet of a type
that the map does not have. -/
theorem notices_tellFormats_restarted :
    Rtp.Packet.parse [0x80] = .error (.malformedPacket .shortHeader) ∧
    (depacketize [0x80]).run.run (receiverAfter ⟨[(96, ⟨48000, 2⟩)]⟩
        [.packet (samplePacket 96), .reset])
      = (.error (.malformedPacket .shortHeader),
        receiverAfter ⟨[(96, ⟨48000, 2⟩)]⟩ [.packet (samplePacket 96), .reset]) ∧
    Rtp.Packet.parse (samplePacket 97) = .ok (sampleRead 97) ∧
    (∀ call ∈ [ReceiverCall.packet [0x80]], call.payloadType? = none) ∧
    ∃ received d, (depacketize (samplePacket 97)).run.run (receiverAfter ⟨[(96, ⟨48000, 2⟩)]⟩
        [.packet (samplePacket 96), .reset, .packet [0x80]]) = (.ok received, d) ∧
      received.notice = some (.unmapped 97) ∧ d.format = Sampling.onWire ⟨48000, 2⟩ ∧
      received.buffer.time = some 0 := by
  have hdamaged : Rtp.Packet.parse [0x80] = .error (.malformedPacket .shortHeader) := by decide
  have hparse : Rtp.Packet.parse (samplePacket 97) = .ok (sampleRead 97) := by decide
  have hquiet : ∀ call ∈ [ReceiverCall.packet [0x80]], call.payloadType? = none := by decide
  obtain ⟨hharmless, -⟩ := notices_tellFormats ⟨[(96, ⟨48000, 2⟩)]⟩
    [.packet (samplePacket 96), .reset]
  obtain ⟨-, -, -, -, hreports, -, -⟩ := notices_tellFormats ⟨[(96, ⟨48000, 2⟩)]⟩
    [.packet (samplePacket 96), .reset, .packet [0x80]]
  obtain ⟨-, -, -, -, -, -, hrestarts⟩ := notices_tellFormats ⟨[(96, ⟨48000, 2⟩)]⟩
    [.packet (samplePacket 96)]
  obtain ⟨received, d, hrun, hunmapped, hkept⟩ := hreports _ _ hparse
  obtain ⟨received', d', hrun', htime⟩ := hrestarts _ hquiet _ _ hparse
  cases hrun.symm.trans hrun'
  have hnotice : received.notice = some (.unmapped 97) :=
    (hunmapped 97).2 ⟨rfl, by decide, by decide, by decide, rfl⟩
  have hformat : (receiverAfter ⟨[(96, ⟨48000, 2⟩)]⟩
      [.packet (samplePacket 96), .reset, .packet [0x80]]).format = Sampling.onWire ⟨48000, 2⟩ := by
    decide
  exact ⟨hdamaged, hharmless _ _ hdamaged, hparse, hquiet, received, d, hrun, hnotice,
    (hkept 97 hnotice).trans hformat, htime⟩

end MediaTransport.Audio
