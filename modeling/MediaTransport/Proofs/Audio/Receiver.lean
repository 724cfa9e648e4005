import Mathlib.Data.List.Induction
import MediaTransport.Proofs.Audio.Loopback

/-!
# The format of a receiver

A receiver looks a payload type up when it differs from that of the packet before, and
only then (`follow_snd`).  Two things follow.

* The first packet of a new receiver gives it what the payload type stands for in its map.
  That is the sampling for which a sender with the same map has selected the payload type,
  unless the map gives the sampling one of the two fixed payload types: these keep their
  meaning for the receiver (`firstPacket_agrees_iff`).
* Later on the packets come in *rows* of one payload type (`IsRow`).  The first packet of a
  row is looked up in the map that is installed then, and a map that is installed within
  the row changes nothing before the row ends (`depacketize_inRow`).
-/

namespace MediaTransport.Audio

open Depacketizer

/-! ## Looking up -/

/-- The format after a payload type was looked up.  An unknown one leaves the format. -/
def lookedUp (payloadType : UInt8) (map : PayloadMap) (format : Format) : Format :=
  match samplingOf? payloadType map with
  | some s => s.onWire
  | none => format

theorem lookedUp_some {payloadType : UInt8} {map : PayloadMap} {s : Sampling}
    (h : samplingOf? payloadType map = some s) (format : Format) :
    lookedUp payloadType map format = s.onWire := by
  simp [lookedUp, h]

/-- A payload type that nothing maps leaves the format as it is. -/
theorem lookedUp_none {payloadType : UInt8} {map : PayloadMap}
    (h : samplingOf? payloadType map = none) (format : Format) :
    lookedUp payloadType map format = format := by
  simp [lookedUp, h]

/-- No map can redefine the fixed payload type for stereo. -/
theorem lookedUp_stereo (map : PayloadMap) (format : Format) :
    lookedUp stereoPayloadType map format = .initial :=
  rfl

/-- Only a payload type that differs from the last one is looked up. -/
theorem follow_snd (d : Depacketizer) (payloadType : UInt8) :
    (d.follow payloadType).2 = if payloadType = d.payloadType then d
      else { d with payloadType, format := lookedUp payloadType d.map d.format } := by
  unfold follow
  split
  next => rfl
  next =>
    cases h : samplingOf? payloadType d.map with
    | none => simp only [lookedUp_none h, h]
    | some s =>
      simp only [lookedUp_some h, h]
      split
      next heq =>
        have hformat : s.onWire = d.format := heq
        rw [hformat]
      next => rfl

/-- A time stamp counts from the origin, at the rate that the packet itself brings. -/
theorem accept_time (d : Depacketizer) (packet : Rtp.Packet) :
    (d.accept packet).1.buffer.time = some (nanosOfTicks
      (packet.timestamp - d.origin.getD packet.timestamp) (d.accept packet).2.format.rate) := by
  have horigin : (d.follow packet.payloadType).2.origin = d.origin := by
    rw [follow_snd]
    split <;> rfl
  rw [← horigin]
  rfl

theorem accept_format (d : Depacketizer) (packet : Rtp.Packet) :
    (d.accept packet).2.format = (d.follow packet.payloadType).2.format :=
  rfl

/-- The receiver follows the payload type of every packet, mapped or not. -/
theorem accept_payloadType (d : Depacketizer) (packet : Rtp.Packet) :
    (d.accept packet).2.payloadType = packet.payloadType := by
  change (d.follow packet.payloadType).2.payloadType = packet.payloadType
  rw [follow_snd]
  split
  next h => exact h.symm
  next => rfl

theorem accept_map (d : Depacketizer) (packet : Rtp.Packet) :
    (d.accept packet).2.map = d.map := by
  change (d.follow packet.payloadType).2.map = d.map
  rw [follow_snd]
  split <;> rfl

/-! ## The first packet -/

/-- A selected payload type stands for its sampling exactly when it is not one of the two
fixed ones, or the sampling is the fixed one. -/
theorem samplingOf?_select_iff {map : PayloadMap} (hmap : map.WellFormed) {s : Sampling}
    {payloadType : UInt8} (h : selectPayloadType s map = .ok payloadType) :
    samplingOf? payloadType map = some s ↔
      (payloadType = stereoPayloadType → s = stereo) ∧
        (payloadType = monoPayloadType → s = mono) := by
  by_cases hmono : payloadType = monoPayloadType
  · subst hmono
    have hother : monoPayloadType ≠ stereoPayloadType := by decide
    simp [samplingOf?, hother, eq_comm]
  · by_cases hstereo : payloadType = stereoPayloadType
    · subst hstereo
      have hother : stereoPayloadType ≠ monoPayloadType := by decide
      simp [samplingOf?, hother, eq_comm]
    · rcases selectPayloadType_cases h with ⟨-, rfl⟩ | ⟨-, rfl⟩ | hfind
      · exact absurd rfl hmono
      · exact absurd rfl hstereo
      · simp [samplingOf?, hmono, hstereo, hmap.get?_of_find? hfind]

/-- A selected payload type stands for something. -/
theorem exists_samplingOf?_of_select {map : PayloadMap} (hmap : map.WellFormed) {s : Sampling}
    {payloadType : UInt8} (h : selectPayloadType s map = .ok payloadType) :
    ∃ found, samplingOf? payloadType map = some found := by
  unfold samplingOf?
  split
  next => exact ⟨_, rfl⟩
  next hmono =>
    split
    next => exact ⟨_, rfl⟩
    next hstereo =>
      rcases selectPayloadType_cases h with ⟨-, rfl⟩ | ⟨-, rfl⟩ | hfind
      · exact absurd rfl hmono
      · exact absurd rfl hstereo
      · exact ⟨s, hmap.get?_of_find? hfind⟩

/-- Whatever else is in the first packet of a payload type that a sender has selected, a new
receiver with the sender's map takes it and has the format that the payload type stands
for.  That is the sampling of the sender exactly when the payload type is not one of the
two fixed ones, or is the fixed one of the sampling. -/
theorem firstPacket_agrees_iff {map : PayloadMap} (hmap : map.Built) {format : Format}
    {payloadType : UInt8} (hselect : selectPayloadType format.toSampling map = .ok payloadType)
    {bytes : List UInt8} {packet : Rtp.Packet} (hparse : Rtp.Packet.parse bytes = .ok packet)
    (htype : packet.payloadType = payloadType) :
    ∃ received d, (depacketize bytes).run.run { map } = (.ok received, d) ∧
      samplingOf? payloadType map = some d.format.toSampling ∧
      (d.format.toSampling = format.toSampling ↔
        (payloadType = stereoPayloadType → format.toSampling = stereo) ∧
          (payloadType = monoPayloadType → format.toSampling = mono)) := by
  subst htype
  obtain ⟨found, hfound⟩ := exists_samplingOf?_of_select hmap.wellFormed hselect
  have hformat : (({ map } : Depacketizer).accept packet).2.format = found.onWire := by
    rw [accept_format, follow_new hfound]
  refine ⟨_, _, depacketize_run hparse _, ?_, ?_⟩
  · rw [hformat, hfound]
    rfl
  · rw [hformat, ← samplingOf?_select_iff hmap.wellFormed hselect, hfound, Option.some.injEq]
    rfl

/-- A packet of one sample in mono, under a payload type. -/
def samplePacket (payloadType : UInt8) : List UInt8 :=
  [0x80, payloadType, 0, 1, 0, 0, 0, 0, 0, 0, 0, 1, 7, 8]

/-- What is read in such a packet. -/
def sampleRead (payloadType : UInt8) : Rtp.Packet :=
  ⟨false, payloadType, 1, 0, 1, 0, [7, 8]⟩

/-- The lowest of three payload types is a fixed one, but it is not the one selected. -/
theorem firstPacket_agrees_iff_dynamic : ∃ map : PayloadMap,
    map.entries = [(10, ⟨8000, 1⟩), (96, ⟨48000, 2⟩), (97, ⟨48000, 2⟩)] ∧ map.Built ∧
    selectPayloadType ⟨48000, 2⟩ map = .ok 96 ∧
    Rtp.Packet.parse (samplePacket 96) = .ok (sampleRead 96) ∧
    ∃ received d, (depacketize (samplePacket 96)).run.run { map } = (.ok received, d) ∧
      d.format.toSampling = ⟨48000, 2⟩ := by
  have hfirst : PayloadMap.empty.insert 97 ⟨48000, 2⟩ = .ok ⟨[(97, ⟨48000, 2⟩)]⟩ := rfl
  have hsecond : PayloadMap.insert ⟨[(97, ⟨48000, 2⟩)]⟩ 96 ⟨48000, 2⟩
      = .ok ⟨[(96, ⟨48000, 2⟩), (97, ⟨48000, 2⟩)]⟩ := rfl
  have hthird : PayloadMap.insert ⟨[(96, ⟨48000, 2⟩), (97, ⟨48000, 2⟩)]⟩ 10 ⟨8000, 1⟩
      = .ok ⟨[(10, ⟨8000, 1⟩), (96, ⟨48000, 2⟩), (97, ⟨48000, 2⟩)]⟩ := rfl
  have hbuilt := PayloadMap.Built.insert (.insert (.insert .empty hfirst) hsecond) hthird
  have hselect : selectPayloadType (⟨⟨48000, 2⟩, .little⟩ : Format).toSampling
      ⟨[(10, ⟨8000, 1⟩), (96, ⟨48000, 2⟩), (97, ⟨48000, 2⟩)]⟩ = .ok 96 := rfl
  have hparse : Rtp.Packet.parse (samplePacket 96) = .ok (sampleRead 96) := by decide
  obtain ⟨received, d, hrun, -, hagrees⟩ := firstPacket_agrees_iff hbuilt hselect hparse rfl
  refine ⟨_, rfl, hbuilt, hselect, hparse, received, d, hrun, hagrees.2 ⟨?_, ?_⟩⟩
  · intro h
    exact absurd h (by decide)
  · intro h
    exact absurd h (by decide)

/-- A map that gives another sampling the fixed payload type for stereo.  A sender selects
it, and a receiver takes the packets for stereo at the fixed rate. -/
theorem firstPacket_disagrees : ∃ (map : PayloadMap) (received : Received) (d : Depacketizer),
    PayloadMap.empty.insert 10 ⟨48000, 2⟩ = .ok map ∧
    Sampling.check ⟨48000, 2⟩ = .ok () ∧
    selectPayloadType ⟨48000, 2⟩ map = .ok 10 ∧
    Rtp.Packet.parse (samplePacket 10) = .ok (sampleRead 10) ∧
    (depacketize (samplePacket 10)).run.run { map } = (.ok received, d) ∧
    d.format.toSampling = ⟨44100, 2⟩ ∧ d.format.toSampling ≠ ⟨48000, 2⟩ := by
  have hparse : Rtp.Packet.parse (samplePacket 10) = .ok (sampleRead 10) := by decide
  exact ⟨_, _, _, rfl, rfl, rfl, hparse, depacketize_run hparse _, by decide, by decide⟩

/-! ## Calls -/

/-- A call on a receiver. -/
inductive ReceiverCall where
  /-- A packet comes in. -/
  | packet (bytes : List UInt8)
  /-- Time starts anew. -/
  | reset
  /-- Other payload types are installed. -/
  | install (map : PayloadMap)

namespace ReceiverCall

/-- The payload type of the packet of a call, if it can be read. -/
def payloadType? : ReceiverCall → Option UInt8
  | .packet bytes => (Rtp.Packet.parse bytes).toOption.map (·.payloadType)
  | _ => none

/-- The map that is installed after a call. -/
def mapAfter (map : PayloadMap) : ReceiverCall → PayloadMap
  | .install other => other
  | _ => map

end ReceiverCall

/-- The payload type of the last packet that could be read. -/
def lastPayloadType? (calls : List ReceiverCall) : Option UInt8 :=
  (calls.filterMap ReceiverCall.payloadType?).getLast?

/-- The map that is installed after some calls. -/
def installed (map : PayloadMap) (calls : List ReceiverCall) : PayloadMap :=
  calls.foldl ReceiverCall.mapAfter map

/-- A receiver after a call. -/
def Depacketizer.after (d : Depacketizer) : ReceiverCall → Depacketizer
  | .packet bytes => ((depacketize bytes).run.run d).2
  | .reset => d.reset
  | .install map => d.withMap map

/-- A new receiver after some calls. -/
def receiverAfter (map : PayloadMap) (calls : List ReceiverCall) : Depacketizer :=
  calls.foldl Depacketizer.after { map }

theorem receiverAfter_concat (map : PayloadMap) (calls : List ReceiverCall) (call : ReceiverCall) :
    receiverAfter map (calls ++ [call]) = (receiverAfter map calls).after call := by
  rw [receiverAfter, List.foldl_append]
  rfl

/-- A row of packets of one payload type, behind earlier calls.  It starts with a packet of
this type where the last one was of another type or there was none, and no packet of another
type is read in it. -/
structure IsRow (payloadType : UInt8) (earlier : List ReceiverCall) (first : ReceiverCall)
    (later : List ReceiverCall) : Prop where
  /-- The last packet before the row was of another type. -/
  fresh : lastPayloadType? earlier ≠ some payloadType
  /-- The row starts with a packet. -/
  first : first.payloadType? = some payloadType
  /-- The row has packets of this type only. -/
  later : ∀ call ∈ later, ∀ other ∈ call.payloadType?, other = payloadType

theorem lastPayloadType?_concat (calls : List ReceiverCall) (call : ReceiverCall) :
    lastPayloadType? (calls ++ [call]) = call.payloadType?.or (lastPayloadType? calls) := by
  unfold lastPayloadType?
  cases h : call.payloadType? <;> simp [h]

/-! ## Rows -/

/-- What is known of a receiver after some calls. -/
structure Follows (map : PayloadMap) (calls : List ReceiverCall) (d : Depacketizer) : Prop where
  /-- It has the installed map. -/
  holds : d.map = installed map calls
  /-- It knows the last payload type. -/
  payloadType : d.payloadType = (lastPayloadType? calls).getD stereoPayloadType
  /-- Before the first packet it has the format of the fixed type for stereo. -/
  silent : lastPayloadType? calls = none → d.format = .initial
  /-- After that its format was looked up when the last row started. -/
  row : ∀ payloadType, lastPayloadType? calls = some payloadType →
    ∃ earlier first later, calls = earlier ++ first :: later ∧
      IsRow payloadType earlier first later ∧
      d.format = lookedUp payloadType (installed map earlier) (receiverAfter map earlier).format

namespace Follows

variable {map : PayloadMap} {calls : List ReceiverCall} {d d' : Depacketizer}
  {call : ReceiverCall}

theorem new (map : PayloadMap) : Follows map [] { map } where
  holds := rfl
  payloadType := rfl
  silent _ := rfl
  row _ h := nomatch h

/-- A row goes on when its format is kept. -/
theorem row_concat (h : Follows map calls d) {payloadType : UInt8}
    (hlast : lastPayloadType? calls = some payloadType) (hformat : d'.format = d.format)
    (hcall : ∀ other ∈ call.payloadType?, other = payloadType) :
    ∃ earlier first later, calls ++ [call] = earlier ++ first :: later ∧
      IsRow payloadType earlier first later ∧
      d'.format
        = lookedUp payloadType (installed map earlier) (receiverAfter map earlier).format := by
  obtain ⟨earlier, first, later, hcalls, hrow, hlooked⟩ := h.row payloadType hlast
  refine ⟨earlier, first, later ++ [call], by simp [hcalls], ?_, hformat.trans hlooked⟩
  refine ⟨hrow.fresh, hrow.first, ?_⟩
  intro c hc
  rcases List.mem_append.1 hc with hc | hc
  · exact hrow.later c hc
  · rw [List.mem_singleton.1 hc]
    exact hcall

/-- A call that brings no packet lets the row go on. -/
theorem quiet (h : Follows map calls d) (hcall : call.payloadType? = none)
    (hmap : d'.map = call.mapAfter d.map) (hpayloadType : d'.payloadType = d.payloadType)
    (hformat : d'.format = d.format) : Follows map (calls ++ [call]) d' := by
  have hlast : lastPayloadType? (calls ++ [call]) = lastPayloadType? calls := by
    rw [lastPayloadType?_concat, hcall, Option.none_or]
  refine ⟨?_, ?_, ?_, ?_⟩
  · rw [hmap, h.holds, installed, installed, List.foldl_append]
    rfl
  · rw [hpayloadType, hlast, h.payloadType]
  · intro hnone
    rw [hformat, h.silent (hlast ▸ hnone)]
  · intro payloadType hsome
    refine h.row_concat (hlast ▸ hsome) hformat ?_
    simp [hcall]

/-- A packet lets the row go on, or starts one. -/
theorem packet (h : Follows map calls (receiverAfter map calls)) {bytes : List UInt8}
    {packet : Rtp.Packet} (hparse : Rtp.Packet.parse bytes = .ok packet) :
    Follows map (calls ++ [.packet bytes]) ((receiverAfter map calls).accept packet).2 := by
  have hcall : (ReceiverCall.packet bytes).payloadType? = some packet.payloadType := by
    simp [ReceiverCall.payloadType?, hparse, Except.toOption]
  have hlast : lastPayloadType? (calls ++ [.packet bytes]) = some packet.payloadType := by
    rw [lastPayloadType?_concat, hcall, Option.some_or]
  refine ⟨?_, ?_, ?_, ?_⟩
  · rw [accept_map, h.holds, installed, installed, List.foldl_append]
    rfl
  · rw [accept_payloadType, hlast, Option.getD_some]
  · intro hnone
    rw [hlast] at hnone
    cases hnone
  · intro payloadType hsome
    rw [hlast] at hsome
    cases hsome
    rw [accept_format, follow_snd]
    by_cases hfresh : lastPayloadType? calls = some packet.payloadType
    · -- The receiver has this type already, and nothing is looked up.
      have hsame : packet.payloadType = (receiverAfter map calls).payloadType := by
        rw [h.payloadType, hfresh, Option.getD_some]
      rw [if_pos hsame]
      refine h.row_concat hfresh rfl ?_
      simp [hcall]
    · refine ⟨calls, .packet bytes, [], rfl, ⟨hfresh, hcall, by simp⟩, ?_⟩
      split
      next hsame =>
        -- Nothing is looked up for a first packet of the type that a new receiver has.
        rw [h.payloadType] at hsame
        cases hsilent : lastPayloadType? calls with
        | none =>
          rw [hsilent, Option.getD_none] at hsame
          rw [hsame, h.silent hsilent, lookedUp_stereo]
        | some other =>
          rw [hsilent, Option.getD_some] at hsame
          rw [hsilent, hsame] at hfresh
          exact absurd rfl hfresh
      next => simp only [h.holds]

/-- Every call is followed. -/
theorem after (h : Follows map calls (receiverAfter map calls)) (call : ReceiverCall) :
    Follows map (calls ++ [call]) ((receiverAfter map calls).after call) := by
  cases call with
  | reset => exact h.quiet rfl rfl rfl rfl
  | install other => exact h.quiet rfl rfl rfl rfl
  | packet bytes =>
    cases hparse : Rtp.Packet.parse bytes with
    | ok packet =>
      rw [Depacketizer.after, depacketize_run hparse]
      exact h.packet hparse
    | error e =>
      have hcall : (ReceiverCall.packet bytes).payloadType? = none := by
        simp [ReceiverCall.payloadType?, hparse, Except.toOption]
      rw [Depacketizer.after, depacketize_error hparse]
      exact h.quiet hcall rfl rfl rfl

end Follows

/-- A receiver follows its history. -/
theorem follows_receiverAfter (map : PayloadMap) (calls : List ReceiverCall) :
    Follows map calls (receiverAfter map calls) := by
  induction calls using List.reverseRecOn with
  | nil => exact .new map
  | append_singleton calls call ih =>
    rw [receiverAfter_concat]
    exact ih.after call

/-- After any calls every packet that can be read is taken.  The format is then what the
payload type of the packet stands for in the map that was installed when its row started,
or the format before the row if the map did not know the type.  The packet is due by the
rate of this format. -/
theorem depacketize_inRow (map : PayloadMap) (calls : List ReceiverCall) {bytes : List UInt8}
    {packet : Rtp.Packet} (hparse : Rtp.Packet.parse bytes = .ok packet) :
    ∃ received d, (depacketize bytes).run.run (receiverAfter map calls) = (.ok received, d) ∧
      (∃ earlier first later, calls ++ [.packet bytes] = earlier ++ first :: later ∧
        IsRow packet.payloadType earlier first later ∧
        (∀ s, samplingOf? packet.payloadType (installed map earlier) = some s →
          d.format = s.onWire) ∧
        (samplingOf? packet.payloadType (installed map earlier) = none →
          d.format = (receiverAfter map earlier).format)) ∧
      received.buffer.time = some (nanosOfTicks
        (packet.timestamp - (receiverAfter map calls).origin.getD packet.timestamp)
        d.format.rate) := by
  have hfollows := (follows_receiverAfter map calls).packet hparse
  refine ⟨_, _, depacketize_run hparse _, ?_, accept_time _ _⟩
  have hlast : lastPayloadType? (calls ++ [.packet bytes]) = some packet.payloadType := by
    simp [lastPayloadType?, ReceiverCall.payloadType?, hparse, Except.toOption]
  obtain ⟨earlier, first, later, hcalls, hrow, hformat⟩ := hfollows.row _ hlast
  refine ⟨earlier, first, later, hcalls, hrow, ?_, ?_⟩
  · intro s hs
    rw [hformat, lookedUp_some hs]
  · intro hnone
    rw [hformat, lookedUp_none hnone]

/-- A map is replaced between two packets of one type.  A packet of a type that neither map
knows ends the row, and the next packet of the first type is looked up in the new map. -/
theorem depacketize_inRow_interrupted :
    Rtp.Packet.parse (samplePacket 96) = .ok (sampleRead 96) ∧
    ∃ received d, (depacketize (samplePacket 96)).run.run
        (receiverAfter ⟨[(96, ⟨48000, 2⟩)]⟩
          [.packet (samplePacket 96), .install ⟨[(96, ⟨8000, 1⟩)]⟩, .packet (samplePacket 97)])
        = (.ok received, d) ∧
      d.format = Sampling.onWire ⟨8000, 1⟩ ∧
      received.buffer.time = some (nanosOfTicks 0 d.format.rate) := by
  have hparse : Rtp.Packet.parse (samplePacket 96) = .ok (sampleRead 96) := by decide
  obtain ⟨received, d, hrun, -, htime⟩ := depacketize_inRow ⟨[(96, ⟨48000, 2⟩)]⟩
    [.packet (samplePacket 96), .install ⟨[(96, ⟨8000, 1⟩)]⟩, .packet (samplePacket 97)] hparse
  refine ⟨hparse, received, d, hrun, ?_, htime⟩
  rw [depacketize_run hparse] at hrun
  cases hrun
  decide

/-- A map is replaced within a row, and the next packet of the row keeps the format that the
old map gives. -/
theorem depacketize_outdated :
    Rtp.Packet.parse (samplePacket 96) = .ok (sampleRead 96) ∧
    samplingOf? 96 (installed ⟨[(96, ⟨48000, 2⟩)]⟩
      [.packet (samplePacket 96), .install ⟨[(96, ⟨8000, 1⟩)]⟩]) = some ⟨8000, 1⟩ ∧
    ∃ received d, (depacketize (samplePacket 96)).run.run
        (receiverAfter ⟨[(96, ⟨48000, 2⟩)]⟩
          [.packet (samplePacket 96), .install ⟨[(96, ⟨8000, 1⟩)]⟩]) = (.ok received, d) ∧
      d.format = Sampling.onWire ⟨48000, 2⟩ ∧ d.format ≠ Sampling.onWire ⟨8000, 1⟩ := by
  have hparse : Rtp.Packet.parse (samplePacket 96) = .ok (sampleRead 96) := by decide
  exact ⟨hparse, rfl, _, _, depacketize_run hparse _, by decide, by decide⟩

end MediaTransport.Audio
