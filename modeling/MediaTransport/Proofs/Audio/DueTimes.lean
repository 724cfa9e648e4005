import Mathlib.Data.List.DropRight
import MediaTransport.Proofs.Audio.Receiver

/-!
# When a packet is due

A packet is due by the ticks from the *first* packet to it, and the rate of its format.  The first
packet is the first that could be read since the last reset (`firstTimestamp?`), whatever came
before it, and the receiver remembers its timestamp (`receiverAfter_origin`).

The nanoseconds in a number of ticks are computed here without a bound.  In words of 64 bits the
product of the ticks and the nanoseconds in a second could overflow, and the division could be by
zero.  `Depacketizer.depacketize?` is receiving with such words, and has no answer in these cases.
Ticks have 32 bits, so the product always fits, and only a rate of zero has no answer
(`nanosInWords?_eq`).  Every map that can be built has rates other than zero, so no receiver gets a
rate of zero from its packets (`IsTicking.afterAll`).
-/

namespace MediaTransport.Audio

open Depacketizer

/-! ## Words -/

/-- A product of words, if it is a word. -/
def mulWords? (a b : UInt64) : Option UInt64 :=
  if a.toNat * b.toNat < 2 ^ 64 then some (a * b) else none

/-- A quotient of words, if the divisor is not zero. -/
def divWords? (a b : UInt64) : Option UInt64 :=
  if b = 0 then none else some (a / b)

/-- The nanoseconds in a number of ticks of a clock, computed in words of 64 bits. -/
def nanosInWords? (ticks rate : UInt32) : Option UInt64 := do
  let product ← mulWords? ticks.toUInt64 (UInt64.ofNat nanosPerSecond)
  divWords? product rate.toUInt64

/-- A second has less than 2^30 nanoseconds, so the product with any ticks fits in 64 bits. -/
theorem mul_nanosPerSecond_lt (ticks : UInt32) : ticks.toNat * nanosPerSecond < 2 ^ 64 := by
  have hticks := ticks.toNat_lt
  rw [nanosPerSecond]
  omega

/-- A product that fits is computed without an overflow. -/
theorem mulWords?_eq_some {a b : UInt64} (h : a.toNat * b.toNat < 2 ^ 64) :
    ∃ product, mulWords? a b = some product ∧ product.toNat = a.toNat * b.toNat :=
  ⟨a * b, if_pos h, by rw [UInt64.toNat_mul, Nat.mod_eq_of_lt h]⟩

/-- Nothing but a rate of zero stands in the way. -/
theorem nanosInWords?_eq (ticks rate : UInt32) :
    (nanosInWords? ticks rate).map UInt64.toNat
      = if rate = 0 then none else some (nanosOfTicks ticks rate) := by
  have hsecond : (UInt64.ofNat nanosPerSecond).toNat = nanosPerSecond := by decide
  have hfits := mul_nanosPerSecond_lt ticks
  rw [← hsecond, ← UInt32.toNat_toUInt64] at hfits
  obtain ⟨product, hproduct, hvalue⟩ := mulWords?_eq_some hfits
  have hzero : rate.toUInt64 = 0 ↔ rate = 0 := by
    rw [← UInt64.toNat_inj, ← UInt32.toNat_inj, UInt32.toNat_toUInt64]
    rfl
  rw [nanosInWords?, hproduct, Option.bind_eq_bind, Option.bind_some, divWords?]
  simp only [hzero]
  split
  next => rfl
  next =>
    rw [Option.map_some, UInt64.toNat_div, hvalue, hsecond, UInt32.toNat_toUInt64,
      UInt32.toNat_toUInt64, nanosOfTicks]

/-- The ticks between two readings of a clock, which may have wrapped between them. -/
theorem toNat_sub_eq_emod (a b : UInt32) :
    ((a - b).toNat : ℤ) = ((a.toNat : ℤ) - b.toNat) % 2 ^ 32 := by
  have ha := a.toNat_lt
  have hb := b.toNat_lt
  rw [UInt32.toNat_sub]
  omega

/-! ## Rates -/

/-- No payload type has a sampling without a rate. -/
theorem PayloadMap.WellFormed.rate_ne_zero {map : PayloadMap} (h : map.WellFormed)
    {payloadType : UInt8} {s : Sampling} (hs : samplingOf? payloadType map = some s) :
    s.rate ≠ 0 := by
  unfold samplingOf? at hs
  split at hs
  next =>
    cases hs
    decide
  next =>
    split at hs
    next =>
      cases hs
      decide
    next => exact (h.admissible _ (PayloadMap.mem_of_get? hs)).2.1

namespace Depacketizer

/-- The receiver has a rate, and its map has no sampling without one. -/
structure IsTicking (d : Depacketizer) : Prop where
  /-- The map can be built. -/
  map : d.map.WellFormed
  /-- The format has a rate. -/
  rate : d.format.rate ≠ 0

namespace IsTicking

variable {d : Depacketizer}

theorem new {map : PayloadMap} (h : map.WellFormed) : IsTicking { map } :=
  ⟨h, show staticRate ≠ 0 by decide⟩

/-- Whatever packet comes there is a rate: an unmapped payload type changes no format. -/
theorem accept (h : d.IsTicking) (packet : Rtp.Packet) : (d.accept packet).2.IsTicking := by
  refine ⟨accept_map d packet ▸ h.map, ?_⟩
  rw [accept_format, follow_snd]
  split
  next => exact h.rate
  next =>
    cases hs : samplingOf? packet.payloadType d.map with
    | none =>
      rw [lookedUp_none hs]
      exact h.rate
    | some s =>
      rw [lookedUp_some hs]
      exact h.map.rate_ne_zero hs

theorem after (h : d.IsTicking) {call : ReceiverCall}
    (hcall : ∀ map, call = .install map → map.WellFormed) : (d.after call).IsTicking := by
  cases call with
  | reset => exact ⟨h.map, h.rate⟩
  | install map => exact ⟨hcall map rfl, h.rate⟩
  | packet bytes =>
    cases hparse : Rtp.Packet.parse bytes with
    | error e =>
      rw [Depacketizer.after, depacketize_error hparse]
      exact h
    | ok packet =>
      rw [Depacketizer.after, depacketize_run hparse]
      exact h.accept packet

theorem afterAll (h : d.IsTicking) {calls : List ReceiverCall}
    (hcalls : ∀ map, .install map ∈ calls → map.WellFormed) :
    (calls.foldl Depacketizer.after d).IsTicking := by
  induction calls generalizing d with
  | nil => exact h
  | cons call rest ih =>
    have hfirst : ∀ map, call = .install map → map.WellFormed := by
      rintro map rfl
      exact hcalls map List.mem_cons_self
    exact ih (h.after hfirst) fun map hmap => hcalls map (List.mem_cons_of_mem call hmap)

end IsTicking

/-! ## Receiving in words -/

/-- The buffer of a packet, and the receiver after it, if its time can be computed. -/
def accept? (d : Depacketizer) (packet : Rtp.Packet) : Option (Received × Depacketizer) := do
  let (notice, d) := d.follow packet.payloadType
  let origin := d.origin.getD packet.timestamp
  let time ← nanosInWords? (packet.timestamp - origin) d.format.rate
  return (⟨{ data := packet.payload, time := some time.toNat }, notice⟩,
    { d with origin := some origin })

/-- Reads a packet, if its time can be computed. -/
def depacketize? (bytes : List UInt8) : ExceptT Error (StateT Depacketizer Option) Received :=
  fun d =>
    match Rtp.Packet.parse bytes with
    | .error e => some (.error e, d)
    | .ok packet => (d.accept? packet).map fun (received, d) => (.ok received, d)

variable {d : Depacketizer}

/-- The checked arithmetic of a packet never fails, and computes the same. -/
theorem IsTicking.accept?_eq (h : d.IsTicking) (packet : Rtp.Packet) :
    d.accept? packet = some (d.accept packet) := by
  have hrate : (d.follow packet.payloadType).2.format.rate ≠ 0 := (h.accept packet).rate
  have htime := nanosInWords?_eq (packet.timestamp
    - (d.follow packet.payloadType).2.origin.getD packet.timestamp)
    (d.follow packet.payloadType).2.format.rate
  rw [if_neg hrate, Option.map_eq_some_iff] at htime
  obtain ⟨time, hwords, hnanos⟩ := htime
  simp only [Depacketizer.accept?, hwords, Option.bind_eq_bind, Option.bind_some, hnanos]
  rfl

/-- A receiver that has a rate comes to the end of every packet. -/
theorem IsTicking.depacketize?_run (h : d.IsTicking) (bytes : List UInt8) :
    (depacketize? bytes).run.run d = some ((depacketize bytes).run.run d) := by
  unfold depacketize?
  cases hparse : Rtp.Packet.parse bytes with
  | error e =>
    rw [depacketize_error hparse]
    rfl
  | ok packet =>
    rw [depacketize_run hparse]
    exact congrArg (Option.map _) (h.accept?_eq packet)

end Depacketizer

/-! ## The first packet -/

namespace ReceiverCall

/-- Whether a call starts time anew. -/
def isReset : ReceiverCall → Bool
  | .reset => true
  | _ => false

/-- The timestamp of the packet of a call, if it can be read. -/
def timestamp? : ReceiverCall → Option UInt32
  | .packet bytes => (Rtp.Packet.parse bytes).toOption.map (·.timestamp)
  | _ => none

end ReceiverCall

/-- The timestamp of the first packet that could be read since the last reset. -/
def firstTimestamp? (calls : List ReceiverCall) : Option UInt32 :=
  (calls.rtakeWhile fun call => !call.isReset).findSome? ReceiverCall.timestamp?

/-- A reset forgets the first time stamp; any other call keeps it, or is the first with one. -/
theorem firstTimestamp?_concat (calls : List ReceiverCall) (call : ReceiverCall) :
    firstTimestamp? (calls ++ [call])
      = if call.isReset then none else (firstTimestamp? calls).or call.timestamp? := by
  rw [firstTimestamp?, List.rtakeWhile_concat]
  cases call.isReset with
  | true => rfl
  | false =>
    rw [Bool.not_false, if_pos rfl, if_neg Bool.false_ne_true, List.findSome?_append,
      List.findSome?_singleton, firstTimestamp?]

theorem accept_origin (d : Depacketizer) (packet : Rtp.Packet) :
    (d.accept packet).2.origin = some (d.origin.getD packet.timestamp) := by
  change some ((d.follow packet.payloadType).2.origin.getD packet.timestamp) = _
  rw [follow_snd]
  split <;> rfl

theorem after_origin (d : Depacketizer) (call : ReceiverCall) :
    (d.after call).origin
      = if call.isReset then none else d.origin.or call.timestamp? := by
  cases call with
  | reset => rfl
  | install map => exact (Option.or_none).symm
  | packet bytes =>
    cases hparse : Rtp.Packet.parse bytes with
    | error e =>
      rw [Depacketizer.after, depacketize_error hparse]
      simp [ReceiverCall.isReset, ReceiverCall.timestamp?, hparse, Except.toOption]
    | ok packet =>
      rw [Depacketizer.after, depacketize_run hparse, accept_origin]
      cases d.origin <;>
        simp [ReceiverCall.isReset, ReceiverCall.timestamp?, hparse, Except.toOption]

/-- The origin of time is the first time stamp since the last reset. -/
theorem receiverAfter_origin (map : PayloadMap) (calls : List ReceiverCall) :
    (receiverAfter map calls).origin = firstTimestamp? calls := by
  induction calls using List.reverseRecOn with
  | nil => rfl
  | append_singleton calls call ih =>
    rw [receiverAfter_concat, after_origin, ih, firstTimestamp?_concat]

/-! ## All calls -/

/-- Whatever has been loaded into the maps of a receiver, their entries are admissible.  So after
any calls the receiver has a rate, and words of 64 bits are enough for every packet.  A packet that
can be read is due by the ticks since the first one, and the first one is the first that could be
read since the last reset. -/
theorem dueTimes_exact {map : PayloadMap} (hmap : map.IsLoaded) {calls : List ReceiverCall}
    (hcalls : ∀ other, .install other ∈ calls → other.IsLoaded) :
    (∀ e ∈ map.entries, e.1 ≤ 127 ∧ e.2.rate ≠ 0 ∧ e.2.channels ≠ 0) ∧
    (receiverAfter map calls).format.rate ≠ 0 ∧
    (∀ bytes, (depacketize? bytes).run.run (receiverAfter map calls)
      = some ((depacketize bytes).run.run (receiverAfter map calls))) ∧
    ∀ bytes packet, Rtp.Packet.parse bytes = .ok packet →
      ∃ received d first time,
        (depacketize bytes).run.run (receiverAfter map calls) = (.ok received, d) ∧
        firstTimestamp? (calls ++ [.packet bytes]) = some first ∧
        received.buffer.time = some time ∧
        ((packet.timestamp.toNat : ℤ) - first.toNat) % 2 ^ 32 * 10 ^ 9 < 2 ^ 64 ∧
        (time : ℤ) = ((packet.timestamp.toNat : ℤ) - first.toNat) % 2 ^ 32 * 10 ^ 9
          / d.format.rate.toNat := by
  have hticking : (receiverAfter map calls).IsTicking :=
    (IsTicking.new hmap.wellFormed).afterAll fun other hother => (hcalls other hother).wellFormed
  refine ⟨hmap.wellFormed.admissible, hticking.rate, hticking.depacketize?_run, ?_⟩
  intro bytes packet hparse
  have hfirst : firstTimestamp? (calls ++ [.packet bytes])
      = some ((receiverAfter map calls).origin.getD packet.timestamp) := by
    rw [← receiverAfter_origin map, receiverAfter_concat, Depacketizer.after,
      depacketize_run hparse, accept_origin]
  refine ⟨_, _, _, _, depacketize_run hparse _, hfirst, accept_time _ packet, ?_, ?_⟩
  · rw [← toNat_sub_eq_emod]
    exact_mod_cast mul_nanosPerSecond_lt _
  · rw [← toNat_sub_eq_emod, nanosOfTicks, nanosPerSecond]
    norm_cast

/-- Time starts anew, a packet with impossible padding comes in, and then one whose clock is about
to wrap.  The next payload type has another rate, in a map that is only installed now. -/
def restartedCalls : List ReceiverCall :=
  [.packet (samplePacket 96), .reset, .packet [0xA0, 96, 0, 2, 0, 0, 0, 9, 0, 0, 0, 1],
    .packet [0x80, 96, 0, 3, 255, 255, 255, 255, 0, 0, 0, 1], .install ⟨[(97, ⟨3, 1⟩)]⟩]

/-- One tick of a clock with three ticks in a second has passed.  Both maps have been loaded with
some calls that were refused. -/
theorem dueTimes_exact_restarted :
    PayloadMap.IsLoaded ⟨[(96, ⟨8000, 1⟩)]⟩ ∧ PayloadMap.IsLoaded ⟨[(97, ⟨3, 1⟩)]⟩ ∧
    (∀ other, .install other ∈ restartedCalls → other.IsLoaded) ∧
    Rtp.Packet.parse (samplePacket 97) = .ok (sampleRead 97) ∧
    ∃ received d, (depacketize (samplePacket 97)).run.run
        (receiverAfter ⟨[(96, ⟨8000, 1⟩)]⟩ restartedCalls) = (.ok received, d) ∧
      received.buffer.time = some 333333333 := by
  have hmap : PayloadMap.IsLoaded ⟨[(96, ⟨8000, 1⟩)]⟩ :=
    ⟨[.insert 96 ⟨8000, 1⟩, .insert 128 ⟨48000, 2⟩, .insert 96 ⟨0, 2⟩, .parse "97:3/1,98:8000/0"],
      by decide +kernel⟩
  have hother : PayloadMap.IsLoaded ⟨[(97, ⟨3, 1⟩)]⟩ :=
    ⟨[.insert 96 ⟨8000, 1⟩, .parse "97:3/1", .insert 97 ⟨8000, 0⟩], by decide +kernel⟩
  have hcalls : ∀ other, .install other ∈ restartedCalls → other.IsLoaded := by
    intro other hinstall
    simp only [restartedCalls, List.mem_cons, reduceCtorEq, false_or, List.not_mem_nil, or_false,
      ReceiverCall.install.injEq] at hinstall
    exact hinstall ▸ hother
  have hparse : Rtp.Packet.parse (samplePacket 97) = .ok (sampleRead 97) := by decide
  obtain ⟨-, -, -, hdue⟩ := dueTimes_exact hmap hcalls
  obtain ⟨received, d, first, time, hrun, hfirst, htime, -, hexact⟩ := hdue _ _ hparse
  refine ⟨hmap, hother, hcalls, hparse, received, d, hrun, ?_⟩
  have hstart : firstTimestamp? (restartedCalls ++ [.packet (samplePacket 97)])
      = some 4294967295 := by decide
  have hrate : d.format.rate = 3 := by
    rw [depacketize_run hparse] at hrun
    cases hrun
    decide
  have htimestamp : (sampleRead 97).timestamp = 0 := rfl
  rw [hstart] at hfirst
  cases hfirst
  rw [hrate, htimestamp] at hexact
  have hnanos : (time : ℤ) = (333333333 : ℕ) := hexact.trans (by decide)
  rw [htime, Int.ofNat_inj.1 hnanos]

end MediaTransport.Audio
