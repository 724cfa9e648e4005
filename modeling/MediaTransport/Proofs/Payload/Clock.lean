import MediaTransport.Proofs.Payload.Fragmentation

/-!
# The media clock

The packets of a flush show one reading of the media clock, the one that the payloader has when the
flush starts (`Payloader.shows_packets`).  Only a buffer with a presentation time moves the clock,
and it moves it to a reading that depends on the time and on where the stream started, not on what
was sent before.  So a payloader is always *clocked* by the last presentation time that it was given
(`Clocked.performAll`), and a call sends packets that show its own time or, if it has none, that one
(`Clocked.perform`).

The ticks in a time are computed without a bound here.  For every time that has fewer than `2 ^ 64`
seconds, words of 128 bits are wide enough (`ticksInWords_ofNat`).
-/

namespace MediaTransport.Payload

/-! ## Ticks -/

/-- The clock ticks in a number of nanoseconds, computed in words of 128 bits. -/
def ticksInWords (time : BitVec 128) : UInt32 :=
  ⟨(time * BitVec.ofNat 128 clockRate / BitVec.ofNat 128 nanosPerSecond).setWidth 32⟩

/-- The product fits in 128 bits, as long as the time has less than 2^64 seconds. -/
theorem mul_clockRate_lt {time : ℕ} (h : time < 2 ^ 64 * nanosPerSecond) :
    time * clockRate < 2 ^ 128 := by
  have hbound : 2 ^ 64 * nanosPerSecond * clockRate ≤ 2 ^ 128 := by decide
  have hrate : 0 < clockRate := by decide
  exact Nat.lt_of_lt_of_le (Nat.mul_lt_mul_of_pos_right h hrate) hbound

/-- Below that bound the arithmetic of machine words is exact. -/
theorem ticksInWords_ofNat {time : ℕ} (h : time < 2 ^ 64 * nanosPerSecond) :
    ticksInWords (BitVec.ofNat 128 time) = ticksOfNanos time := by
  have hdivisor : (BitVec.ofNat 128 nanosPerSecond).toNat = nanosPerSecond := by decide
  have hproduct : (BitVec.ofNat 128 time * BitVec.ofNat 128 clockRate).toNat
      = time * clockRate := by
    rw [← BitVec.ofNat_mul, BitVec.toNat_ofNat, Nat.mod_eq_of_lt (mul_clockRate_lt h)]
  apply UInt32.toNat_inj.1
  rw [ticksOfNanos, UInt32.toNat_ofNat', ticksInWords, UInt32.toNat_ofBitVec, BitVec.toNat_setWidth,
    BitVec.toNat_udiv, hproduct, hdivisor]

/-! ## Readings -/

/-- The reading of a clock of 90 kHz at a time in nanoseconds, if there is one, when it started at
`base`. -/
def clockAt (base : UInt32) : Option ℕ → ℕ
  | none => base.toNat
  | some time => (base.toNat + time * 90000 / 1000000000) % 2 ^ 32

/-- The clock wraps together with the ticks, so cutting the ticks first loses nothing. -/
theorem toNat_add_ticksOfNanos (base : UInt32) (time : ℕ) :
    (base + ticksOfNanos time).toNat = clockAt base (some time) := by
  rw [UInt32.toNat_add, ticksOfNanos, UInt32.toNat_ofNat', Nat.add_mod_mod, clockAt, clockRate,
    nanosPerSecond]

/-- The packets can be read, and they show a reading of the media clock. -/
def Shows (reading : ℕ) (packets : List (List UInt8)) : Prop :=
  ∀ packet ∈ packets, (Rtp.Packet.parse packet).map (·.timestamp.toNat) = .ok reading

theorem shows_nil (reading : ℕ) : Shows reading [] := nofun

/-- All packets of two calls show the reading if those of each do. -/
theorem Shows.append {reading : ℕ} {packets more : List (List UInt8)} (h : Shows reading packets)
    (h' : Shows reading more) : Shows reading (packets ++ more) := by
  intro packet hin
  exact (List.mem_append.1 hin).elim (h packet) (h' packet)

/-- A flush does not move the clock from one packet to the next. -/
theorem Payloader.shows_packets {p : Payloader} (hs : p.sender.payloadType < 128) :
    Shows p.sender.timestamp.toNat p.packets := by
  intro packet hin
  obtain ⟨i, hi⟩ := List.mem_iff_getElem?.1 hin
  obtain ⟨f, -, rfl⟩ := Payloader.exists_fragment hi
  have hlow : (passed p.sender (p.fragments.take i)).payloadType < 128 := by
    rwa [passed_payloadType]
  rw [List.append_assoc, Rtp.parse_header hlow, passed_eq]
  rfl

theorem timestamp_atTime (s : Rtp.Sender) (timestamp : UInt32) :
    (s.atTime timestamp).timestamp = timestamp :=
  rfl

/-! ## Calls -/

/-- The presentation time of a call. -/
def Call.time? : Call → Option ℕ
  | .buffer b => b.time
  | _ => none

/-- The presentation time of the last call that has one. -/
def lastTime? (calls : List Call) : Option ℕ :=
  calls.reverse.findSome? Call.time?

/-- A later buffer with a time decides. -/
theorem lastTime?_cons (call : Call) (rest : List Call) :
    lastTime? (call :: rest) = (lastTime? rest).or call.time? := by
  rw [lastTime?, List.reverse_cons, List.findSome?_append, List.findSome?_singleton, lastTime?]

/-- The clock of a payloader stands at a presentation time, counted from the start of the stream. -/
structure Clocked (base : UInt32) (time : Option ℕ) (p : Payloader) : Prop where
  /-- The payload type fits in its bits. -/
  narrow : p.sender.payloadType < 128
  /-- Times are counted from the start. -/
  origin : p.base = base
  /-- The next packet shows the time. -/
  timestamp : p.sender.timestamp.toNat = clockAt base time

namespace Clocked

variable {base : UInt32} {time : Option ℕ} {p : Payloader}

/-- A flush shows the reading of the clock and leaves it. -/
theorem flush (h : Clocked base time p) :
    Shows (clockAt base time) (Payloader.flush.run p).1 ∧
      Clocked base time (Payloader.flush.run p).2 := by
  have hshows := Payloader.shows_packets h.narrow
  rw [h.timestamp] at hshows
  rw [Payloader.flush_run]
  refine ⟨hshows, ?_, h.origin, ?_⟩
  · exact passed_payloadType p.sender p.fragments ▸ h.narrow
  · rw [Payloader.flushed, passed_eq]
    exact h.timestamp

theorem sendEvent (h : Clocked base time p) (e : Event) :
    Shows (clockAt base time) ((Payloader.sendEvent e).run p).1 ∧
      Clocked base time ((Payloader.sendEvent e).run p).2 := by
  cases hcode : e.kind.code? with
  | none =>
    rw [Payloader.sendEvent, hcode]
    exact ⟨shows_nil _, h⟩
  | some code =>
    have hload : Clocked base time (p.load p.sender (.event code e.text)) :=
      ⟨h.narrow, h.origin, h.timestamp⟩
    rw [Tracks.sendEvent_run p hcode]
    exact hload.flush

theorem sendEvents (h : Clocked base time p) (es : List Event) :
    Shows (clockAt base time) ((es.mapM Payloader.sendEvent).run p).1.flatten ∧
      Clocked base time ((es.mapM Payloader.sendEvent).run p).2 := by
  induction es generalizing p with
  | nil => exact ⟨shows_nil _, h⟩
  | cons e rest ih =>
    obtain ⟨hfirst, hclocked⟩ := h.sendEvent e
    obtain ⟨hmore, hlast⟩ := ih hclocked
    rw [List.mapM_cons]
    exact ⟨hfirst.append hmore, hlast⟩

/-- A presentation time sets the clock, wherever it stands. -/
theorem atTime (h : Clocked base time p) (t : Option ℕ) :
    Clocked base (t.or time) (p.atTime t) := by
  cases t with
  | none => exact h
  | some t =>
    have hsender : (p.atTime (some t)).sender = p.sender.atTime (p.base + ticksOfNanos t) := rfl
    refine ⟨?_, ?_, ?_⟩
    · rw [Tracks.atTime_payloadType]
      exact h.narrow
    · rw [Payloader.atTime]
      exact h.origin
    · rw [hsender, timestamp_atTime, Option.some_or, ← toNat_add_ticksOfNanos, h.origin]

/-- A call sends packets that show its own time, or else the time before, and leaves the clock
there. -/
theorem perform (h : Clocked base time p) (call : Call) :
    Shows (clockAt base (call.time?.or time)) (call.perform.run p).1 ∧
      Clocked base (call.time?.or time) (call.perform.run p).2 := by
  cases call with
  | setMtu mtu =>
    refine ⟨shows_nil _, ?_⟩
    change Clocked base time ((p.withMtu mtu).toOption.getD p)
    unfold Payloader.withMtu
    split
    next => exact h
    next => exact ⟨h.narrow, h.origin, h.timestamp⟩
  | setCaps caps =>
    have haccepted : Clocked base time
        { p with capsVersion := p.nextVersion, hasCaps := true, caps := some caps, held := [] } :=
      ⟨h.narrow, h.origin, h.timestamp⟩
    obtain ⟨hshows, hlast⟩ := haccepted.sendEvents p.held
    exact ⟨hshows, hlast.narrow, hlast.origin, hlast.timestamp⟩
  | event e =>
    rw [Call.perform, Tracks.handleEvent_run]
    split
    next => exact h.sendEvent e
    next => exact ⟨shows_nil _, h.narrow, h.origin, h.timestamp⟩
  | buffer b =>
    have hflags : Clocked base time { p with flags := p.flags ||| flagBits b.flags } :=
      ⟨h.narrow, h.origin, h.timestamp⟩
    have htime := hflags.atTime b.time
    have hqueued : Clocked base (b.time.or time)
        (({ p with flags := p.flags ||| flagBits b.flags }.atTime b.time).enqueue b.data) :=
      ⟨htime.narrow, htime.origin, htime.timestamp⟩
    exact hqueued.flush
  | flush => exact h.flush
  | reset => exact ⟨shows_nil _, h.narrow, h.origin, h.timestamp⟩

/-- After some calls the clock stands at the last time that they had. -/
theorem performAll (h : Clocked base time p) (calls : List Call) :
    Clocked base ((lastTime? calls).or time) ((Call.performAll calls).run p).2 := by
  induction calls generalizing p time with
  | nil => exact h
  | cons call rest ih =>
    obtain ⟨-, hcall⟩ := h.perform call
    rw [lastTime?_cons, Option.or_assoc]
    exact ih hcall

end Clocked

theorem clocked_start (payloadType : UInt8) (ssrc : UInt32) (sequence : UInt16) (base : UInt32) :
    Clocked base none (.start payloadType ssrc sequence base) :=
  ⟨Rtp.Sender.start_payloadType_lt payloadType ssrc sequence base, rfl, rfl⟩

/-- Whatever calls came before, a buffer with a presentation time sends packets that show this time,
and any other call sends packets that show the last time that there was.  Nothing moves the point
from which times are counted, and words of 128 bits do not overflow on the way. -/
theorem clock_afterAll (payloadType : UInt8) (ssrc : UInt32) (sequence : UInt16) (base : UInt32)
    (calls : List Call) :
    let p := ((Call.performAll calls).run (.start payloadType ssrc sequence base)).2
    (∀ (b : Buffer) (time : ℕ), b.time = some time →
      Shows ((base.toNat + time * 90000 / 1000000000) % 2 ^ 32)
        ((Call.buffer b).perform.run p).1) ∧
    (∀ call : Call, call.time? = none →
      Shows (clockAt base (lastTime? calls)) (call.perform.run p).1) ∧
    p.base = base ∧
    ∀ time < 2 ^ 64 * nanosPerSecond,
      time * clockRate < 2 ^ 128 ∧ ticksInWords (BitVec.ofNat 128 time) = ticksOfNanos time := by
  intro p
  have hclocked : Clocked base (lastTime? calls) p := by
    have hlast := (clocked_start payloadType ssrc sequence base).performAll calls
    rwa [Option.or_none] at hlast
  refine ⟨?_, ?_, hclocked.origin, ?_⟩
  · intro b time htime
    have hcall : (Call.buffer b).time? = some time := htime
    obtain ⟨hshows, -⟩ := hclocked.perform (.buffer b)
    rwa [hcall, Option.some_or] at hshows
  · intro call htime
    obtain ⟨hshows, -⟩ := hclocked.perform call
    rwa [htime, Option.none_or] at hshows
  · exact fun time h => ⟨mul_clockRate_lt h, ticksInWords_ofNat h⟩

/-- A stream with packets of one byte.  Its caps wait when its buffer has been sent. -/
def capsWaiting : List Call :=
  [.setMtu 21, .event ⟨.tag, "t"⟩, .buffer { data := [1], time := some 500000000 }, .reset,
    .setCaps "a"]

/-- The clock wraps shortly after the start.  The caps go out at the time of the buffer before them,
and the longest time is shown as any other. -/
theorem clock_afterAll_wrapping :
    let p := ((Call.performAll capsWaiting).run (.start 96 1 0 4294967040)).2
    let longest : ℕ := 2 ^ 64 * 1000000000 - 1
    let buffer : Buffer := { data := [2], time := some longest }
    (buffer.time = some longest ∧ Shows 4294967039 ((Call.buffer buffer).perform.run p).1 ∧
      ((Call.buffer buffer).perform.run p).1.length = 4) ∧
    (Call.flush.time? = none ∧ Shows 44744 (Call.flush.perform.run p).1 ∧
      (Call.flush.perform.run p).1.length = 3) ∧
    longest < 2 ^ 64 * nanosPerSecond ∧
      ticksInWords (BitVec.ofNat 128 longest) = ticksOfNanos longest := by
  intro p longest buffer
  have hlongest : longest < 2 ^ 64 * nanosPerSecond := by decide
  have hreading : ((4294967040 : UInt32).toNat + longest * 90000 / 1000000000) % 2 ^ 32
      = 4294967039 := by decide
  obtain ⟨hbuffer, hother, -, hwords⟩ := clock_afterAll 96 1 0 4294967040 capsWaiting
  have hlengths : ((Call.buffer buffer).perform.run p).1.length = 4 ∧
      (Call.flush.perform.run p).1.length = 3 := by decide +kernel
  refine ⟨⟨rfl, ?_, hlengths.1⟩, ⟨rfl, ?_, hlengths.2⟩, hlongest, ?_⟩
  · rw [← hreading]
    exact hbuffer buffer longest rfl
  · exact hother .flush rfl
  · exact (hwords longest hlongest).2

end MediaTransport.Payload
