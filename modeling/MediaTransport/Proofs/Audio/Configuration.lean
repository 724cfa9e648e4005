import MediaTransport.Proofs.Audio.Packetization

/-!
# Settings of a packetizer

Sending divides by the size of a frame and by the space in a packet, takes the header off the
packet size, and cuts a buffer into pieces.  Each of these steps has an answer only for some
numbers.  `Packetizer.packetize?` is sending with steps that may have none, and a valid packetizer
always gets to the end of it (`Packetizer.Valid.packetize?_run`).

A setting is made in place: first everything is checked, then the fields are written one after the
other (`Packetizer.setMtu`, `Packetizer.setFormat`).  That comes to the same as a setting which
makes a new packetizer or none, so a refused one writes nothing.
-/

namespace MediaTransport.Audio

open Bytes

/-! ## Steps without an answer -/

/-- A difference, if it is not below zero. -/
def sub? (a b : ℕ) : Option ℕ :=
  if a < b then none else some (a - b)

/-- A quotient, if the divisor is not zero. -/
def div? (a b : ℕ) : Option ℕ :=
  if b = 0 then none else some (a / b)

/-- The first items of a list, if it has so many. -/
def slice? {α : Type} (n : ℕ) (items : List α) : Option (List α) :=
  if items.length < n then none else some (items.take n)

/-- The chunks of a list, if their size is not zero. -/
def chunks? {α : Type} (size : ℕ) (items : List α) : Option (List (List α)) :=
  if size = 0 then none else some (chunks size items)

theorem sub?_eq_some {a b : ℕ} (h : b ≤ a) : sub? a b = some (a - b) :=
  if_neg (Nat.not_lt.2 h)

theorem div?_eq_some {b : ℕ} (h : 0 < b) (a : ℕ) : div? a b = some (a / b) :=
  if_neg (Nat.ne_of_gt h)

theorem slice?_eq_some {α : Type} {n : ℕ} {items : List α} (h : n ≤ items.length) :
    slice? n items = some (items.take n) :=
  if_neg (Nat.not_lt.2 h)

theorem chunks?_eq_some {α : Type} {size : ℕ} (h : 0 < size) (items : List α) :
    chunks? size items = some (chunks size items) :=
  if_neg (Nat.ne_of_gt h)

/-- A step that has an answer goes on with it. -/
theorem run_answer {σ α β : Type} {x : Option α} {a : α} (h : x = some a)
    (next : α → StateT σ Option β) (s : σ) :
    (do let a ← x; next a : StateT σ Option β).run s = (next a).run s := by
  rw [h]
  rfl

namespace Packetizer

/-- Sends one packet, if its frames can be counted. -/
def send? (frames : List UInt8) : StateT Packetizer Option (List UInt8) := do
  let p ← get
  let count ← div? frames.length p.format.frameSize
  set { p with sender := p.sender.next.advance (UInt32.ofNat count) }
  return p.sender.header false ++ toWire p.format.order frames

/-- Sends a buffer, if every step has an answer.  The number of packets is only worked out to
make room for them. -/
def packetize? (buffer : Buffer) : StateT Packetizer Option (List (List UInt8)) := do
  let p ← get
  let room ← sub? p.mtu Rtp.headerLength
  let perPacket ← div? room p.format.frameSize
  let space := perPacket * p.format.frameSize
  let whole ← div? buffer.data.length p.format.frameSize
  let usable := whole * p.format.frameSize
  let _ ← div? usable space
  let samples ← slice? usable buffer.data
  let runs ← chunks? space samples
  runs.mapM send?

variable {p : Packetizer}

/-- One packet needs no arithmetic that could fail, as long as a frame has a size. -/
theorem send?_run (h : 0 < p.format.frameSize) (run : List UInt8) :
    (send? run).run p = some ((send run).run p) := by
  rw [send?, StateT.run_bind, StateT.run_get, pure_bind, run_answer (div?_eq_some h run.length)]
  rfl

theorem sendAll?_run (h : 0 < p.format.frameSize) (runs : List (List UInt8)) :
    (runs.mapM send?).run p = some ((runs.mapM send).run p) := by
  induction runs generalizing p with
  | nil => rfl
  | cons run rest ih =>
    have hrest := ih (p := { p with sender := p.format.pass p.sender run }) h
    rw [List.mapM_cons, StateT.run_bind, send?_run h, send_run, Option.bind_eq_bind,
      Option.bind_some, StateT.run_bind, hrest, List.mapM_cons, StateT.run_bind, send_run]
    rfl

/-- A valid packetizer comes to the end of every buffer. -/
theorem Valid.packetize?_run (h : p.Valid) (buffer : Buffer) :
    (packetize? buffer).run p = some ((packetize buffer).run p) := by
  have hroom : sub? p.mtu Rtp.headerLength = some (p.mtu - Rtp.headerLength) :=
    sub?_eq_some (Nat.le_of_add_right_le h.room)
  have hslice : slice? (buffer.data.length / p.format.frameSize * p.format.frameSize) buffer.data
      = some (wholeFrames p.format.toSampling buffer.data) :=
    slice?_eq_some (Nat.div_mul_le_self _ _)
  have hspace : ∀ n, div? n p.space = some (n / p.space) := div?_eq_some h.space_pos
  have hruns := chunks?_eq_some h.space_pos (wholeFrames p.format.toSampling buffer.data)
  rw [space] at hspace hruns
  rw [packetize?, StateT.run_bind, StateT.run_get, pure_bind, run_answer hroom,
    run_answer (div?_eq_some h.frameSize_pos _), run_answer (div?_eq_some h.frameSize_pos _),
    run_answer (hspace _), run_answer hslice, run_answer hruns, sendAll?_run h.frameSize_pos]
  rfl

/-! ## Settings in place -/

/-- Sets the size of the largest packet. -/
def setMtu (mtu : ℕ) : ExceptT Error (StateM Packetizer) Unit := do
  let p ← get
  checkMtu mtu p.format.toSampling
  set { p with mtu }

/-- Sets the format.  The payload type is written before the format, when nothing can be refused
any more. -/
def setFormat (format : Format) : ExceptT Error (StateM Packetizer) Unit := do
  let p ← get
  format.check
  checkMtu p.mtu format.toSampling
  let payloadType ← selectPayloadType format.toSampling p.map
  modify fun p => { p with sender := p.sender.withPayloadType payloadType }
  modify fun p => { p with format }

/-- Makes a call. -/
def Call.perform : Call → ExceptT Error (StateM Packetizer) (List (List UInt8))
  | .setMtu mtu => do
    Packetizer.setMtu mtu
    return []
  | .setFormat format => do
    Packetizer.setFormat format
    return []
  | .discontinuity => do
    modify Packetizer.discontinuity
    return []
  | .packetize buffer => Packetizer.packetize buffer

/-- Either the packetizer has the new size, or the call is refused and it is as it was. -/
theorem setMtu_run (p : Packetizer) (mtu : ℕ) :
    (setMtu mtu).run.run p = match p.withMtu mtu with
      | .ok p' => (.ok (), p')
      | .error e => (.error e, p) := by
  rw [setMtu, run_get_bind, run_liftM_bind, withMtu]
  cases checkMtu mtu p.format.toSampling <;> rfl

/-- The same holds for another format. -/
theorem setFormat_run (p : Packetizer) (format : Format) :
    (setFormat format).run.run p = match p.withFormat format with
      | .ok p' => (.ok (), p')
      | .error e => (.error e, p) := by
  rw [setFormat, run_get_bind, run_liftM_bind, withFormat, payloadTypeFor]
  cases format.check with
  | error e => rfl
  | ok =>
    dsimp only
    rw [run_liftM_bind]
    cases checkMtu p.mtu format.toSampling with
    | error e => rfl
    | ok =>
      dsimp only
      rw [run_liftM_bind]
      cases selectPayloadType format.toSampling p.map <;> rfl

/-- A setting is made, or it is refused and changes nothing. -/
theorem setting_run {p : Packetizer} {setting : ExceptT Error (StateM Packetizer) Unit}
    {changed : Except Error Packetizer} (hrun : setting.run.run p = match changed with
      | .ok p' => (.ok (), p')
      | .error e => (.error e, p)) :
    let call : ExceptT Error (StateM Packetizer) (List (List UInt8)) := do
      setting
      return []
    (∃ packets, call.run.run p = (.ok packets, changed.toOption.getD p)) ∨
      ∃ e, call.run.run p = (.error e, p) ∧ changed.toOption.getD p = p := by
  cases changed with
  | error e => exact .inr ⟨e, run_bind_error _ hrun, rfl⟩
  | ok p' => exact .inl ⟨[], run_bind_ok _ hrun⟩

/-- A call is made, or it is refused and changes nothing. -/
theorem perform_run (p : Packetizer) (call : Call) :
    (∃ packets, call.perform.run.run p = (.ok packets, p.after call)) ∨
      ∃ e, call.perform.run.run p = (.error e, p) ∧ p.after call = p := by
  cases call with
  | setMtu mtu => exact setting_run (setMtu_run p mtu)
  | setFormat format => exact setting_run (setFormat_run p format)
  | discontinuity => exact .inl ⟨[], rfl⟩
  | packetize buffer => exact .inl ⟨((packetize buffer).run p).1, rfl⟩

/-- The settings of a packetizer go together. -/
structure IsConfigured (p : Packetizer) : Prop where
  /-- The format has a rate. -/
  rate : p.format.rate ≠ 0
  /-- The format has channels. -/
  channels : p.format.channels ≠ 0
  /-- There is room for a frame behind a header. -/
  room : Rtp.headerLength + p.format.frameSize ≤ p.mtu
  /-- The payload type has seven bits. -/
  payloadType_le : p.sender.payloadType ≤ 127
  /-- It is the one that is selected for the format. -/
  payloadType : selectPayloadType p.format.toSampling p.map = .ok p.sender.payloadType

/-- A valid packetizer is configured. -/
theorem Valid.isConfigured (h : p.Valid) : p.IsConfigured where
  rate := h.occupied.1
  channels := h.occupied.2
  room := h.room
  payloadType_le := by
    have hlt := UInt8.lt_iff_toNat_lt.1 h.payloadType_lt
    rw [UInt8.le_iff_toNat_le]
    exact Nat.le_of_lt_succ hlt
  payloadType := h.payloadType

/-- Whatever calls came before, the settings of a packetizer go together, so every step of sending a
buffer has an answer; and every further call is made, or it is refused and leaves the packetizer as
it was. -/
theorem isConfigured_afterAll {map : PayloadMap} (hmap : map.Built) {format : Format}
    {ssrc : UInt32} {sequence : UInt16} {timestamp : UInt32} {built : Packetizer}
    (hbuild : build format map ssrc sequence timestamp = .ok built) (calls : List Call) :
    (built.afterAll calls).IsConfigured ∧
    (∀ buffer, (packetize? buffer).run (built.afterAll calls)
      = some ((packetize buffer).run (built.afterAll calls))) ∧
    ∀ call : Call,
      (∃ packets, call.perform.run.run (built.afterAll calls)
        = (.ok packets, built.afterAll (calls ++ [call]))) ∨
      ∃ e, call.perform.run.run (built.afterAll calls) = (.error e, built.afterAll calls) ∧
        built.afterAll (calls ++ [call]) = built.afterAll calls := by
  have hvalid := ((Reachable.build hmap hbuild).afterAll calls).valid
  refine ⟨hvalid.isConfigured, hvalid.packetize?_run, fun call => ?_⟩
  have hnext : built.afterAll (calls ++ [call]) = (built.afterAll calls).after call := by
    rw [afterAll, List.foldl_append]
    rfl
  rw [hnext]
  exact perform_run _ call

/-- A packetizer that was set to six channels and to packets of one frame, and then refused smaller
packets.  A frame of seven channels does not fit any more. -/
theorem isConfigured_afterAll_refused :
    ∃ p : Packetizer, p.mtu = 24 ∧ p.sender.payloadType = 96 ∧ p.IsConfigured ∧
      (packetize? { data := List.replicate 25 1 }).run p
        = some ((packetize { data := List.replicate 25 1 }).run p) ∧
      ∃ e, (Call.setFormat ⟨⟨48000, 7⟩, .big⟩).perform.run.run p = (.error e, p) := by
  have hinsert : PayloadMap.empty.insert 96 ⟨48000, 6⟩ = .ok ⟨[(96, ⟨48000, 6⟩)]⟩ := rfl
  have hmap : PayloadMap.Built ⟨[(96, ⟨48000, 6⟩)]⟩ := .insert .empty hinsert
  have hbuild : build .initial ⟨[(96, ⟨48000, 6⟩)]⟩ 7 1 2
      = .ok ⟨⟨10, 7, 1, 2⟩, .initial, ⟨[(96, ⟨48000, 6⟩)]⟩, 1400⟩ := rfl
  obtain ⟨hconfigured, hanswers, hcalls⟩ := isConfigured_afterAll hmap hbuild
    [.setFormat ⟨⟨48000, 6⟩, .little⟩, .setMtu 24, .setMtu 23]
  refine ⟨_, rfl, rfl, hconfigured, hanswers _, ?_⟩
  obtain ⟨packets, hmade⟩ | ⟨e, hrefused, -⟩ := hcalls (.setFormat ⟨⟨48000, 7⟩, .big⟩)
  · have hanswer : (Except.ok packets : Except Error _)
        = .error (.invalidConfig (.noRoomForFrame 24 7)) := congrArg Prod.fst hmade.symm
    cases hanswer
  · exact ⟨e, hrefused⟩

end Packetizer

end MediaTransport.Audio
