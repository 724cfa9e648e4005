import MediaTransport.Proofs.Rtp.Grammar
import MediaTransport.Rtp.Sender

/-!
# Reading packets by position

A reader may keep the bytes of a packet as they are and move a position along.  It then looks
bytes up and subtracts positions, and both can go wrong: a byte may not be there, and a difference
may be below zero.  In `Packet.readAt` nothing comes out in either case.

Each position that it finds is the one at which a part ends that is taken off elsewhere
(`extensionEnd_eq`, `paddingStart_eq`), so the payload is cut out between positions inside the
bytes (`payloadAt_eq`).  Hence something always comes out, and it is what the grammar says
(`Packet.readAt_eq`).
-/

namespace MediaTransport.Rtp

open Bytes

/-! ## Positions -/

/-- A reading that may find a fault, or get no answer at all: none where a byte is looked up that is
not there, or more is taken away from a number than it is. -/
abbrev Reading : Type → Type := ExceptT PacketFault Option

/-- The byte at a position. -/
def byteAt (bytes : List UInt8) (i : ℕ) : Reading UInt8 :=
  .mk (bytes[i]?.map .ok)

/-- The bytes from one position to another, where there are so many. -/
def slice? (bytes : List UInt8) (start stop : ℕ) : Option (List UInt8) :=
  if start ≤ stop ∧ stop ≤ bytes.length then some ((bytes.take stop).drop start) else none

/-- The bytes from one position to another. -/
def slice (bytes : List UInt8) (start stop : ℕ) : Reading (List UInt8) :=
  .mk ((slice? bytes start stop).map .ok)

/-- A difference. -/
def minus (a b : ℕ) : Reading ℕ :=
  .mk (if b ≤ a then some (.ok (a - b)) else none)

/-- The position behind an extension. -/
def extensionEnd (bytes : List UInt8) (offset : ℕ) : Reading ℕ := do
  let some header := slice? bytes offset (offset + 4)
    | throw .extensionHeader
  let words := (toUInt16 (← byteAt header 2) (← byteAt header 3)).toNat
  let stop := offset + (4 + 4 * words)
  if bytes.length < stop then throw .extension else return stop

/-- The position in front of padding.  The last byte of all is taken for its length, even where
nothing is left behind the offset. -/
def paddingStart (bytes : List UInt8) (offset : ℕ) : Reading ℕ := do
  let count ← byteAt bytes (← minus bytes.length 1)
  if count = 0 then throw .padding else
  let room ← minus bytes.length offset
  if room < count.toNat then throw .padding else
  minus bytes.length count.toNat

/-- The position where the payload starts. -/
def payloadStart (bytes : List UInt8) (flags : UInt8) : Reading ℕ :=
  let offset := headerLength + 4 * (flags &&& 0x0F).toNat
  if bytes.length < offset then throw .contributors
  else if flags &&& 0x10 = 0 then return offset
  else extensionEnd bytes offset

/-- The position where the payload stops. -/
def payloadStop (bytes : List UInt8) (flags : UInt8) (start : ℕ) : Reading ℕ :=
  if flags &&& 0x20 = 0 then return bytes.length else paddingStart bytes start

/-- The payload, cut out between its positions. -/
def payloadAt (bytes : List UInt8) (flags : UInt8) : Reading (List UInt8) := do
  let start ← payloadStart bytes flags
  let stop ← payloadStop bytes flags start
  slice bytes start stop

/-- Reads a packet by positions in its bytes. -/
def Packet.readAt (bytes : List UInt8) : Reading Packet := do
  if bytes.length < headerLength then throw .shortHeader else
  let flags ← byteAt bytes 0
  if flags >>> 6 ≠ 2 then throw .version else
  let payload ← payloadAt bytes flags
  let second ← byteAt bytes 1
  return {
    marker := second &&& 0x80 ≠ 0
    payloadType := second &&& 0x7F
    sequence := toUInt16 (← byteAt bytes 2) (← byteAt bytes 3)
    timestamp := toUInt32 (← byteAt bytes 4) (← byteAt bytes 5) (← byteAt bytes 6)
      (← byteAt bytes 7)
    ssrc := toUInt32 (← byteAt bytes 8) (← byteAt bytes 9) (← byteAt bytes 10)
      (← byteAt bytes 11)
    contributors := flags &&& 0x0F
    payload }

/-! ## Looking up and cutting out -/

section

variable {bytes : List UInt8} {start stop offset a b i : ℕ}

theorem byteAt_eq (h : i < bytes.length) : byteAt bytes i = pure bytes[i] := by
  rw [byteAt, List.getElem?_eq_getElem h]
  rfl

theorem byteAt_zero (b : UInt8) (bytes : List UInt8) : byteAt (b :: bytes) 0 = pure b :=
  rfl

theorem byteAt_succ (b : UInt8) (bytes : List UInt8) (i : ℕ) :
    byteAt (b :: bytes) (i + 1) = byteAt bytes i :=
  rfl

theorem slice_eq (h : start ≤ stop) (h' : stop ≤ bytes.length) :
    slice bytes start stop = pure ((bytes.take stop).drop start) := by
  rw [slice, slice?, if_pos ⟨h, h'⟩]
  rfl

/-- What is left behind a part is found from the end of the bytes. -/
theorem drop_of_drop_eq_append {part rest : List UInt8} (h : bytes.drop offset = part ++ rest) :
    bytes.drop (bytes.length - rest.length) = rest := by
  have hlength := congrArg List.length h
  rw [List.length_drop, List.length_append] at hlength
  by_cases hrest : rest = []
  · simp [hrest]
  · have hpos := List.length_pos_iff.2 hrest
    rw [show bytes.length - rest.length = offset + part.length by omega, ← List.drop_drop, h,
      List.drop_left]

theorem slice_of_drop_eq_append {payload padding : List UInt8} (h : start ≤ bytes.length)
    (happend : bytes.drop start = payload ++ padding) :
    slice bytes start (start + payload.length) = pure payload := by
  have hlength := congrArg List.length happend
  rw [List.length_drop, List.length_append] at hlength
  rw [slice_eq (Nat.le_add_right _ _) (by omega), List.drop_take, happend, Nat.add_sub_cancel_left,
    List.take_left]

theorem minus_eq (h : b ≤ a) : minus a b = pure (a - b) := by
  rw [minus, if_pos h]
  rfl

/-! ## Ends of parts -/

/-- The position behind an extension is the one from which the rest stands. -/
theorem extensionEnd_eq (h : offset ≤ bytes.length) :
    extensionEnd bytes offset = .mk (some ((afterExtension (bytes.drop offset)).map fun rest =>
      bytes.length - rest.length)) := by
  obtain ⟨front, back, rfl, rfl⟩ : ∃ front back, bytes = front ++ back ∧ offset = front.length :=
    ⟨bytes.take offset, bytes.drop offset, (List.take_append_drop _ _).symm,
      (List.length_take_of_le h).symm⟩
  rw [List.drop_left]
  match back with
  | profile₀ :: profile₁ :: high :: low :: words =>
    have hheader : slice? (front ++ profile₀ :: profile₁ :: high :: low :: words) front.length
        (front.length + 4) = some [profile₀, profile₁, high, low] := by
      simp [slice?, List.take_append]
    have hhigh : byteAt [profile₀, profile₁, high, low] 2 = pure high := rfl
    have hlow : byteAt [profile₀, profile₁, high, low] 3 = pure low := rfl
    simp only [extensionEnd, hheader, hhigh, hlow, pure_bind, afterExtension, dropExactly?]
    by_cases hshort : words.length < 4 * (toUInt16 high low).toNat
    · rw [if_pos hshort, if_pos (by simp only [List.length_append, List.length_cons]; omega)]
      rfl
    · rw [if_neg hshort, if_neg (by simp only [List.length_append, List.length_cons]; omega)]
      simp only [Except.map, List.length_append, List.length_cons, List.length_drop]
      rw [show front.length + (words.length + 1 + 1 + 1 + 1)
        - (words.length - 4 * (toUInt16 high low).toNat)
          = front.length + (4 + 4 * (toUInt16 high low).toNat) by omega]
      rfl
  | [] | [_] | [_, _] | [_, _, _] =>
    simp [extensionEnd, slice?, afterExtension]
    rfl

/-- Where nothing is left the last byte is of a part before, and it is refused too. -/
theorem beforePadding_drop {count : UInt8} (h : offset ≤ bytes.length)
    (hlast : bytes.getLast? = some count) :
    beforePadding (bytes.drop offset) =
      if count = 0 ∨ bytes.length - offset < count.toNat then .error .padding
      else .ok ((bytes.drop offset).take (bytes.length - offset - count.toNat)) := by
  rw [beforePadding, List.getLast?_drop, List.length_drop]
  by_cases hend : bytes.length ≤ offset
  · have hfault : count = 0 ∨ bytes.length - offset < count.toNat := by
      rw [← UInt8.toNat_inj, UInt8.toNat_zero]
      omega
    rw [if_pos hend, if_pos hfault]
  · rw [if_neg hend, hlast]

/-- The position in front of padding is the one up to which the payload stands. -/
theorem paddingStart_eq (hpos : 0 < bytes.length) (h : offset ≤ bytes.length) :
    paddingStart bytes offset = .mk (some ((beforePadding (bytes.drop offset)).map fun payload =>
      offset + payload.length)) := by
  have hlast : bytes.length - 1 < bytes.length := Nat.sub_lt hpos one_pos
  rw [beforePadding_drop h (by rw [List.getLast?_eq_getElem?, List.getElem?_eq_getElem hlast])]
  unfold paddingStart
  rw [minus_eq (Nat.one_le_of_lt hpos), minus_eq h, pure_bind, byteAt_eq hlast]
  simp only [pure_bind]
  generalize bytes[bytes.length - 1] = count
  by_cases hzero : count = 0
  · rw [if_pos hzero, if_pos (.inl hzero)]
    rfl
  by_cases hroom : bytes.length - offset < count.toNat
  · rw [if_neg hzero, if_pos hroom, if_pos (.inr hroom)]
    rfl
  · have hstop : bytes.length - count.toNat
        = offset + min (bytes.length - offset - count.toNat) (bytes.length - offset) := by omega
    rw [if_neg hzero, if_neg hroom, if_neg (not_or.2 ⟨hzero, hroom⟩), minus_eq (by omega)]
    simp only [Except.map, List.length_take, List.length_drop]
    rw [hstop]
    rfl

theorem payloadStart_eq {flags : UInt8} (h : offset ≤ bytes.length)
    (hoffset : offset = headerLength + 4 * (flags &&& 0x0F).toNat) :
    payloadStart bytes flags = .mk (some
      ((if flags &&& 0x10 = 0 then pure (bytes.drop offset)
        else afterExtension (bytes.drop offset)).map fun rest => bytes.length - rest.length)) := by
  rw [payloadStart, ← hoffset, if_neg (Nat.not_lt.2 h)]
  by_cases hbit : flags &&& 0x10 = 0
  · rw [if_pos hbit, if_pos hbit]
    simp only [pure, Except.pure, Except.map, List.length_drop, Nat.sub_sub_self h]
    rfl
  · rw [if_neg hbit, if_neg hbit, extensionEnd_eq h]

theorem payloadStop_eq (flags : UInt8) (hpos : 0 < bytes.length) (h : start ≤ bytes.length) :
    payloadStop bytes flags start = .mk (some
      ((if flags &&& 0x20 = 0 then pure (bytes.drop start)
        else beforePadding (bytes.drop start)).map fun payload => start + payload.length)) := by
  rw [payloadStop]
  by_cases hbit : flags &&& 0x20 = 0
  · rw [if_pos hbit, if_pos hbit]
    simp only [pure, Except.pure, Except.map, List.length_drop, Nat.add_sub_cancel' h]
    rfl
  · rw [if_neg hbit, if_neg hbit, paddingStart_eq hpos h]

/-- What lies between the positions is what the other parts leave. -/
theorem payloadAt_eq (flags : UInt8) (h : headerLength ≤ bytes.length) :
    payloadAt bytes flags = .mk (some (payloadOf flags (bytes.drop headerLength))) := by
  have hpos : 0 < bytes.length := Nat.lt_of_lt_of_le (by decide) h
  by_cases hshort : bytes.length < headerLength + 4 * (flags &&& 0x0F).toNat
  · have hsources : dropExactly? (4 * (flags &&& 0x0F).toNat) (bytes.drop headerLength) = none := by
      rw [dropExactly?, List.length_drop, if_pos (by omega)]
    rw [payloadAt, payloadStart, if_pos hshort, payloadOf, hsources]
    rfl
  · have hsources : dropExactly? (4 * (flags &&& 0x0F).toNat) (bytes.drop headerLength)
        = some (bytes.drop (headerLength + 4 * (flags &&& 0x0F).toNat)) := by
      rw [dropExactly?, List.length_drop, if_neg (by omega), List.drop_drop]
    rw [payloadAt, payloadStart_eq (Nat.le_of_not_lt hshort) rfl, payloadOf_eq hsources]
    cases hrest : (if flags &&& 0x10 = 0
        then pure (bytes.drop (headerLength + 4 * (flags &&& 0x0F).toNat))
        else afterExtension (bytes.drop (headerLength + 4 * (flags &&& 0x0F).toNat))) with
    | error e => rfl
    | ok rest =>
      obtain ⟨extension, -, hextension⟩ := extensionStep_eq_ok.1 hrest
      show payloadStop bytes flags (bytes.length - rest.length) >>= _ = _
      rw [payloadStop_eq flags hpos (Nat.sub_le _ _), drop_of_drop_eq_append hextension]
      show _ = ExceptT.mk (some (if flags &&& 0x20 = 0 then pure rest else beforePadding rest))
      cases hpayload : (if flags &&& 0x20 = 0 then pure rest else beforePadding rest) with
      | error e => rfl
      | ok payload =>
        obtain ⟨padding, -, hpadding⟩ := paddingStep_eq_ok.1 hpayload
        exact slice_of_drop_eq_append (Nat.sub_le _ _)
          (by rw [drop_of_drop_eq_append hextension, hpadding])

/-! ## Whole packets -/

/-- A packet shorter than its fixed header is read as such. -/
theorem Packet.read_short (h : bytes.length < headerLength) :
    Packet.read bytes = .error .shortHeader := by
  unfold Packet.read
  split
  next => exact absurd h (Nat.not_lt.2 (Nat.le_add_left 12 _))
  next => rfl

/-- Everything that is looked up is there, and no difference is below zero. -/
theorem Packet.readAt_eq (bytes : List UInt8) :
    Packet.readAt bytes = .mk (some (Packet.read bytes)) := by
  by_cases hshort : bytes.length < headerLength
  · rw [readAt, if_pos hshort, read_short hshort]
    rfl
  have hlong : headerLength ≤ bytes.length := Nat.le_of_not_lt hshort
  obtain ⟨header, rest, rfl⟩ : ∃ (header : Vector UInt8 12) (rest : List UInt8),
      bytes = header.toList ++ rest :=
    ⟨⟨(bytes.take 12).toArray, by simpa [headerLength] using hlong⟩, bytes.drop 12, by simp⟩
  rw [toList_header] at hlong ⊢
  simp only [List.cons_append, List.nil_append] at hlong ⊢
  simp only [readAt, if_neg (Nat.not_lt.2 hlong), byteAt_zero, byteAt_succ, pure_bind,
    payloadAt_eq _ hlong, Packet.read]
  by_cases hversion : header[0] >>> 6 ≠ 2
  · rw [if_pos hversion, if_pos hversion]
    rfl
  · rw [if_neg hversion, if_neg hversion]
    show ExceptT.mk (some (payloadOf header[0] rest)) >>= _ = _
    cases payloadOf header[0] rest with
    | error e => rfl
    | ok payload => rfl

end

/-- Packets are read by their grammar: the bytes of a packet have one layout, other bytes have
none, and reading them by position never looks outside of them. -/
theorem parse_iff_layout (bytes : List UInt8) :
    (∀ packet, Packet.parse bytes = .ok packet ↔
      ∃ l : Layout, l.Valid ∧ l.bytes = bytes ∧ l.packet = packet) ∧
    {l : Layout | l.Valid ∧ l.bytes = bytes}.Subsingleton ∧
    (Packet.readAt bytes).run = some (Packet.read bytes) := by
  refine ⟨fun packet => ?_, fun l hl l' hl' => ?_, ?_⟩
  · rw [← read_eq_ok, Packet.parse]
    cases Packet.read bytes <;> simp [Except.mapError]
  · exact hl.1.unique hl'.1 (hl.2.trans hl'.2.symm)
  · rw [Packet.readAt_eq]
    rfl

/-- One source, an extension of one word, two bytes of payload and three of padding. -/
example : Packet.parse [0xB1, 0xE0, 1, 2, 0, 0, 3, 4, 0, 0, 5, 6, 9, 9, 9, 9, 0xBE, 0xDE, 0, 1,
      8, 8, 8, 8, 70, 71, 0, 0, 3]
    = .ok ⟨true, 96, 0x0102, 0x0304, 0x0506, 1, [70, 71]⟩ := by
  rfl

end MediaTransport.Rtp
