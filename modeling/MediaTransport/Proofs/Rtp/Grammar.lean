import Mathlib.Data.Set.Subsingleton
import Mathlib.Tactic.IntervalCases
import MediaTransport.Proofs.Bytes
import MediaTransport.Rtp.Packet

/-!
# The grammar of packets

A packet is a fixed header, contributing sources, an extension, the payload and padding, in this
order (`Layout`).  The header says how many sources there are and whether there is an extension
and padding; the extension says how long it is in its first bytes, and the padding in its last.

A reader takes the parts off one by one.  Each step is an equivalence: it succeeds with what is
left exactly when the part stands there (`afterExtension_eq_ok`, `beforePadding_eq_ok`).  So a
packet is read exactly when it has a layout (`payloadOf_eq_ok`, `read_eq_ok`), and it has one at
most, since every part tells its own length (`Layout.Valid.unique`).
-/

namespace MediaTransport.Rtp

open Bytes

/-! ## Layouts -/

/-- An extension starts with four bytes, the last two of which count the words of four bytes behind
them. -/
inductive IsExtension : List UInt8 → Prop where
  | intro {profile₀ profile₁ high low : UInt8} {words : List UInt8}
      (h : words.length = 4 * (high.toNat * 2 ^ 8 + low.toNat)) :
      IsExtension (profile₀ :: profile₁ :: high :: low :: words)

/-- The last byte of padding counts the padding, itself included. -/
def IsPadding (padding : List UInt8) : Prop :=
  ∃ count, padding.getLast? = some count ∧ padding.length = count.toNat

/-- The parts of a packet, in the order in which they stand. -/
structure Layout where
  /-- The fixed header. -/
  header : Vector UInt8 12
  /-- The contributing sources. -/
  sources : List UInt8
  /-- The extension, with its own header. -/
  extension : List UInt8
  /-- The payload. -/
  payload : List UInt8
  /-- The padding. -/
  padding : List UInt8

namespace Layout

/-- The bytes of a packet with some parts. -/
def bytes (l : Layout) : List UInt8 :=
  l.header.toList ++ (l.sources ++ (l.extension ++ (l.payload ++ l.padding)))

/-- The parts are those that the header announces. -/
structure Valid (l : Layout) : Prop where
  /-- The two high bits of the first byte are the version. -/
  version : l.header[0].toNat / 2 ^ 6 = 2
  /-- Its four low bits count the sources. -/
  sources : l.sources.length = 4 * (l.header[0].toNat % 2 ^ 4)
  /-- The bit above them tells whether there is an extension. -/
  extension : if l.header[0].toNat.testBit 4 then IsExtension l.extension else l.extension = []
  /-- The next one tells whether there is padding. -/
  padding : if l.header[0].toNat.testBit 5 then IsPadding l.padding else l.padding = []

/-- What the parts say. -/
def packet (l : Layout) : Packet where
  marker := l.header[1].toNat.testBit 7
  payloadType := UInt8.ofNat (l.header[1].toNat % 2 ^ 7)
  sequence := UInt16.ofNat (l.header[2].toNat * 2 ^ 8 + l.header[3].toNat)
  timestamp := UInt32.ofNat (l.header[4].toNat * 2 ^ 24 + l.header[5].toNat * 2 ^ 16
    + l.header[6].toNat * 2 ^ 8 + l.header[7].toNat)
  ssrc := UInt32.ofNat (l.header[8].toNat * 2 ^ 24 + l.header[9].toNat * 2 ^ 16
    + l.header[10].toNat * 2 ^ 8 + l.header[11].toNat)
  contributors := UInt8.ofNat (l.header[0].toNat % 2 ^ 4)
  payload := l.payload

end Layout

/-! ## Bits of a byte -/

section

variable (b : UInt8)

theorem version_eq_iff : b >>> 6 = 2 ↔ b.toNat / 2 ^ 6 = 2 :=
  forall_byte (P := fun b => b >>> 6 = 2 ↔ b.toNat / 2 ^ 6 = 2) (by decide +kernel) b

theorem low_eq : b &&& 0x0F = UInt8.ofNat (b.toNat % 2 ^ 4) :=
  forall_byte (P := fun b => b &&& 0x0F = UInt8.ofNat (b.toNat % 2 ^ 4)) (by decide +kernel) b

theorem toNat_low : (b &&& 0x0F).toNat = b.toNat % 2 ^ 4 :=
  forall_byte (P := fun b => (b &&& 0x0F).toNat = b.toNat % 2 ^ 4) (by decide +kernel) b

theorem extensionBit_iff : b &&& 0x10 = 0 ↔ b.toNat.testBit 4 = false :=
  forall_byte (P := fun b => b &&& 0x10 = 0 ↔ b.toNat.testBit 4 = false) (by decide +kernel) b

theorem paddingBit_iff : b &&& 0x20 = 0 ↔ b.toNat.testBit 5 = false :=
  forall_byte (P := fun b => b &&& 0x20 = 0 ↔ b.toNat.testBit 5 = false) (by decide +kernel) b

theorem markerBit_eq : decide (b &&& 0x80 ≠ 0) = b.toNat.testBit 7 :=
  forall_byte (P := fun b => decide (b &&& 0x80 ≠ 0) = b.toNat.testBit 7) (by decide +kernel) b

theorem typeBits_eq : b &&& 0x7F = UInt8.ofNat (b.toNat % 2 ^ 7) :=
  forall_byte (P := fun b => b &&& 0x7F = UInt8.ofNat (b.toNat % 2 ^ 7)) (by decide +kernel) b

end

theorem toUInt16_eq (a b : UInt8) : toUInt16 a b = UInt16.ofNat (a.toNat * 2 ^ 8 + b.toNat) := by
  rw [← toNat_toUInt16, UInt16.ofNat_toNat]

theorem toUInt32_eq (a b c d : UInt8) : toUInt32 a b c d
    = UInt32.ofNat (a.toNat * 2 ^ 24 + b.toNat * 2 ^ 16 + c.toNat * 2 ^ 8 + d.toNat) := by
  rw [← toNat_toUInt32, UInt32.ofNat_toNat]

/-! ## Taking parts off -/

theorem dropExactly?_eq_some {count : ℕ} {bytes rest : List UInt8} :
    dropExactly? count bytes = some rest ↔
      ∃ part, part.length = count ∧ bytes = part ++ rest := by
  unfold dropExactly?
  constructor
  · intro h
    split at h
    next => cases h
    next hlong =>
      cases h
      exact ⟨bytes.take count, List.length_take_of_le (Nat.le_of_not_lt hlong),
        (List.take_append_drop count bytes).symm⟩
  · rintro ⟨part, rfl, rfl⟩
    rw [if_neg (by simp), List.drop_left]

/-- An extension says its own length behind its profile. -/
theorem afterExtension_eq_ok {bytes rest : List UInt8} :
    afterExtension bytes = .ok rest ↔ ∃ part, IsExtension part ∧ bytes = part ++ rest := by
  constructor
  · intro h
    unfold afterExtension at h
    split at h
    next profile₀ profile₁ high low bytes =>
      cases hdrop : dropExactly? (4 * (toUInt16 high low).toNat) bytes with
      | none =>
        rw [hdrop] at h
        cases h
      | some rest' =>
        rw [hdrop] at h
        cases h
        obtain ⟨words, hwords, rfl⟩ := dropExactly?_eq_some.1 hdrop
        rw [toNat_toUInt16] at hwords
        exact ⟨_, .intro hwords, rfl⟩
    next => cases h
  · rintro ⟨part, @⟨_, _, high, low, words, hwords⟩, rfl⟩
    have hdrop : dropExactly? (4 * (toUInt16 high low).toNat) (words ++ rest) = some rest :=
      dropExactly?_eq_some.2 ⟨words, by rw [toNat_toUInt16, hwords], rfl⟩
    simp [afterExtension, hdrop]

theorem getLast?_append_padding {padding : List UInt8} {count : UInt8}
    (h : padding.getLast? = some count) (payload : List UInt8) :
    (payload ++ padding).getLast? = some count := by
  rw [List.getLast?_append, h, Option.some_or]

/-- Padding says its own length in its last byte. -/
theorem beforePadding_eq_ok {bytes payload : List UInt8} :
    beforePadding bytes = .ok payload ↔ ∃ part, IsPadding part ∧ bytes = payload ++ part := by
  constructor
  · intro h
    unfold beforePadding at h
    split at h
    next => cases h
    next count hlast =>
      split at h
      next => cases h
      next hcount =>
        cases h
        obtain ⟨hpos, hlong⟩ := not_or.1 hcount
        have hne : count.toNat ≠ 0 := fun h0 => hpos (UInt8.toNat_inj.1 h0)
        refine ⟨bytes.drop (bytes.length - count.toNat), ⟨count, ?_, ?_⟩,
          (List.take_append_drop _ _).symm⟩
        · rw [List.getLast?_drop, if_neg (by omega), hlast]
        · rw [List.length_drop]
          omega
  · rintro ⟨part, ⟨count, hlast, hlength⟩, rfl⟩
    have hpos : 0 < part.length := by
      rw [List.length_pos_iff, ← List.getLast?_isSome, hlast]
      rfl
    have hcount : ¬(count = 0 ∨ (payload ++ part).length < count.toNat) := by
      rw [List.length_append]
      rintro (rfl | hlong)
      · rw [hlength] at hpos
        cases hpos
      · omega
    simp only [beforePadding, getLast?_append_padding hlast payload, if_neg hcount]
    rw [← hlength, List.length_append, Nat.add_sub_cancel, List.take_left]

/-- The extension is taken off when its bit is set. -/
theorem extensionStep_eq_ok {flags : UInt8} {bytes rest : List UInt8} :
    (if flags &&& 0x10 = 0 then pure bytes else afterExtension bytes) = Except.ok rest ↔
      ∃ part, (if flags.toNat.testBit 4 then IsExtension part else part = []) ∧
        bytes = part ++ rest := by
  by_cases h : flags &&& 0x10 = 0
  · have hbit := (extensionBit_iff flags).1 h
    simp [h, hbit, pure, Except.pure]
  · have hbit : flags.toNat.testBit 4 = true := by
      rwa [extensionBit_iff, Bool.not_eq_false] at h
    rw [if_neg h, afterExtension_eq_ok]
    simp only [if_pos hbit]

/-- The padding is taken off when its bit is set. -/
theorem paddingStep_eq_ok {flags : UInt8} {bytes payload : List UInt8} :
    (if flags &&& 0x20 = 0 then pure bytes else beforePadding bytes) = Except.ok payload ↔
      ∃ part, (if flags.toNat.testBit 5 then IsPadding part else part = []) ∧
        bytes = payload ++ part := by
  by_cases h : flags &&& 0x20 = 0
  · have hbit := (paddingBit_iff flags).1 h
    simp [h, hbit, pure, Except.pure]
  · have hbit : flags.toNat.testBit 5 = true := by
      rwa [paddingBit_iff, Bool.not_eq_false] at h
    rw [if_neg h, beforePadding_eq_ok]
    simp only [if_pos hbit]

theorem payloadOf_eq {flags : UInt8} {bytes afterSources : List UInt8}
    (h : dropExactly? (4 * (flags &&& 0x0F).toNat) bytes = some afterSources) :
    payloadOf flags bytes
      = (if flags &&& 0x10 = 0 then pure afterSources else afterExtension afterSources).bind
        fun rest => if flags &&& 0x20 = 0 then pure rest else beforePadding rest := by
  unfold payloadOf
  rw [h]
  by_cases hbit : flags &&& 0x10 = 0 <;> simp only [hbit, if_true, if_false] <;> rfl

/-- The payload is what the other parts leave. -/
theorem payloadOf_eq_ok {flags : UInt8} {bytes payload : List UInt8} :
    payloadOf flags bytes = .ok payload ↔ ∃ sources extension padding,
      sources.length = 4 * (flags.toNat % 2 ^ 4) ∧
      (if flags.toNat.testBit 4 then IsExtension extension else extension = []) ∧
      (if flags.toNat.testBit 5 then IsPadding padding else padding = []) ∧
      bytes = sources ++ (extension ++ (payload ++ padding)) := by
  rw [← toNat_low]
  constructor
  · intro h
    cases hsources : dropExactly? (4 * (flags &&& 0x0F).toNat) bytes with
    | none =>
      rw [payloadOf, hsources] at h
      cases h
    | some afterSources =>
      rw [payloadOf_eq hsources] at h
      cases hrest : (if flags &&& 0x10 = 0 then pure afterSources
          else afterExtension afterSources) with
      | error e =>
        rw [hrest] at h
        cases h
      | ok rest =>
        rw [hrest] at h
        obtain ⟨sources, hlength, rfl⟩ := dropExactly?_eq_some.1 hsources
        obtain ⟨extension, hextension, rfl⟩ := extensionStep_eq_ok.1 hrest
        obtain ⟨padding, hpadding, rfl⟩ := paddingStep_eq_ok.1 h
        exact ⟨sources, extension, padding, hlength, hextension, hpadding, rfl⟩
  · rintro ⟨sources, extension, padding, hlength, hextension, hpadding, rfl⟩
    have hsources : dropExactly? (4 * (flags &&& 0x0F).toNat)
        (sources ++ (extension ++ (payload ++ padding)))
          = some (extension ++ (payload ++ padding)) :=
      dropExactly?_eq_some.2 ⟨sources, hlength, rfl⟩
    rw [payloadOf_eq hsources, extensionStep_eq_ok.2 ⟨extension, hextension, rfl⟩]
    exact paddingStep_eq_ok.2 ⟨padding, hpadding, rfl⟩

/-! ## Whole packets -/

theorem toList_header (header : Vector UInt8 12) : header.toList
    = [header[0], header[1], header[2], header[3], header[4], header[5], header[6], header[7],
      header[8], header[9], header[10], header[11]] := by
  refine List.ext_getElem (by simp) fun i hi _ => ?_
  rw [Vector.length_toList] at hi
  interval_cases i <;> simp

/-- A packet is read exactly when it has a layout, and what is read is what its parts say. -/
theorem read_eq_ok {bytes : List UInt8} {packet : Packet} :
    Packet.read bytes = .ok packet ↔
      ∃ l : Layout, l.Valid ∧ l.bytes = bytes ∧ l.packet = packet := by
  constructor
  · intro h
    unfold Packet.read at h
    split at h
    next b₀ b₁ s₀ s₁ t₀ t₁ t₂ t₃ c₀ c₁ c₂ c₃ bytes =>
      split at h
      next => cases h
      next hversion =>
        have hversion := (version_eq_iff b₀).1 (not_not.1 hversion)
        cases hpayload : payloadOf b₀ bytes with
        | error e =>
          rw [hpayload] at h
          cases h
        | ok payload =>
          rw [hpayload] at h
          cases h
          obtain ⟨sources, extension, padding, hsources, hextension, hpadding, rfl⟩ :=
            payloadOf_eq_ok.1 hpayload
          refine ⟨⟨#v[b₀, b₁, s₀, s₁, t₀, t₁, t₂, t₃, c₀, c₁, c₂, c₃], sources, extension,
            payload, padding⟩, ⟨hversion, hsources, hextension, hpadding⟩, rfl, ?_⟩
          simp only [toUInt16_eq, toUInt32_eq, low_eq, markerBit_eq, typeBits_eq]
          rfl
    next => cases h
  · rintro ⟨l, hl, rfl, rfl⟩
    have hversion : ¬l.header[0] >>> 6 ≠ 2 := not_not.2 ((version_eq_iff _).2 hl.version)
    have hpayload : payloadOf l.header[0] (l.sources ++ (l.extension ++ (l.payload ++ l.padding)))
        = .ok l.payload :=
      payloadOf_eq_ok.2 ⟨_, _, _, hl.sources, hl.extension, hl.padding, rfl⟩
    rw [Layout.bytes, toList_header]
    simp only [List.cons_append, List.nil_append, Packet.read, if_neg hversion, hpayload,
      toUInt16_eq, toUInt32_eq, low_eq, markerBit_eq, typeBits_eq]
    rfl

/-! ## Uniqueness -/

/-- The first four bytes tell where an extension ends. -/
theorem IsExtension.unique {part other rest more : List UInt8} (h : IsExtension part)
    (h' : IsExtension other) (heq : part ++ rest = other ++ more) :
    part = other ∧ rest = more := by
  cases h with
  | intro hwords =>
    cases h' with
    | intro hwords' =>
      simp only [List.cons_append, List.cons.injEq] at heq
      obtain ⟨rfl, rfl, rfl, rfl, heq⟩ := heq
      obtain ⟨rfl, rfl⟩ := List.append_inj heq (hwords.trans hwords'.symm)
      exact ⟨rfl, rfl⟩

/-- The last byte tells where padding starts. -/
theorem IsPadding.unique {part other rest more : List UInt8} (h : IsPadding part)
    (h' : IsPadding other) (heq : rest ++ part = more ++ other) : rest = more ∧ part = other := by
  obtain ⟨count, hlast, hlength⟩ := h
  obtain ⟨count', hlast', hlength'⟩ := h'
  have hsame : some count = some count' := by
    rw [← getLast?_append_padding hlast rest, heq, getLast?_append_padding hlast' more]
  obtain rfl := Option.some.inj hsame
  exact List.append_inj' heq (hlength.trans hlength'.symm)

section

variable {present : Bool} {part other rest more : List UInt8}

theorem extension_unique (h : if present then IsExtension part else part = [])
    (h' : if present then IsExtension other else other = []) (heq : part ++ rest = other ++ more) :
    part = other ∧ rest = more := by
  cases present with
  | false =>
    obtain rfl : part = [] := h
    obtain rfl : other = [] := h'
    exact ⟨rfl, heq⟩
  | true => exact IsExtension.unique h h' heq

theorem padding_unique (h : if present then IsPadding part else part = [])
    (h' : if present then IsPadding other else other = []) (heq : rest ++ part = more ++ other) :
    rest = more ∧ part = other := by
  cases present with
  | false =>
    obtain rfl : part = [] := h
    obtain rfl : other = [] := h'
    rw [List.append_nil, List.append_nil] at heq
    exact ⟨heq, rfl⟩
  | true => exact IsPadding.unique h h' heq

end

/-- Every part tells its length from what stands before it or from its own end. -/
theorem Layout.Valid.unique {l l' : Layout} (h : l.Valid) (h' : l'.Valid)
    (heq : l.bytes = l'.bytes) : l = l' := by
  obtain ⟨header, sources, extension, payload, padding⟩ := l
  obtain ⟨header', sources', extension', payload', padding'⟩ := l'
  obtain ⟨hheader, hbehind⟩ := List.append_inj heq (by simp)
  obtain rfl := Vector.toList_inj.1 hheader
  obtain ⟨rfl, hrest⟩ := List.append_inj hbehind (h.sources.trans h'.sources.symm)
  obtain ⟨rfl, hend⟩ := extension_unique h.extension h'.extension hrest
  obtain ⟨rfl, rfl⟩ := padding_unique h.padding h'.padding hend
  rfl

end MediaTransport.Rtp
