import MediaTransport.Text.Utf8
import Mathlib.Data.List.Induction
import Mathlib.Tactic.IntervalCases

/-!
# Reading UTF-8

The bytes of a text read back as the text, whether ill-formed input is refused
(`decode?_encode`) or replaced (`decodeLossy_encode`), and where it is refused no
other bytes are read (`decode?_eq_some_iff`).

The reader takes one byte at a time, so the proof follows it through one
character.  The first byte announces the others (`ofByte_two`, `ofByte_three`,
`ofByte_four`), each later byte adds six bits (`push_continuation`), and the range
of the second byte, which depends on the first one, holds because a character is
neither written overlong nor a surrogate nor past the last code point.

The converse follows the reader through any bytes.  As long as it has met nothing
ill-formed, it *has read* them (`Reader.HasRead`): they are the bytes of the
characters behind it and the first ones of a character that is *open* (`IsOpen`).
Openness speaks of every way to finish the character (`Finishes`), so a later byte
passes it on as it is, and only a first byte has to know the ranges (`isOpen_two`,
`isOpen_three`, `isOpen_four`).
-/

namespace MediaTransport.Text.Utf8

/-! ## Bytes of a text -/

/-- The bytes of a text are the bytes of its characters. -/
theorem encode_eq (text : String) : encode text = text.toList.flatMap String.utf8EncodeChar := by
  rw [encode, String.toUTF8_eq_toByteArray, ← String.utf8Encode_toList, List.utf8Encode,
    List.toList_data_toByteArray]

theorem encode_append (a b : String) : encode (a ++ b) = encode a ++ encode b := by
  rw [encode_eq, String.toList_append, List.flatMap_append, ← encode_eq, ← encode_eq]

/-- An encoded text has as many bytes as the text says of itself. -/
theorem length_encode (text : String) : (encode text).length = text.utf8ByteSize := by
  rw [encode, String.toUTF8_eq_toByteArray, Array.length_toList]
  rfl

/-- An ASCII byte stands only for its own character. -/
theorem eq_ofNat_of_mem {b : UInt8} (hb : b < 0x80) {c : Char} (h : b ∈ String.utf8EncodeChar c) :
    c = Char.ofNat b.toNat := by
  have hlater : ∀ x y : ℕ, x + y < 256 → 0x80 ≤ y → b ≠ UInt8.ofNat (x + y) := by
    rintro x y hsum hy rfl
    rw [UInt8.lt_iff_toNat_lt, UInt8.toNat_ofNat', Nat.mod_eq_of_lt hsum] at hb
    change x + y < 0x80 at hb
    omega
  simp only [String.utf8EncodeChar] at h
  split at h
  next hone =>
    have hnat : b.toNat = c.toNat := by
      rw [List.mem_singleton.mp h, UInt8.toNat_ofNat']
      exact Nat.mod_eq_of_lt (show c.val.toNat < 256 by omega)
    rw [hnat, Char.ofNat_toNat]
  next =>
    -- Every byte of a longer character is at least `0x80`.
    exfalso
    split at h
    next =>
      simp only [List.mem_cons, List.not_mem_nil, or_false] at h
      rcases h with h | h <;> exact hlater _ _ (by omega) (by decide) h
    next =>
      split at h
      next =>
        simp only [List.mem_cons, List.not_mem_nil, or_false] at h
        rcases h with h | h | h <;> exact hlater _ _ (by omega) (by decide) h
      next =>
        simp only [List.mem_cons, List.not_mem_nil, or_false] at h
        rcases h with h | h | h | h <;> exact hlater _ _ (by omega) (by decide) h

/-! ## First bytes -/

theorem ofByte_single {x : ℕ} (hx : x < 0x80) :
    Lead.ofByte (UInt8.ofNat x) = .single (Char.ofNat x) := by
  have hnat : (UInt8.ofNat x).toNat = x := by
    rw [UInt8.toNat_ofNat']
    omega
  have hlt : UInt8.ofNat x < 0x80 := by
    rw [UInt8.lt_iff_toNat_lt, hnat]
    exact hx
  rw [Lead.ofByte, if_pos hlt, hnat]

theorem ofByte_two {x : ℕ} (hlow : 2 ≤ x) (hx : x < 32) :
    Lead.ofByte (UInt8.ofNat (x + 0xC0)) = .opening ⟨0, 0x80, 0xBF, x⟩ := by
  interval_cases x <;> rfl

theorem ofByte_three {x : ℕ} (hx : x < 16) :
    Lead.ofByte (UInt8.ofNat (x + 0xE0))
      = .opening ⟨1, if x = 0 then 0xA0 else 0x80, if x = 13 then 0x9F else 0xBF, x⟩ := by
  interval_cases x <;> rfl

theorem ofByte_four {x : ℕ} (hx : x ≤ 4) :
    Lead.ofByte (UInt8.ofNat (x + 0xF0))
      = .opening ⟨2, if x = 0 then 0x90 else 0x80, if x = 4 then 0x8F else 0xBF, x⟩ := by
  interval_cases x <;> rfl

/-! ## Later bytes -/

/-- What a reader becomes when the awaited byte adds the last or some bits. -/
def Reader.continued (done : List (Option Char)) : (more bits : ℕ) → Reader
  | 0, bits => ⟨none, some (Char.ofNat bits) :: done⟩
  | more + 1, bits => ⟨some ⟨more, 0x80, 0xBF, bits⟩, done⟩

/-- An awaited byte adds six bits. -/
theorem push_continuation {more bits x : ℕ} {low high : UInt8} {done : List (Option Char)}
    (hx : x < 64) (hlow : low.toNat ≤ x + 0x80) (hhigh : x + 0x80 ≤ high.toNat) :
    Reader.push ⟨some ⟨more, low, high, bits⟩, done⟩ (UInt8.ofNat (x + 0x80))
      = .continued done more (bits * 64 + x) := by
  have hnat : (UInt8.ofNat (x + 0x80)).toNat = x + 0x80 := by
    rw [UInt8.toNat_ofNat']
    omega
  have hrange : low ≤ UInt8.ofNat (x + 0x80) ∧ UInt8.ofNat (x + 0x80) ≤ high := by
    rw [UInt8.le_iff_toNat_le, UInt8.le_iff_toNat_le, hnat]
    exact ⟨hlow, hhigh⟩
  simp only [Reader.push]
  rw [if_pos hrange, hnat, Nat.add_sub_cancel]
  cases more with
  | zero => rfl
  | succ more => rfl

/-- A later byte of no special range. -/
theorem push_plain {more bits x : ℕ} {done : List (Option Char)} (hx : x < 64) :
    Reader.push ⟨some ⟨more, 0x80, 0xBF, bits⟩, done⟩ (UInt8.ofNat (x + 0x80))
      = .continued done more (bits * 64 + x) :=
  push_continuation hx (Nat.le_add_left _ x) (by
    change x + 0x80 ≤ 0xBF
    omega)

theorem push_opening {b : UInt8} {a : Awaiting} {done : List (Option Char)}
    (h : Lead.ofByte b = .opening a) : Reader.push ⟨none, done⟩ b = ⟨some a, done⟩ := by
  simp only [Reader.push, Reader.lead, h]

/-! ## Characters -/

theorem foldl_push_one (done : List (Option Char)) {n : ℕ} (hn : n ≤ 0x7F) :
    [UInt8.ofNat n].foldl Reader.push ⟨none, done⟩ = ⟨none, some (Char.ofNat n) :: done⟩ := by
  simp only [List.foldl_cons, List.foldl_nil, Reader.push, Reader.lead,
    ofByte_single (show n < 0x80 by omega)]

theorem foldl_push_two (done : List (Option Char)) {n : ℕ} (hlow : 0x7F < n) (hn : n ≤ 0x7FF) :
    [UInt8.ofNat (n / 64 % 0x20 + 0xC0), UInt8.ofNat (n % 0x40 + 0x80)].foldl Reader.push
        ⟨none, done⟩ = ⟨none, some (Char.ofNat n) :: done⟩ := by
  have hlead : n / 64 % 32 = n / 64 := Nat.mod_eq_of_lt (by omega)
  have hbits : n / 64 * 64 + n % 64 = n := Nat.div_add_mod' n 64
  simp only [List.foldl_cons, List.foldl_nil]
  rw [hlead, push_opening (ofByte_two (by omega) (by omega)),
    push_plain (Nat.mod_lt n (by decide)), hbits]
  rfl

theorem foldl_push_three (done : List (Option Char)) {n : ℕ} (hlow : 0x7FF < n)
    (hn : n ≤ 0xFFFF) (hvalid : n < 0xD800 ∨ 0xDFFF < n) :
    [UInt8.ofNat (n / 4096 % 0x10 + 0xE0), UInt8.ofNat (n / 64 % 0x40 + 0x80),
        UInt8.ofNat (n % 0x40 + 0x80)].foldl Reader.push ⟨none, done⟩
      = ⟨none, some (Char.ofNat n) :: done⟩ := by
  have hlead : n / 4096 % 16 = n / 4096 := Nat.mod_eq_of_lt (by omega)
  have hbits : (n / 4096 * 64 + n / 64 % 64) * 64 + n % 64 = n := by omega
  simp only [List.foldl_cons, List.foldl_nil]
  rw [hlead, push_opening (ofByte_three (by omega)), push_continuation (Nat.mod_lt _ (by decide)),
    Reader.continued, push_plain (Nat.mod_lt n (by decide)), hbits]
  · rfl
  -- The character is not overlong.
  · split
    next hzero =>
      change 0xA0 ≤ _
      omega
    next => exact Nat.le_add_left _ _
  -- The character is no surrogate.
  · split
    next hsurrogate =>
      change _ ≤ 0x9F
      omega
    next =>
      change _ ≤ 0xBF
      omega

theorem foldl_push_four (done : List (Option Char)) {n : ℕ} (hlow : 0xFFFF < n)
    (hn : n < 0x110000) :
    [UInt8.ofNat (n / 262144 % 0x08 + 0xF0), UInt8.ofNat (n / 4096 % 0x40 + 0x80),
        UInt8.ofNat (n / 64 % 0x40 + 0x80), UInt8.ofNat (n % 0x40 + 0x80)].foldl Reader.push
        ⟨none, done⟩
      = ⟨none, some (Char.ofNat n) :: done⟩ := by
  have hlead : n / 262144 % 8 = n / 262144 := Nat.mod_eq_of_lt (by omega)
  have hbits : ((n / 262144 * 64 + n / 4096 % 64) * 64 + n / 64 % 64) * 64 + n % 64 = n := by
    omega
  simp only [List.foldl_cons, List.foldl_nil]
  rw [hlead, push_opening (ofByte_four (by omega)), push_continuation (Nat.mod_lt _ (by decide)),
    Reader.continued, push_plain (Nat.mod_lt _ (by decide)), Reader.continued,
    push_plain (Nat.mod_lt n (by decide)), hbits]
  · rfl
  -- The character is not overlong.
  · split
    next hzero =>
      change 0x90 ≤ _
      omega
    next => exact Nat.le_add_left _ _
  -- The character is not past the last code point.
  · split
    next hlast =>
      change _ ≤ 0x8F
      omega
    next =>
      change _ ≤ 0xBF
      omega

/-- The bytes of a character read back as the character. -/
theorem foldl_push_char (done : List (Option Char)) (c : Char) :
    (String.utf8EncodeChar c).foldl Reader.push ⟨none, done⟩ = ⟨none, some c :: done⟩ := by
  have hvalid : c.val.toNat < 0xD800 ∨ (0xDFFF < c.val.toNat ∧ c.val.toNat < 0x110000) := c.valid
  have hself : Char.ofNat c.val.toNat = c := Char.ofNat_toNat c
  conv => rhs; rw [← hself]
  simp only [String.utf8EncodeChar]
  split
  next hone => exact foldl_push_one done hone
  next hone =>
    split
    next htwo => exact foldl_push_two done (by omega) htwo
    next htwo =>
      split
      next hthree => exact foldl_push_three done (by omega) hthree (by omega)
      next hthree => exact foldl_push_four done (by omega) (by omega)

/-! ## Texts -/

/-- All characters of a text are read, one by one. -/
theorem foldl_push_chars (done : List (Option Char)) (text : List Char) :
    (text.flatMap String.utf8EncodeChar).foldl Reader.push ⟨none, done⟩
      = ⟨none, (text.map some).reverse ++ done⟩ := by
  induction text generalizing done with
  | nil => rfl
  | cons c text ih =>
    rw [List.flatMap_cons, List.foldl_append, foldl_push_char, ih]
    simp

/-- The bytes of a text hold its characters and no ill-formed run. -/
theorem scan_encode (text : String) : scan (encode text) = text.toList.map some := by
  rw [scan, encode_eq, Reader.start, foldl_push_chars]
  simp [Reader.finish]

/-- A written text is well-formed and reads back. -/
@[simp] theorem decode?_encode (text : String) : decode? (encode text) = some text := by
  have hall : (text.toList.map some).mapM id = some text.toList := by
    induction text.toList with
    | nil => rfl
    | cons c text ih => simp [List.mapM_cons, ih]
  rw [decode?, scan_encode, hall, Option.map_some, String.ofList_toList]

/-- A written text has nothing to replace. -/
theorem eq_of_flatMap_eq {a b : List Char}
    (h : a.flatMap String.utf8EncodeChar = b.flatMap String.utf8EncodeChar) : a = b := by
  have hbytes : encode (String.ofList a) = encode (String.ofList b) := by
    rw [encode_eq, encode_eq, String.toList_ofList, String.toList_ofList, h]
  have hread := decode?_encode (String.ofList a)
  rw [hbytes, decode?_encode, Option.some.injEq] at hread
  rw [← String.toList_ofList (l := a), ← hread, String.toList_ofList]

@[simp] theorem decodeLossy_encode (text : String) : decodeLossy (encode text) = text := by
  rw [decodeLossy, scan_encode, List.map_map]
  simp

/-! ## Well-formed bytes -/

/-- A byte starts a character of one to four bytes, or none. -/
theorem ofByte_cases (b : UInt8) :
    (∃ x < 0x80, b = UInt8.ofNat x) ∨ (∃ x, 2 ≤ x ∧ x < 32 ∧ b = UInt8.ofNat (x + 0xC0)) ∨
      (∃ x < 16, b = UInt8.ofNat (x + 0xE0)) ∨ (∃ x ≤ 4, b = UInt8.ofNat (x + 0xF0)) ∨
      Lead.ofByte b = .stray := by
  have hsum : ∀ low ≤ b.toNat, b = UInt8.ofNat (b.toNat - low + low) := by
    intro low hlow
    rw [Nat.sub_add_cancel hlow, UInt8.ofNat_toNat]
  have hb := b.toNat_lt
  by_cases hone : b.toNat < 0x80
  · exact .inl ⟨b.toNat, hone, by simp⟩
  by_cases hlow : b.toNat < 0xC2
  · have hstray : ¬ b < 0x80 ∧ b < 0xC2 := by
      rw [UInt8.lt_iff_toNat_lt, UInt8.lt_iff_toNat_lt]
      exact ⟨hone, hlow⟩
    rw [Lead.ofByte, if_neg hstray.1, if_pos hstray.2]
    exact .inr (.inr (.inr (.inr rfl)))
  by_cases htwo : b.toNat < 0xE0
  · exact .inr (.inl ⟨b.toNat - 0xC0, by omega, by omega, hsum _ (by omega)⟩)
  by_cases hthree : b.toNat < 0xF0
  · exact .inr (.inr (.inl ⟨b.toNat - 0xE0, by omega, hsum _ (by omega)⟩))
  by_cases hfour : b.toNat ≤ 0xF4
  · exact .inr (.inr (.inr (.inl ⟨b.toNat - 0xF0, by omega, hsum _ (by omega)⟩)))
  · obtain ⟨n, rfl, hn⟩ : ∃ n, b = UInt8.ofNat n ∧ n = b.toNat := ⟨_, by simp, rfl⟩
    rw [← hn] at hfour hb
    have hstray : Lead.ofByte (UInt8.ofNat n) = .stray := by interval_cases n <;> rfl
    exact .inr (.inr (.inr (.inr hstray)))

theorem toNat_ofNat {n : ℕ} (h : n < 0xD800 ∨ (0xDFFF < n ∧ n < 0x110000)) :
    (Char.ofNat n).val.toNat = n := by
  rw [Char.ofNat, dif_pos h]
  rfl

/-- The bytes that finish a character of which some are missing, and its code point. -/
inductive Finishes : Awaiting → List UInt8 → ℕ → Prop where
  | last {low high b : UInt8} {bits : ℕ} (hlow : low ≤ b) (hhigh : b ≤ high) :
    Finishes ⟨0, low, high, bits⟩ [b] (bits * 64 + (b.toNat - 0x80))
  | later {more bits n : ℕ} {low high b : UInt8} {bytes : List UInt8} (hlow : low ≤ b)
    (hhigh : b ≤ high) (h : Finishes ⟨more, 0x80, 0xBF, bits * 64 + (b.toNat - 0x80)⟩ bytes n) :
    Finishes ⟨more + 1, low, high, bits⟩ (b :: bytes) n

/-- The bytes read of the character that is unfinished. -/
def IsOpen (bytes : List UInt8) : Option Awaiting → Prop
  | none => bytes = []
  | some a => ∀ more n, Finishes a more n → String.utf8EncodeChar (Char.ofNat n) = bytes ++ more

/-- The six bits of a later byte. -/
theorem exists_continuation {low high b : UInt8} (hlow : low ≤ b) (hhigh : b ≤ high)
    (hrange : 0x80 ≤ low.toNat ∧ high.toNat ≤ 0xBF) :
    ∃ y < 64, b = UInt8.ofNat (y + 0x80) ∧ b.toNat - 0x80 = y ∧
      low.toNat ≤ y + 0x80 ∧ y + 0x80 ≤ high.toNat := by
  rw [UInt8.le_iff_toNat_le] at hlow hhigh
  refine ⟨b.toNat - 0x80, by omega, ?_, rfl, by omega, by omega⟩
  rw [Nat.sub_add_cancel (by omega), UInt8.ofNat_toNat]

theorem utf8EncodeChar_single {x : ℕ} (hx : x < 0x80) :
    String.utf8EncodeChar (Char.ofNat x) = [UInt8.ofNat x] := by
  have hval : (Char.ofNat x).val.toNat = x := toNat_ofNat (by omega)
  simp only [String.utf8EncodeChar, hval]
  rw [if_pos (by omega)]

theorem isOpen_two {x : ℕ} (hlow : 2 ≤ x) (hx : x < 32) :
    IsOpen [UInt8.ofNat (x + 0xC0)] (some ⟨0, 0x80, 0xBF, x⟩) := by
  intro more n hfinish
  cases hfinish with
  | last hb hb' =>
    obtain ⟨y, hy, rfl, hbits, -⟩ := exists_continuation hb hb' (by decide)
    have hval : (Char.ofNat (x * 64 + y)).val.toNat = x * 64 + y := toNat_ofNat (by omega)
    rw [hbits]
    simp only [String.utf8EncodeChar, hval]
    rw [if_neg (by omega), if_pos (by omega)]
    have hfirst : (x * 64 + y) / 64 % 32 = x := by omega
    have hsecond : (x * 64 + y) % 64 = y := by omega
    rw [hfirst, hsecond]
    rfl

theorem isOpen_three {x : ℕ} (hx : x < 16) :
    IsOpen [UInt8.ofNat (x + 0xE0)]
      (some ⟨1, if x = 0 then 0xA0 else 0x80, if x = 13 then 0x9F else 0xBF, x⟩) := by
  intro more n hfinish
  cases hfinish with
  | later hb hb' h =>
    cases h with
    | last hc hc' =>
      obtain ⟨y, hy, rfl, hbits, hlow, hhigh⟩ :=
        exists_continuation hb hb' ⟨by split <;> decide, by split <;> decide⟩
      obtain ⟨z, hz, rfl, hbits', -⟩ := exists_continuation hc hc' (by decide)
      -- The character is neither overlong nor a surrogate.
      have hoverlong : x = 0 → 32 ≤ y := by
        intro h
        rw [if_pos h] at hlow
        change 0xA0 ≤ y + 0x80 at hlow
        omega
      have hsurrogate : x = 13 → y < 32 := by
        intro h
        rw [if_pos h] at hhigh
        change y + 0x80 ≤ 0x9F at hhigh
        omega
      have hval : (Char.ofNat ((x * 64 + y) * 64 + z)).val.toNat = (x * 64 + y) * 64 + z :=
        toNat_ofNat (by omega)
      have hfirst : ((x * 64 + y) * 64 + z) / 4096 % 16 = x := by omega
      have hsecond : ((x * 64 + y) * 64 + z) / 64 % 64 = y := by omega
      have hthird : ((x * 64 + y) * 64 + z) % 64 = z := by omega
      rw [hbits, hbits']
      simp only [String.utf8EncodeChar, hval]
      rw [if_neg (by omega), if_neg (by omega), if_pos (by omega), hfirst, hsecond, hthird]
      rfl

theorem isOpen_four {x : ℕ} (hx : x ≤ 4) :
    IsOpen [UInt8.ofNat (x + 0xF0)]
      (some ⟨2, if x = 0 then 0x90 else 0x80, if x = 4 then 0x8F else 0xBF, x⟩) := by
  intro more n hfinish
  cases hfinish with
  | later hb hb' h =>
    cases h with
    | later hc hc' h =>
      cases h with
      | last hd hd' =>
        obtain ⟨y, hy, rfl, hbits, hlow, hhigh⟩ :=
          exists_continuation hb hb' ⟨by split <;> decide, by split <;> decide⟩
        obtain ⟨z, hz, rfl, hbits', -⟩ := exists_continuation hc hc' (by decide)
        obtain ⟨w, hw, rfl, hbits'', -⟩ := exists_continuation hd hd' (by decide)
        -- The character is neither overlong nor past the last code point.
        have hoverlong : x = 0 → 16 ≤ y := by
          intro h
          rw [if_pos h] at hlow
          change 0x90 ≤ y + 0x80 at hlow
          omega
        have hlast : x = 4 → y < 16 := by
          intro h
          rw [if_pos h] at hhigh
          change y + 0x80 ≤ 0x8F at hhigh
          omega
        obtain ⟨n, hn⟩ : ∃ n, n = ((x * 64 + y) * 64 + z) * 64 + w := ⟨_, rfl⟩
        have hval : (Char.ofNat n).val.toNat = n := toNat_ofNat (by omega)
        have hfirst : n / 262144 % 8 = x := by omega
        have hsecond : n / 4096 % 64 = y := by omega
        have hthird : n / 64 % 64 = z := by omega
        have hfourth : n % 64 = w := by omega
        rw [hbits, hbits', hbits'', ← hn]
        simp only [String.utf8EncodeChar, hval]
        rw [if_neg (by omega), if_neg (by omega), if_neg (by omega), hfirst, hsecond, hthird,
          hfourth]
        rfl

/-! ### Readers -/

/-- A reader that has met no ill-formed run in some bytes. -/
def Reader.HasRead (r : Reader) (bytes : List UInt8) : Prop :=
  ∃ (text : List Char) (started : List UInt8),
    bytes = text.flatMap String.utf8EncodeChar ++ started ∧
      r.done = (text.map some).reverse ∧ IsOpen started r.awaiting

theorem Reader.HasRead.lead {done : List (Option Char)} {bytes : List UInt8}
    (h : Reader.HasRead ⟨none, done⟩ bytes) (b : UInt8) :
    none ∈ (Reader.lead done b).done ∨ (Reader.lead done b).HasRead (bytes ++ [b]) := by
  obtain ⟨text, started, rfl, hdone, rfl⟩ := h
  rw [List.append_nil, Reader.lead]
  rcases ofByte_cases b with ⟨x, hx, rfl⟩ | ⟨x, hlow, hx, rfl⟩ | ⟨x, hx, rfl⟩ | ⟨x, hx, rfl⟩ |
    hstray
  · rw [ofByte_single hx]
    refine .inr ⟨text ++ [Char.ofNat x], [], ?_, ?_, rfl⟩
    · simp [utf8EncodeChar_single hx]
    · change some _ :: done = _
      have hdone' : done = (text.map some).reverse := hdone
      simp [hdone']
  · rw [ofByte_two hlow hx]
    exact .inr ⟨text, _, rfl, hdone, isOpen_two hlow hx⟩
  · rw [ofByte_three hx]
    exact .inr ⟨text, _, rfl, hdone, isOpen_three hx⟩
  · rw [ofByte_four hx]
    exact .inr ⟨text, _, rfl, hdone, isOpen_four hx⟩
  · rw [hstray]
    exact .inl List.mem_cons_self

theorem none_mem_lead {done : List (Option Char)} (h : none ∈ done) (b : UInt8) :
    none ∈ (Reader.lead done b).done := by
  unfold Reader.lead
  split
  next => exact List.mem_cons_of_mem _ h
  next => exact h
  next => exact List.mem_cons_of_mem _ h

/-- An error that was met stays. -/
theorem none_mem_push {r : Reader} (h : none ∈ r.done) (b : UInt8) : none ∈ (r.push b).done := by
  unfold Reader.push
  split
  next => exact none_mem_lead h b
  next =>
    split
    next =>
      split
      next => exact List.mem_cons_of_mem _ h
      next => exact h
    next => exact none_mem_lead (List.mem_cons_of_mem _ h) b

/-- A reader that has met no error has read what it was given, byte by byte. -/
theorem Reader.HasRead.push {r : Reader} {bytes : List UInt8} (h : r.HasRead bytes) (b : UInt8) :
    none ∈ (r.push b).done ∨ (r.push b).HasRead (bytes ++ [b]) := by
  obtain ⟨awaiting, done⟩ := r
  cases awaiting with
  | none => exact h.lead b
  | some a =>
    obtain ⟨text, started, rfl, hdone, hopen⟩ := h
    obtain ⟨more, low, high, bits⟩ := a
    simp only [Reader.push]
    split
    next hrange =>
      right
      cases more with
      | zero =>
        have hchar := hopen _ _ (.last hrange.1 hrange.2)
        refine ⟨text ++ [Char.ofNat (bits * 64 + (b.toNat - 0x80))], [], ?_, ?_, rfl⟩
        · simp [hchar]
        · have hdone' : done = (text.map some).reverse := hdone
          simp [hdone']
      | succ more =>
        refine ⟨text, started ++ [b], by simp, hdone, ?_⟩
        intro rest n hrest
        have hchar := hopen _ _ (.later hrange.1 hrange.2 hrest)
        rw [hchar, List.append_assoc, List.singleton_append]
    next => exact .inl (none_mem_lead List.mem_cons_self b)

theorem none_mem_or_hasRead (bytes : List UInt8) :
    none ∈ (bytes.foldl Reader.push .start).done ∨
      (bytes.foldl Reader.push .start).HasRead bytes := by
  induction bytes using List.reverseRecOn with
  | nil => exact .inr ⟨[], [], rfl, rfl, rfl⟩
  | append_singleton bytes b ih =>
    rw [List.foldl_append]
    rcases ih with hnone | hread
    · exact .inl (none_mem_push hnone b)
    · exact hread.push b

theorem eq_map_some_of_mapM {items : List (Option Char)} {text : List Char}
    (h : items.mapM id = some text) : items = text.map some := by
  induction items generalizing text with
  | nil =>
    cases h
    rfl
  | cons item rest ih =>
    rw [List.mapM_cons] at h
    obtain ⟨c, hc, h⟩ := Option.bind_eq_some_iff.1 h
    obtain ⟨others, hothers, h⟩ := Option.bind_eq_some_iff.1 h
    cases h
    rw [List.map_cons, ← ih hothers]
    exact congrArg (· :: rest) hc

/-- Only the bytes of a text read as the text. -/
theorem decode?_eq_some_iff {bytes : List UInt8} {text : String} :
    decode? bytes = some text ↔ encode text = bytes := by
  constructor
  · intro h
    obtain ⟨read, hread, rfl⟩ := Option.map_eq_some_iff.1 h
    have hitems : scan bytes = read.map some := eq_map_some_of_mapM hread
    have hwhole : none ∉ scan bytes := by simp [hitems]
    have hcases := none_mem_or_hasRead bytes
    rw [scan] at hitems hwhole
    generalize bytes.foldl Reader.push .start = r at hitems hwhole hcases
    obtain ⟨awaiting, done⟩ := r
    cases awaiting with
    | some a => exact absurd (by simp [Reader.finish]) hwhole
    | none =>
      have hdone : done.reverse = read.map some := hitems
      rcases hcases with hnone | ⟨chars, started, hbytes, hchars, hopen⟩
      · exact absurd (List.mem_reverse.2 hnone) hwhole
      · have hsame : chars = read := by
          have hchars' : done = (chars.map some).reverse := hchars
          rw [hchars', List.reverse_reverse] at hdone
          exact (List.map_inj_right fun _ _ => Option.some.inj).1 hdone
        rw [encode_eq, String.toList_ofList, hbytes, hsame, hopen, List.append_nil]
  · rintro rfl
    exact decode?_encode text

end MediaTransport.Text.Utf8
