import Mathlib.Order.Bounds.Basic
import MediaTransport.Proofs.Bytes
import MediaTransport.Varint

/-!
# Reading a written number

A word shifted to the right is a quotient (`toNat_shiftedRight`), so the writer stops at the
least number of groups that hold the number (`isLeast_encodedLength`).  The reader takes the
groups one by one, and each of them multiplies what has been read by 128 and adds its seven
bits (`decodeFrom?_cons`).  The last groups of a number continue what is left of it without
them (`decodeFrom?_lastGroups`).  So a written number reads back with exactly the bytes that
were written for it, whatever stands before and behind them, and a row of written numbers
reads back in one way only (`append_readsBack`).
-/

namespace MediaTransport.Varint

open Bytes

/-! ## The number of groups -/

theorem toNat_shiftRight (value : UInt64) {bits : ℕ} (h : bits < 64) :
    (value >>> UInt64.ofNat bits).toNat = value.toNat / 2 ^ bits := by
  have hamount : (UInt64.ofNat bits).toNat % 64 = bits := by
    rw [UInt64.toNat_ofNat_of_lt' (Nat.lt_trans h (by decide)), Nat.mod_eq_of_lt h]
  rw [UInt64.toNat_shiftRight, hamount, Nat.shiftRight_eq_div_pow]

/-- A shift by any number of bits divides, also one that shifts out the whole word. -/
theorem toNat_shiftedRight (value : UInt64) (bits : ℕ) :
    (shiftedRight value bits).toNat = value.toNat / 2 ^ bits := by
  rw [shiftedRight]
  split
  next hbits => exact toNat_shiftRight value hbits
  next hbits =>
    have hvalue : value.toNat < 2 ^ bits :=
      Nat.lt_of_lt_of_le value.toNat_lt (Nat.pow_le_pow_right (by decide) (by omega))
    rw [Nat.div_eq_of_lt hvalue]
    rfl

/-- Nothing is left of a value when it fits in the bits that are shifted out. -/
theorem shiftedRight_eq_zero_iff {value : UInt64} {bits : ℕ} :
    shiftedRight value bits = 0 ↔ value.toNat < 2 ^ bits := by
  rw [← UInt64.toNat_inj, toNat_shiftedRight, UInt64.toNat_zero,
    Nat.div_eq_zero_iff_lt (Nat.two_pow_pos bits)]

/-- The search stops at the first number of groups that hold the word. -/
theorem isLeast_lengthFrom (value : UInt64) (length : ℕ) :
    IsLeast {n | length ≤ n ∧ value.toNat < 2 ^ (7 * n)} (lengthFrom value length) := by
  fun_induction lengthFrom value length with
  | case1 length hmore ih =>
    obtain ⟨⟨hle, hholds⟩, hleast⟩ := ih
    have hshort : ¬ value.toNat < 2 ^ (7 * length) := mt shiftedRight_eq_zero_iff.2 hmore
    refine ⟨⟨by omega, hholds⟩, ?_⟩
    rintro n ⟨hn, hvalue⟩
    apply hleast
    refine ⟨Nat.lt_of_le_of_ne hn ?_, hvalue⟩
    rintro rfl
    exact hshort hvalue
  | case2 length hdone =>
    exact ⟨⟨le_rfl, shiftedRight_eq_zero_iff.1 (not_not.1 hdone)⟩, fun n hn => hn.1⟩

/-- The writer uses the fewest groups that hold the number, and at least one. -/
theorem isLeast_encodedLength (value : UInt64) :
    IsLeast {length | 1 ≤ length ∧ value.toNat < 2 ^ (7 * length)} (encodedLength value) :=
  isLeast_lengthFrom value 1

theorem encodedLength_pos (value : UInt64) : 0 < encodedLength value :=
  (isLeast_encodedLength value).1.1

/-- A value fits in the groups that it is written in. -/
theorem lt_pow_encodedLength (value : UInt64) : value.toNat < 2 ^ (7 * encodedLength value) :=
  (isLeast_encodedLength value).1.2

theorem encodedLength_le (value : UInt64) : encodedLength value ≤ maxLength := by
  apply (isLeast_encodedLength value).2
  exact ⟨by decide, Nat.lt_trans value.toNat_lt (by decide)⟩

/-! ## Groups -/

/-- A group with the top bit set in front of it. -/
theorem marked_masks (b : UInt8) : ((b &&& 0x7F) ||| 0x80) &&& 0x80 ≠ 0 ∧
    (((b &&& 0x7F) ||| 0x80) &&& 0x7F).toNat = b.toNat % 128 :=
  forall_byte (P := fun b => ((b &&& 0x7F) ||| 0x80) &&& 0x80 ≠ 0 ∧
    (((b &&& 0x7F) ||| 0x80) &&& 0x7F).toNat = b.toNat % 128) (by decide +kernel) b

/-- A group on its own. -/
theorem group_masks (b : UInt8) : (b &&& 0x7F) &&& 0x80 = 0 ∧
    ((b &&& 0x7F) &&& 0x7F).toNat = b.toNat % 128 :=
  forall_byte (P := fun b => (b &&& 0x7F) &&& 0x80 = 0 ∧
    ((b &&& 0x7F) &&& 0x7F).toNat = b.toNat % 128) (by decide +kernel) b

/-- The byte of a group holds it, and its top bit is clear only in the last one. -/
theorem groupByte_masks (value : UInt64) {behind : ℕ} (h : behind < maxLength) :
    (groupByte value behind &&& 0x80 = 0 ↔ behind = 0) ∧
      (groupByte value behind &&& 0x7F).toNat = value.toNat / 2 ^ (7 * behind) % 128 := by
  have hamount : 7 * behind < 64 := by
    rw [maxLength] at h
    omega
  have hgroup : (value >>> UInt64.ofNat (7 * behind)).toUInt8.toNat % 128
      = value.toNat / 2 ^ (7 * behind) % 128 := by
    rw [UInt64.toNat_toUInt8, toNat_shiftRight value hamount]
    exact Nat.mod_mod_of_dvd _ (by decide)
  rw [groupByte, ← hgroup]
  split
  next hmore =>
    obtain ⟨hmarked, hbits⟩ := marked_masks (value >>> UInt64.ofNat (7 * behind)).toUInt8
    exact ⟨iff_of_false hmarked (by omega), hbits⟩
  next hlast =>
    obtain ⟨hclear, hbits⟩ := group_masks (value >>> UInt64.ofNat (7 * behind)).toUInt8
    exact ⟨iff_of_true hclear (by omega), hbits⟩

/-- The bytes of the last groups of a word. -/
def lastGroups (value : UInt64) (count : ℕ) : List UInt8 :=
  (List.range count).reverse.map (groupByte value)

/-- One more group stands in front of the others. -/
theorem lastGroups_succ (value : UInt64) (count : ℕ) :
    lastGroups value (count + 1) = groupByte value count :: lastGroups value count := by
  simp [lastGroups, List.range_succ]

/-- The writer puts bytes behind what is there. -/
theorem append_eq (out : List UInt8) (value : UInt64) :
    append out value = out ++ lastGroups value (encodedLength value) := by
  rw [append, List.foldl_append_eq_append, lastGroups, ← List.flatMap_def, List.map_eq_flatMap]

/-- A value is written as its last groups, as many as it needs. -/
theorem encode_eq (value : UInt64) : encode value = lastGroups value (encodedLength value) :=
  append_eq [] value

theorem length_encode (value : UInt64) : (encode value).length = encodedLength value := by
  simp [encode_eq, lastGroups]

theorem encode_ne_nil (value : UInt64) : encode value ≠ [] := by
  rw [← List.length_pos_iff, length_encode]
  exact encodedLength_pos value

/-! ## Reading -/

/-- A word whose upper bits are clear has room for seven more. -/
theorem hasRoom_iff {value : UInt64} : value >>> 57 = 0 ↔ value.toNat < 2 ^ 57 := by
  rw [← UInt64.toNat_inj, UInt64.toNat_shiftRight, Nat.shiftRight_eq_div_pow, UInt64.toNat_zero,
    show UInt64.toNat 57 % 64 = 57 from rfl, Nat.div_eq_zero_iff_lt (by decide)]

/-- No bit is shifted out of it. -/
theorem toNat_shiftLeft {value : UInt64} (h : value.toNat < 2 ^ 57) :
    (value <<< 7).toNat = value.toNat * 2 ^ 7 := by
  rw [UInt64.toNat_shiftLeft, Nat.shiftLeft_eq, show UInt64.toNat 7 % 64 = 7 from rfl]
  exact Nat.mod_eq_of_lt (by omega)

/-- A value with seven more bits. -/
theorem toNat_extended {value : UInt64} (h : value.toNat < 2 ^ 57) (b : UInt8) :
    ((value <<< 7) ||| (b &&& 0x7F).toUInt64).toNat
      = value.toNat * 128 + (b &&& 0x7F).toNat := by
  have hgroup : (b &&& 0x7F).toNat < 2 ^ 7 := by
    rw [UInt8.toNat_and]
    exact Nat.lt_of_le_of_lt Nat.and_le_right (by decide)
  rw [UInt64.toNat_or, toNat_shiftLeft h, UInt8.toNat_toUInt64, shifted_or _ hgroup]
  rfl

/-- A byte adds its seven bits, and the top bit says whether it is the last one. -/
theorem decodeFrom?_cons {n used : ℕ} (hn : n < 2 ^ 57) (hused : used < maxLength) (b : UInt8)
    (rest : List UInt8) :
    decodeFrom? (UInt64.ofNat n) used (b :: rest)
      = if b &&& 0x80 = 0 then some (UInt64.ofNat (n * 128 + (b &&& 0x7F).toNat), used + 1)
        else decodeFrom? (UInt64.ofNat (n * 128 + (b &&& 0x7F).toNat)) (used + 1) rest := by
  have hvalue : (UInt64.ofNat n).toNat = n :=
    UInt64.toNat_ofNat_of_lt' (Nat.lt_trans hn (by decide))
  have hfits : (UInt64.ofNat n).toNat < 2 ^ 57 := by
    rw [hvalue]
    exact hn
  have haccepted : ¬(used ≥ maxLength ∨ UInt64.ofNat n >>> 57 ≠ 0) := by
    rintro (hfull | hlarge)
    · exact absurd hused (Nat.not_lt.2 hfull)
    · exact hlarge (hasRoom_iff.2 hfits)
  have hextended : (UInt64.ofNat n <<< 7) ||| (b &&& 0x7F).toUInt64
      = UInt64.ofNat (n * 128 + (b &&& 0x7F).toNat) := by
    rw [← UInt64.ofNat_toNat (x := _ ||| _), toNat_extended hfits, hvalue]
  rw [decodeFrom?, if_neg haccepted, hextended]

/-- What is left of a word without its last groups is continued by them to the word. -/
theorem decodeFrom?_lastGroups (value : UInt64) {count used : ℕ} (hcount : 0 < count)
    (hroom : used + count ≤ maxLength) (rest : List UInt8) :
    decodeFrom? (UInt64.ofNat (value.toNat / 2 ^ (7 * count))) used
      (lastGroups value count ++ rest) = some (value, used + count) := by
  induction count generalizing used with
  | zero => exact absurd hcount (Nat.lt_irrefl 0)
  | succ count ih =>
    have hvalue := value.toNat_lt
    have hle : value.toNat / 2 ^ (7 * count) ≤ value.toNat := Nat.div_le_self _ _
    have hfront : value.toNat / 2 ^ (7 * (count + 1)) = value.toNat / 2 ^ (7 * count) / 128 := by
      rw [Nat.div_div_eq_div_mul, Nat.mul_succ, Nat.pow_add]
    have hsum : value.toNat / 2 ^ (7 * count) / 128 * 128 + value.toNat / 2 ^ (7 * count) % 128
        = value.toNat / 2 ^ (7 * count) := Nat.div_add_mod' _ _
    have hbehind : count < maxLength := by omega
    obtain ⟨htop, hgroup⟩ := groupByte_masks value hbehind
    rw [hfront, lastGroups_succ, List.cons_append, decodeFrom?_cons (by omega) (by omega), hgroup,
      hsum]
    split
    next hlast =>
      obtain rfl := htop.1 hlast
      simp
    next hmore =>
      have hpos : 0 < count := Nat.pos_of_ne_zero (mt htop.2 hmore)
      rw [ih hpos (by omega), Nat.add_right_comm, Nat.add_assoc]

/-- A written number reads back, whatever follows it. -/
theorem decode?_encode (value : UInt64) (rest : List UInt8) :
    decode? (encode value ++ rest) = some (value, (encode value).length) := by
  have hroom : 0 + encodedLength value ≤ maxLength := by
    rw [Nat.zero_add]
    exact encodedLength_le value
  have hread := decodeFrom?_lastGroups value (encodedLength_pos value) hroom rest
  rw [Nat.div_eq_of_lt (lt_pow_encodedLength value), Nat.zero_add] at hread
  rw [length_encode, encode_eq]
  exact hread

/-! ## Rows of numbers -/

/-- The numbers that are read off some bytes one after another, until no byte is left. -/
inductive Decodes : List UInt8 → List UInt64 → Prop where
  | nil : Decodes [] []
  | cons {bytes : List UInt8} {value : UInt64} {used : ℕ} {values : List UInt64}
      (hfirst : decode? bytes = some (value, used)) (hrest : Decodes (bytes.drop used) values) :
      Decodes bytes (value :: values)

/-- A row of written numbers is read as these numbers and no others. -/
theorem decodes_flatMap_encode {values others : List UInt64} :
    Decodes (values.flatMap encode) others ↔ others = values := by
  induction values generalizing others with
  | nil =>
    constructor
    · intro h
      cases h with
      | nil => rfl
      | cons hfirst => cases hfirst
    · rintro rfl
      exact .nil
  | cons value values ih =>
    have hfirst := decode?_encode value (values.flatMap encode)
    rw [List.flatMap_cons]
    constructor
    · intro h
      generalize hbytes : encode value ++ values.flatMap encode = bytes at h hfirst
      cases h with
      | nil => exact absurd hbytes (by simp [encode_ne_nil])
      | cons hread hrest =>
        rw [hfirst] at hread
        cases hread
        rw [← hbytes, List.drop_left] at hrest
        rw [ih.1 hrest]
    · rintro rfl
      refine .cons hfirst ?_
      rw [List.drop_left]
      exact ih.2 rfl

/-- Writing a number only puts bytes behind what is there, the fewest that can hold it in groups of
seven bits, and reading takes just these bytes off again.  So a row of written numbers is read as
these numbers and no others. -/
theorem append_readsBack :
    (∀ (value : UInt64) (out suffix : List UInt8),
      append out value = out ++ encode value ∧
      (encode value).length = encodedLength value ∧
      IsLeast {length | 1 ≤ length ∧ value.toNat < 2 ^ (7 * length)} (encodedLength value) ∧
      encodedLength value ≤ 10 ∧
      decode? (encode value ++ suffix) = some (value, encodedLength value)) ∧
    ∀ values others : List UInt64, Decodes (values.flatMap encode) others ↔ others = values := by
  constructor
  · intro value out suffix
    have hread := decode?_encode value suffix
    rw [length_encode] at hread
    have happend : append out value = out ++ encode value := by
      rw [append_eq, encode_eq]
    exact ⟨happend, length_encode value, isLeast_encodedLength value, encodedLength_le value, hread⟩
  · intro values others
    exact decodes_flatMap_encode

example : encode 300 = [0x82, 0x2C] := by
  decide +kernel

end MediaTransport.Varint
