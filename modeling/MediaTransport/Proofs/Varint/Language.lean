import Mathlib.Data.Nat.Digits.Defs
import MediaTransport.Proofs.Varint

/-!
# The numbers that are read

Some bytes *start with* a number when it stands there in groups of seven bits, the most
significant first, and fits in a word (`StartsWith`).  It may have groups in front that are zero,
as long as there are no more than ten groups in all.

The reader looks at the word before it shifts it.  So the word is the number of the bytes that
have been taken (`Reads.toNat_eq`), no bit is shifted out of it (`toNat_shiftLeft`), and a number
is refused just when no way to go on makes it fit (`decodeFrom?_eq_some_iff`).  Together, what is
read is exactly what the bytes start with (`decode?_language`).
-/

namespace MediaTransport.Varint

open Bytes

/-! ## Numbers -/

/-- The number whose groups of seven bits stand in some bytes, the most significant first. -/
def number (bytes : List UInt8) : ℕ :=
  Nat.ofDigits 128 (bytes.reverse.map fun b => b.toNat % 2 ^ 7)

/-- The bytes behind weigh the ones before them by a power of 128 each. -/
theorem number_append (bytes more : List UInt8) :
    number (bytes ++ more) = number more + 128 ^ more.length * number bytes := by
  simp [number, Nat.ofDigits_append]

theorem number_concat (bytes : List UInt8) (b : UInt8) :
    number (bytes ++ [b]) = number bytes * 128 + b.toNat % 2 ^ 7 := by
  rw [number_append]
  simp [number]
  omega

/-- Every further group makes a number 128 times as large at least. -/
theorem number_mul_le {more : List UInt8} (hmore : more ≠ []) (bytes : List UInt8) :
    number bytes * 128 ≤ number (bytes ++ more) := by
  obtain ⟨b, rest, rfl⟩ := List.exists_cons_of_ne_nil hmore
  have hpow : 128 ≤ 128 ^ (b :: rest).length := Nat.le_self_pow (by simp) 128
  have hle := Nat.mul_le_mul_right (number bytes) hpow
  rw [number_append]
  omega

/-! ## What bytes start with -/

/-- Some bytes start with a number that takes a number of them. -/
structure StartsWith (bytes : List UInt8) (n used : ℕ) : Prop where
  /-- It takes one byte at least. -/
  pos : 1 ≤ used
  /-- It takes ten at most. -/
  le : used ≤ 10
  /-- They are there. -/
  length : used ≤ bytes.length
  /-- The top bit is set in all of them but the last one. -/
  lead : ∀ b ∈ bytes.take (used - 1), b.toNat.testBit 7 = true
  /-- It is clear in the last one. -/
  last : ∀ b ∈ bytes[used - 1]?, b.toNat.testBit 7 = false
  /-- Their other bits are the number. -/
  value : number (bytes.take used) = n
  /-- It fits in a word. -/
  fits : n < 2 ^ 64

/-- Bytes that have been taken and others that follow make a number, which takes a number of
bytes in all. -/
inductive Continues : (taken rest : List UInt8) → (n used : ℕ) → Prop where
  | last {taken rest : List UInt8} {b : UInt8} (hlast : b.toNat.testBit 7 = false)
      (hroom : taken.length < maxLength) :
      Continues taken (b :: rest) (number (taken ++ [b])) (taken.length + 1)
  | more {taken rest : List UInt8} {b : UInt8} {n used : ℕ} (hmore : b.toNat.testBit 7 = true)
      (hrest : Continues (taken ++ [b]) rest n used) : Continues taken (b :: rest) n used

namespace Continues

variable {taken rest : List UInt8} {b : UInt8} {n used : ℕ}

/-- A byte without the top bit ends the encoding. -/
theorem cons_of_last (hlast : b.toNat.testBit 7 = false) :
    Continues taken (b :: rest) n used
      ↔ n = number (taken ++ [b]) ∧ used = taken.length + 1 ∧ taken.length < maxLength := by
  constructor
  · intro h
    cases h with
    | last _ hroom => exact ⟨rfl, rfl, hroom⟩
    | more hmore => exact absurd (hlast.symm.trans hmore) nofun
  · rintro ⟨rfl, rfl, hroom⟩
    exact .last hlast hroom

/-- A byte with the top bit belongs to the encoding, which goes on behind it. -/
theorem cons_of_more (hmore : b.toNat.testBit 7 = true) :
    Continues taken (b :: rest) n used ↔ Continues (taken ++ [b]) rest n used := by
  constructor
  · intro h
    cases h with
    | last hlast => exact absurd (hlast.symm.trans hmore) nofun
    | more _ hrest => exact hrest
  · exact .more hmore

/-- There is room for another byte. -/
theorem hasRoom (h : Continues taken rest n used) : taken.length < maxLength := by
  induction h with
  | last hlast hroom => exact hroom
  | more hmore hrest ih =>
    rw [List.length_append] at ih
    omega

/-- Another byte makes the number 128 times as large at least. -/
theorem number_mul_le (h : Continues taken rest n used) : number taken * 128 ≤ n := by
  induction h with
  | last hlast hroom => exact Varint.number_mul_le (List.cons_ne_nil _ []) _
  | @more taken rest b n used hmore hrest ih =>
    have hle := Varint.number_mul_le (List.cons_ne_nil b []) taken
    omega

/-- The bytes that follow are those of the number, the last of which is marked. -/
theorem exists_split (h : Continues taken rest n used) :
    ∃ (lead : List UInt8) (last : UInt8) (behind : List UInt8), rest = lead ++ last :: behind ∧
      (∀ b ∈ lead, b.toNat.testBit 7 = true) ∧ last.toNat.testBit 7 = false ∧
      used = taken.length + lead.length + 1 ∧ used ≤ maxLength ∧
      n = number (taken ++ (lead ++ [last])) := by
  induction h with
  | @last taken rest b hlast hroom =>
    exact ⟨[], b, rest, rfl, by simp, hlast, rfl, hroom, rfl⟩
  | @more taken rest b n used hmore hrest ih =>
    obtain ⟨lead, last, behind, rfl, hlead, hlast, hused, hle, hn⟩ := ih
    refine ⟨b :: lead, last, behind, rfl, List.forall_mem_cons.2 ⟨hmore, hlead⟩, hlast, ?_, hle, ?_⟩
    · rw [hused, List.length_append, List.length_singleton, List.length_cons]
      omega
    · rw [hn, List.append_assoc]
      rfl

/-- Any bytes with the top bit and one without it make an encoding, if there are not too many. -/
theorem of_split {lead : List UInt8} {last : UInt8} (hlead : ∀ b ∈ lead, b.toNat.testBit 7 = true)
    (hlast : last.toNat.testBit 7 = false) (hle : taken.length + lead.length + 1 ≤ maxLength)
    (behind : List UInt8) :
    Continues taken (lead ++ last :: behind) (number (taken ++ (lead ++ [last])))
      (taken.length + lead.length + 1) := by
  induction lead generalizing taken with
  | nil => exact .last hlast hle
  | cons b lead ih =>
    obtain ⟨hb, hmore⟩ := List.forall_mem_cons.1 hlead
    rw [List.length_cons] at hle
    have hrest := @ih (taken ++ [b]) hmore
    rw [List.length_append, List.length_singleton, List.append_assoc, Nat.add_right_comm _ 1,
      Nat.add_assoc _ _ 1] at hrest
    exact .more hb (hrest (by omega))

end Continues

/-- An encoding is one that continues from no bytes and stands for a number of 64 bits. -/
theorem startsWith_iff {bytes : List UInt8} {n used : ℕ} :
    StartsWith bytes n used ↔ Continues [] bytes n used ∧ n < 2 ^ 64 := by
  constructor
  · intro h
    obtain ⟨count, rfl⟩ := Nat.exists_eq_add_of_le' h.pos
    have hindex : count < bytes.length := h.length
    have hlast := h.last _ (List.getElem?_eq_getElem hindex)
    have hlength : (bytes.take count).length = count := List.length_take_of_le hindex.le
    have hsplit : bytes.take count ++ bytes[count] :: bytes.drop (count + 1) = bytes := by
      rw [List.getElem_cons_drop, List.take_append_drop]
    have hnumber : bytes.take count ++ [bytes[count]] = bytes.take (count + 1) :=
      List.take_concat_get' bytes count hindex
    have hle : ([] : List UInt8).length + (bytes.take count).length + 1 ≤ maxLength := by
      rw [hlength, List.length_nil, Nat.zero_add]
      exact h.le
    have hcontinues := Continues.of_split h.lead hlast hle (bytes.drop (count + 1))
    rw [Nat.add_sub_cancel, hsplit, List.nil_append, hnumber, h.value, hlength, List.length_nil,
      Nat.zero_add] at hcontinues
    exact ⟨hcontinues, h.fits⟩
  · rintro ⟨h, hfits⟩
    obtain ⟨lead, last, behind, rfl, hlead, hlast, rfl, hle, hn⟩ := h.exists_split
    have htake : (lead ++ last :: behind).take (lead.length + 1) = lead ++ [last] := by
      simp [List.take_append]
    rw [List.nil_append] at hn
    rw [List.length_nil, Nat.zero_add] at hle ⊢
    refine ⟨by omega, hle, by simp, ?_, ?_, ?_, hfits⟩
    · simpa using hlead
    · simpa using hlast
    · rw [htake, hn]

/-! ## Reading -/

section

variable (b : UInt8)

/-- The top bit of a byte says that another one follows. -/
theorem topBit_iff : b &&& 0x80 = 0 ↔ b.toNat.testBit 7 = false :=
  forall_byte (P := fun b => b &&& 0x80 = 0 ↔ b.toNat.testBit 7 = false) (by decide +kernel) b

theorem toNat_group : (b &&& 0x7F).toNat = b.toNat % 2 ^ 7 :=
  forall_byte (P := fun b => (b &&& 0x7F).toNat = b.toNat % 2 ^ 7) (by decide +kernel) b

end

/-- A number is read just when bytes that follow make one that fits in a word. -/
theorem decodeFrom?_eq_some_iff {taken rest : List UInt8} (htaken : number taken < 2 ^ 64)
    {value : UInt64} {used : ℕ} :
    decodeFrom? (UInt64.ofNat (number taken)) taken.length rest = some (value, used)
      ↔ Continues taken rest value.toNat used := by
  induction rest generalizing taken with
  | nil =>
    constructor
    · intro h
      cases h
    · intro h
      cases h
  | cons b rest ih =>
    by_cases hroom : number taken < 2 ^ 57 ∧ taken.length < maxLength
    · obtain ⟨hfits, hused⟩ := hroom
      have hnext : number (taken ++ [b]) < 2 ^ 64 := by
        rw [number_concat]
        omega
      have hlength : taken.length + 1 = (taken ++ [b]).length := by simp
      rw [decodeFrom?_cons hfits hused, toNat_group, ← number_concat]
      split
      next htop =>
        rw [topBit_iff] at htop
        rw [Continues.cons_of_last htop, Option.some.injEq, Prod.mk.injEq, ← UInt64.toNat_inj,
          UInt64.toNat_ofNat_of_lt' hnext]
        constructor
        · rintro ⟨hvalue, hcount⟩
          exact ⟨hvalue.symm, hcount.symm, hused⟩
        · rintro ⟨hvalue, hcount, -⟩
          exact ⟨hvalue.symm, hcount.symm⟩
      next htop =>
        rw [topBit_iff, Bool.not_eq_false] at htop
        rw [hlength, ih hnext, Continues.cons_of_more htop]
    · have hrefused : taken.length ≥ maxLength ∨ UInt64.ofNat (number taken) >>> 57 ≠ 0 := by
        rw [ne_eq, hasRoom_iff, UInt64.toNat_ofNat_of_lt' htaken]
        omega
      rw [decodeFrom?, if_pos hrefused]
      constructor
      · intro h
        cases h
      · intro h
        have hlength := h.hasRoom
        have hle := h.number_mul_le
        have hvalue := value.toNat_lt
        omega

/-- What the reader of some bytes holds when it has taken some of them and others follow. -/
inductive Reads (bytes : List UInt8) : (value : UInt64) → (taken rest : List UInt8) → Prop where
  | start : Reads bytes 0 [] bytes
  | next {value : UInt64} {taken rest : List UInt8} {b : UInt8}
      (h : Reads bytes value taken (b :: rest)) (hroom : taken.length < maxLength)
      (hfits : value >>> 57 = 0) (hmore : b &&& 0x80 ≠ 0) :
      Reads bytes ((value <<< 7) ||| (b &&& 0x7F).toUInt64) (taken ++ [b]) rest

namespace Reads

variable {bytes taken rest : List UInt8} {value : UInt64}

/-- The bytes are read just as the reader goes on. -/
theorem decode?_eq (h : Reads bytes value taken rest) :
    decode? bytes = decodeFrom? value taken.length rest := by
  induction h with
  | start => rfl
  | @next value taken rest b h hroom hfits hmore ih =>
    have haccepted : ¬(taken.length ≥ maxLength ∨ value >>> 57 ≠ 0) := by
      rintro (hfull | hlarge)
      · exact absurd hroom (Nat.not_lt.2 hfull)
      · exact hlarge hfits
    rw [ih, decodeFrom?, if_neg haccepted, if_neg hmore, List.length_append]
    rfl

/-- It holds the number of the bytes that it has taken. -/
theorem toNat_eq (h : Reads bytes value taken rest) : value.toNat = number taken := by
  induction h with
  | start => rfl
  | @next value taken rest b h hroom hfits hmore ih =>
    rw [toNat_extended (hasRoom_iff.1 hfits), toNat_group, number_concat, ih]

end Reads

/-- A number is read just when some bytes start with it, and otherwise nothing is.  Whatever the
reader holds, no bit is lost when it goes on to shift it. -/
theorem decode?_language (bytes : List UInt8) :
    (∀ (value : UInt64) (used : ℕ),
      decode? bytes = some (value, used) ↔ StartsWith bytes value.toNat used) ∧
    (decode? bytes = none ↔ ∀ n used, ¬ StartsWith bytes n used) ∧
    ∀ (value : UInt64) (taken rest : List UInt8), Reads bytes value taken rest →
      decode? bytes = decodeFrom? value taken.length rest ∧ value.toNat = number taken ∧
        (value >>> 57 = 0 → (value <<< 7).toNat = number taken * 2 ^ 7) := by
  have hread : ∀ (value : UInt64) (used : ℕ),
      decode? bytes = some (value, used) ↔ StartsWith bytes value.toNat used := by
    intro value used
    rw [startsWith_iff, and_iff_left value.toNat_lt]
    exact @decodeFrom?_eq_some_iff [] bytes (by decide) value used
  refine ⟨hread, ?_, ?_⟩
  · rw [Option.eq_none_iff_forall_ne_some]
    constructor
    · intro hnone n used h
      have hn : (UInt64.ofNat n).toNat = n := UInt64.toNat_ofNat_of_lt' h.fits
      rw [← hn, ← hread] at h
      exact hnone _ h
    · rintro hnone ⟨value, used⟩ h
      exact hnone _ _ ((hread value used).1 h)
  · intro value taken rest h
    refine ⟨h.decode?_eq, h.toNat_eq, ?_⟩
    intro hfits
    rw [toNat_shiftLeft (hasRoom_iff.1 hfits), h.toNat_eq]

/-- A number with a group in front that is zero, and a byte behind it. -/
theorem decode?_language_padded :
    StartsWith [0x80, 0x05, 0xFF] 5 2 ∧ Reads [0x80, 0x05, 0xFF] 0 [0x80] [0x05, 0xFF] ∧
      ((0 : UInt64) <<< 7).toNat = number [0x80] * 2 ^ 7 := by
  have hreads : Reads [0x80, 0x05, 0xFF] 0 [0x80] [0x05, 0xFF] :=
    .next .start (by decide) (by decide) (by decide)
  obtain ⟨hread, -, hshift⟩ := decode?_language [0x80, 0x05, 0xFF]
  exact ⟨(hread 5 2).1 (by decide +kernel), hreads, (hshift 0 [0x80] _ hreads).2.2 (by decide)⟩

end MediaTransport.Varint
