import MediaTransport.Bytes.Chunks
import MediaTransport.Bytes.NetworkOrder
import Mathlib.Algebra.BigOperators.Group.List.Basic

/-!
# Words and chunks

*Words.*  A fact about single bytes is one about all numbers of eight bits
(`forall_byte`).  Reading the bytes of a word gives the word back
(`toUInt16_ofUInt16`, `toUInt32_ofUInt32`).  Both facts are arithmetic once the
value that is read is written as a sum (`toNat_toUInt16`, `toNat_toUInt32`).

*Chunks.*  `chunks` accumulates its result.  `chunks_cons` restates it as a
plain recursion, and `chunks_induction` is the induction that goes with it.  The
chunks of a list concatenate to the list (`chunks_flatten`), each of them starts at a
multiple of the size (`length_flatten_take_chunks`), all but the last are full
(`length_of_getElem?_chunks`), and when the list and the size are multiples of a unit, so is
every chunk (`dvd_length_of_mem_chunks`).  A list behind full chunks is cut on its own
(`chunks_append`).
-/

namespace MediaTransport.Bytes

/-! ## Words -/

/-- What holds of all numbers of eight bits holds of a byte. -/
theorem forall_byte {P : UInt8 → Prop} (h : ∀ n < 256, P (UInt8.ofNat n)) (b : UInt8) : P b := by
  simpa using h b.toNat b.toNat_lt

/-- Bits below a shifted number are added to it. -/
theorem shifted_or {i b : Nat} (a : Nat) (h : b < 2 ^ i) : a * 2 ^ i ||| b = a * 2 ^ i + b := by
  rw [Nat.mul_comm a, ← Nat.two_pow_add_eq_or_of_lt h]

/-- The value of two bytes. -/
theorem toNat_toUInt16 (a b : UInt8) : (toUInt16 a b).toNat = a.toNat * 2 ^ 8 + b.toNat := by
  have ha := a.toNat_lt
  have hb := b.toNat_lt
  simp only [toUInt16, UInt16.toNat_or, UInt16.toNat_shiftLeft, UInt8.toNat_toUInt16,
    UInt16.toNat_ofNat, Nat.shiftLeft_eq]
  rw [show 8 % 2 ^ 16 % 16 = 8 from rfl, Nat.mod_eq_of_lt (by omega), shifted_or _ hb]

/-- The value of four bytes. -/
theorem toNat_toUInt32 (a b c d : UInt8) : (toUInt32 a b c d).toNat
    = a.toNat * 2 ^ 24 + b.toNat * 2 ^ 16 + c.toNat * 2 ^ 8 + d.toNat := by
  have ha := a.toNat_lt
  have hb := b.toNat_lt
  have hc := c.toNat_lt
  have hd := d.toNat_lt
  simp only [toUInt32, UInt32.toNat_or, UInt32.toNat_shiftLeft, UInt8.toNat_toUInt32,
    UInt32.toNat_ofNat, Nat.shiftLeft_eq]
  rw [show 24 % 2 ^ 32 % 32 = 24 from rfl, show 16 % 2 ^ 32 % 32 = 16 from rfl,
    show 8 % 2 ^ 32 % 32 = 8 from rfl, Nat.mod_eq_of_lt (by omega), Nat.mod_eq_of_lt (by omega),
    Nat.mod_eq_of_lt (by omega)]
  have hab : a.toNat * 2 ^ 24 ||| b.toNat * 2 ^ 16 = (a.toNat * 2 ^ 8 + b.toNat) * 2 ^ 16 := by
    rw [shifted_or _ (by omega)]
    omega
  have habc : (a.toNat * 2 ^ 8 + b.toNat) * 2 ^ 16 ||| c.toNat * 2 ^ 8
      = ((a.toNat * 2 ^ 8 + b.toNat) * 2 ^ 8 + c.toNat) * 2 ^ 8 := by
    rw [shifted_or _ (by omega)]
    omega
  rw [hab, habc, shifted_or _ hd]
  omega

/-- A word of sixteen bits reads back. -/
@[simp] theorem toUInt16_ofUInt16 (n : UInt16) : toUInt16 (n >>> 8).toUInt8 n.toUInt8 = n := by
  apply UInt16.toNat_inj.mp
  have := n.toNat_lt
  rw [toNat_toUInt16]
  simp only [UInt16.toNat_toUInt8, UInt16.toNat_shiftRight, UInt16.toNat_ofNat,
    Nat.shiftRight_eq_div_pow]
  rw [show 8 % 2 ^ 16 % 16 = 8 from rfl]
  omega

/-- A word of thirty-two bits reads back. -/
@[simp] theorem toUInt32_ofUInt32 (n : UInt32) :
    toUInt32 (n >>> 24).toUInt8 (n >>> 16).toUInt8 (n >>> 8).toUInt8 n.toUInt8 = n := by
  apply UInt32.toNat_inj.mp
  have := n.toNat_lt
  rw [toNat_toUInt32]
  simp only [UInt32.toNat_toUInt8, UInt32.toNat_shiftRight, UInt32.toNat_ofNat,
    Nat.shiftRight_eq_div_pow]
  rw [show 24 % 2 ^ 32 % 32 = 24 from rfl, show 16 % 2 ^ 32 % 32 = 16 from rfl,
    show 8 % 2 ^ 32 % 32 = 8 from rfl]
  omega

/-! ## Chunks -/

/-- The chunks cut off earliest stand in front. -/
theorem chunksOnto_append (size : Nat) (newer older : List (List α)) (items : List α) :
    chunksOnto size (newer ++ older) items = older.reverse ++ chunksOnto size newer items := by
  fun_induction chunksOnto size newer items with
  | case1 newer items h =>
    rw [chunksOnto, dif_pos h, List.reverse_append]
  | case2 newer items h ih =>
    rw [chunksOnto, dif_neg h]
    exact ih

@[simp] theorem chunks_nil (size : Nat) : chunks size ([] : List α) = [] := by
  rw [chunks, chunksOnto, dif_pos (Or.inr rfl)]
  rfl

/-- A list that is not empty is cut after the first chunk. -/
theorem chunks_cons {size : Nat} {items : List α} (hsize : 0 < size) (hitems : items ≠ []) :
    chunks size items = items.take size :: chunks size (items.drop size) := by
  have h : ¬(size = 0 ∨ items = []) := not_or.mpr ⟨by omega, hitems⟩
  rw [chunks, chunksOnto, dif_neg h, ← List.nil_append [items.take size], chunksOnto_append]
  rfl

/-- Induction along the cuts. -/
theorem chunks_induction {motive : List α → Prop} {size : Nat} (hsize : 0 < size)
    (nil : motive [])
    (cut : ∀ items, items ≠ [] → motive (items.drop size) → motive items) :
    ∀ items, motive items := by
  intro items
  induction hn : items.length using Nat.strongRecOn generalizing items with
  | ind n ih =>
    by_cases hitems : items = []
    · rw [hitems]
      exact nil
    · have hpos : 0 < items.length := List.length_pos_iff.mpr hitems
      exact cut items hitems (ih _ (by rw [List.length_drop]; omega) _ rfl)

/-- The chunks concatenate to the list. -/
theorem chunks_flatten {size : Nat} (hsize : 0 < size) (items : List α) :
    (chunks size items).flatten = items := by
  induction items using chunks_induction hsize with
  | nil => simp
  | cut items hitems ih =>
    rw [chunks_cons hsize hitems, List.flatten_cons, ih, List.take_append_drop]

/-- A chunk that is not the first starts behind full ones. -/
theorem length_flatten_take_chunks {size : Nat} (hsize : 0 < size) {items : List α} {i : Nat}
    (hi : i < (chunks size items).length) :
    ((chunks size items).take i).flatten.length = i * size := by
  induction items using chunks_induction hsize generalizing i with
  | nil => simp at hi
  | cut items hitems ih =>
    rw [chunks_cons hsize hitems] at hi ⊢
    cases i with
    | zero => simp
    | succ i =>
      rw [List.length_cons, Nat.add_lt_add_iff_right] at hi
      -- Something is left for the later chunk, so the first one is full.
      have hmore : size < items.length := by
        by_contra hle
        rw [List.drop_of_length_le (by omega), chunks_nil] at hi
        cases hi
      rw [List.take_succ_cons, List.flatten_cons, List.length_append, ih hi, List.length_take,
        Nat.min_eq_left (Nat.le_of_lt hmore), Nat.succ_mul, Nat.add_comm]

/-- No chunk is empty, and none is larger than the size. -/
theorem length_of_mem_chunks {size : Nat} (hsize : 0 < size) {items chunk : List α}
    (h : chunk ∈ chunks size items) : 0 < chunk.length ∧ chunk.length ≤ size := by
  induction items using chunks_induction hsize with
  | nil => simp at h
  | cut items hitems ih =>
    rw [chunks_cons hsize hitems] at h
    rcases List.mem_cons.mp h with rfl | h
    · have hpos : 0 < items.length := List.length_pos_iff.mpr hitems
      rw [List.length_take]
      omega
    · exact ih h

/-- A chunk that is not the last is full, since the one behind it starts a whole size later. -/
theorem length_of_getElem?_chunks {size : Nat} (hsize : 0 < size) {items chunk : List α} {i : Nat}
    (h : (chunks size items)[i]? = some chunk) (hmore : i + 1 < (chunks size items).length) :
    chunk.length = size := by
  have hstart := length_flatten_take_chunks hsize (Nat.lt_of_succ_lt hmore)
  have hnext := length_flatten_take_chunks hsize hmore
  rw [List.take_add_one, h, List.flatten_append, List.length_append, hstart, Nat.succ_mul] at hnext
  simpa using hnext

/-- Behind full chunks the cuts start anew. -/
theorem chunks_append {size : Nat} (hsize : 0 < size) {items : List α} (h : size ∣ items.length)
    (more : List α) : chunks size (items ++ more) = chunks size items ++ chunks size more := by
  induction items using chunks_induction hsize with
  | nil => simp
  | cut items hitems ih =>
    have hfull : size ≤ items.length := Nat.le_of_dvd (List.length_pos_iff.mpr hitems) h
    have hrest : size ∣ (items.drop size).length := by
      rw [List.length_drop]
      exact Nat.dvd_sub h (Nat.dvd_refl size)
    have hne : items ++ more ≠ [] := List.append_ne_nil_of_left_ne_nil hitems more
    rw [chunks_cons hsize hne, chunks_cons hsize hitems, List.take_append_of_le_length hfull,
      List.drop_append_of_le_length hfull, ih hrest]
    rfl

/-- When the size and the list are multiples of a unit, so is every chunk. -/
theorem dvd_length_of_mem_chunks {size unit : Nat} (hsize : 0 < size) (hunit : unit ∣ size)
    {items chunk : List α} (hitems : unit ∣ items.length) (h : chunk ∈ chunks size items) :
    unit ∣ chunk.length := by
  induction items using chunks_induction hsize with
  | nil => simp at h
  | cut items hne ih =>
    rw [chunks_cons hsize hne] at h
    rcases List.mem_cons.mp h with rfl | h
    · rw [List.length_take]
      rcases Nat.le_total size items.length with hle | hle
      · rwa [Nat.min_eq_left hle]
      · rwa [Nat.min_eq_right hle]
    · apply ih _ h
      rw [List.length_drop]
      exact Nat.dvd_sub hitems hunit

end MediaTransport.Bytes
