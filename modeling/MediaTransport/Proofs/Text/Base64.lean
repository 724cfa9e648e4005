import MediaTransport.Proofs.Text.Lines
import MediaTransport.Text.Base64

/-!
# Reading Base64

Sixty-four digits stand for six bits each (`value?_digit`).  Four of them hold the bits of three
bytes, and the two cuts of the same twenty-four bits are put together by arithmetic.  What is left
at the end, two bytes or one, is padded, and the bits under the padding are zero.

So the text that is written for some bytes stands for them (`decode?_encode`).  It has only digits
and padding (`mem_encode`), and hence no blanks.
-/

namespace MediaTransport.Text.Base64

/-! ## Digits -/

/-- The digits, by their values. -/
def alphabet : List Char :=
  "ABCDEFGHIJKLMNOPQRSTUVWXYZabcdefghijklmnopqrstuvwxyz0123456789+/".toList

theorem getElem?_alphabet {n : Nat} (h : n < 64) : alphabet[n]? = some (digit n) := by
  have hall : ∀ n < 64, alphabet[n]? = some (digit n) := by decide
  exact hall n h

theorem value?_digit {n : Nat} (h : n < 64) : value? (digit n) = some n := by
  have hall : ∀ n < 64, value? (digit n) = some n := by decide
  exact hall n h

theorem digit_ne_padding {n : Nat} (h : n < 64) : digit n ≠ '=' := by
  have hall : ∀ n < 64, digit n ≠ '=' := by decide
  exact hall n h

/-! ## Bytes -/

theorem ofNat_eq {n : Nat} {b : UInt8} (h : n % 256 = b.toNat) : UInt8.ofNat n = b := by
  rw [← UInt8.toNat_inj, UInt8.toNat_ofNat']
  exact h

/-- Three bytes come back from their digits. -/
theorem decode?_four {w x y z : Nat} (hw : w < 64) (hx : x < 64) (hy : y < 64) (hz : z < 64)
    (rest : List Char) :
    decode? (digit w :: digit x :: digit y :: digit z :: rest) = (decode? rest).map fun bytes =>
      UInt8.ofNat ((w * 262144 + x * 4096 + y * 64 + z) / 65536)
        :: UInt8.ofNat ((w * 262144 + x * 4096 + y * 64 + z) / 256)
        :: UInt8.ofNat (w * 262144 + x * 4096 + y * 64 + z) :: bytes := by
  have hpadding := digit_ne_padding hz
  rw [decode?]
  · simp only [value?_digit hw, value?_digit hx, value?_digit hy, value?_digit hz,
      Option.bind_eq_bind, Option.bind_some, Option.map_eq_bind]
    rfl
  · exact fun _ h => absurd h hpadding
  · exact fun h => absurd h hpadding

/-- Two bytes come back from their digits, when the last bits are zero. -/
theorem decode?_three {w x y : Nat} (hw : w < 64) (hx : x < 64) (hy : y < 64) :
    decode? [digit w, digit x, digit y, '='] = if (w * 4096 + x * 64 + y) % 4 = 0 then
      some [UInt8.ofNat ((w * 4096 + x * 64 + y) / 1024), UInt8.ofNat ((w * 4096 + x * 64 + y) / 4)]
      else none := by
  have hpadding := digit_ne_padding hy
  rw [decode?]
  · simp only [value?_digit hw, value?_digit hx, value?_digit hy, Option.bind_eq_bind,
      Option.bind_some]
  · exact fun h => absurd h hpadding

/-- One byte comes back from its digits, when the last bits are zero. -/
theorem decode?_two {w x : Nat} (hw : w < 64) (hx : x < 64) :
    decode? [digit w, digit x, '=', '='] = if (w * 64 + x) % 16 = 0 then
      some [UInt8.ofNat ((w * 64 + x) / 16)] else none := by
  rw [decode?]
  simp only [value?_digit hw, value?_digit hx, Option.bind_eq_bind, Option.bind_some]

/-! ## Round trip -/

/-- What is written reads back. -/
theorem decode?_encode (bytes : List UInt8) : decode? (encode bytes) = some bytes := by
  induction bytes using encode.induct with
  | case1 a b c rest ih =>
    have ha := a.toNat_lt
    have hb := b.toNat_lt
    have hc := c.toNat_lt
    rw [encode, decode?_four (by omega) (by omega) (by omega) (by omega), ih, Option.map_some,
      ofNat_eq (b := a) (by omega), ofNat_eq (b := b) (by omega), ofNat_eq (b := c) (by omega)]
  | case2 a b =>
    have ha := a.toNat_lt
    have hb := b.toNat_lt
    rw [encode, decode?_three (by omega) (by omega) (by omega), if_pos (by omega),
      ofNat_eq (b := a) (by omega), ofNat_eq (b := b) (by omega)]
  | case3 a =>
    have ha := a.toNat_lt
    rw [encode, decode?_two (by omega) (by omega), if_pos (by omega), ofNat_eq (b := a) (by omega)]
  | case4 => rfl

/-! ## Characters -/

theorem digit_mem {n : Nat} (h : n < 64) : digit n ∈ '=' :: alphabet :=
  List.mem_cons_of_mem '=' (List.mem_of_getElem? (getElem?_alphabet h))

/-- There are only digits and padding in what is written. -/
theorem mem_encode {bytes : List UInt8} {c : Char} (h : c ∈ encode bytes) :
    c ∈ '=' :: alphabet := by
  induction bytes using encode.induct with
  | case1 a b d rest ih =>
    have ha := a.toNat_lt
    have hb := b.toNat_lt
    have hd := d.toNat_lt
    simp only [encode, List.mem_cons] at h
    obtain rfl | rfl | rfl | rfl | h := h
    · exact digit_mem (by omega)
    · exact digit_mem (by omega)
    · exact digit_mem (by omega)
    · exact digit_mem (by omega)
    · exact ih h
  | case2 a b =>
    have ha := a.toNat_lt
    have hb := b.toNat_lt
    simp only [encode, List.mem_cons, List.not_mem_nil, or_false] at h
    obtain rfl | rfl | rfl | rfl := h
    · exact digit_mem (by omega)
    · exact digit_mem (by omega)
    · exact digit_mem (by omega)
    · exact List.mem_cons_self
  | case3 a =>
    have ha := a.toNat_lt
    simp only [encode, List.mem_cons, List.not_mem_nil, or_false] at h
    obtain rfl | rfl | rfl | rfl := h
    · exact digit_mem (by omega)
    · exact digit_mem (by omega)
    · exact List.mem_cons_self
    · exact List.mem_cons_self
  | case4 => cases h

theorem isBlank_of_mem_encode {bytes : List UInt8} {c : Char} (h : c ∈ encode bytes) :
    isBlank c = false := by
  have hword : IsWord ('=' :: alphabet) := by decide
  exact hword.solid c (mem_encode h)

end MediaTransport.Text.Base64
