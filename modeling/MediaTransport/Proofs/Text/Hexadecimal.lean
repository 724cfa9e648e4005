import MediaTransport.Proofs.Text.Numeral
import MediaTransport.Text.Blank
import Mathlib.Data.Nat.Digits.Defs
import Mathlib.Data.List.Forall2

/-!
# Hexadecimal numerals

A hexadecimal digit is written as the library's `Nat.digitChar` or as the upper case of
it (`IsHexDigit`).  Digits are read just when they stand for a number below the bound
(`readHexDigits?_eq_some_iff`), where `Nat.ofDigits` is the value.  A hexadecimal numeral
(`IsHex`) may have a plus sign in front, as a decimal one.

What is written reads back, in either case and with zeros in front
(`isHexDigits_toDigits`, `isHexDigits_hexUpper`).
-/

namespace MediaTransport.Text

/-! ## Digits -/

/-- A hexadecimal digit of a number, in either case. -/
def IsHexDigit (c : Char) (d : ℕ) : Prop :=
  d < 16 ∧ (c = d.digitChar ∨ c = d.digitChar.toUpper)

/-- One or more hexadecimal digits of a number, the most significant first. -/
structure IsHexDigits (text : List Char) (n : ℕ) : Prop where
  /-- There is a digit. -/
  ne_nil : text ≠ []
  /-- The digits stand for the number. -/
  value : ∃ digits, List.Forall₂ IsHexDigit text digits ∧ Nat.ofDigits 16 digits.reverse = n

/-- A text that denotes a number: its hexadecimal digits, with a plus sign in front or none. -/
inductive IsHex : List Char → ℕ → Prop where
  | unsigned {text : List Char} {n : ℕ} (h : IsHexDigits text n) : IsHex text n
  | signed {text : List Char} {n : ℕ} (h : IsHexDigits text n) : IsHex ('+' :: text) n

/-- A digit is one of ten figures or a letter. -/
theorem toNat_of_digitValue? {radix d : ℕ} {c : Char} (h : digitValue? radix c = some d) :
    d < radix ∧ (c.toNat = d + 48 ∧ d < 10 ∨ (c.toNat = d + 87 ∨ c.toNat = d + 55) ∧ 10 ≤ d) := by
  obtain ⟨hvalue, hlt⟩ := Option.filter_eq_some_iff.1 h
  refine ⟨of_decide_eq_true hlt, ?_⟩
  split at hvalue
  next hc =>
    have hlow : 48 ≤ c.toNat := hc.1
    have hhigh : c.toNat ≤ 57 := hc.2
    have hd : c.toNat - 48 = d := Option.some.inj hvalue
    omega
  next =>
    split at hvalue
    next hc =>
      have hlow : 97 ≤ c.toNat := hc.1
      have hd : c.toNat - 97 + 10 = d := Option.some.inj hvalue
      omega
    next =>
      split at hvalue
      next hc =>
        have hlow : 65 ≤ c.toNat := hc.1
        have hd : c.toNat - 65 + 10 = d := Option.some.inj hvalue
        omega
      next => cases hvalue

theorem IsHexDigit.isBlank_eq_false {c : Char} {d : ℕ} (h : IsHexDigit c d) :
    isBlank c = false := by
  have hsolid : ∀ d < 16, isBlank d.digitChar = false ∧ isBlank d.digitChar.toUpper = false := by
    decide
  obtain ⟨hd, rfl | rfl⟩ := h
  · exact (hsolid d hd).1
  · exact (hsolid d hd).2

theorem digitValue?_sixteen {c : Char} {d : ℕ} :
    digitValue? 16 c = some d ↔ IsHexDigit c d := by
  constructor
  · intro h
    obtain ⟨hd, hc⟩ := toNat_of_digitValue? h
    refine ⟨hd, ?_⟩
    have hwritten : ∀ d < 16, (d < 10 → d.digitChar.toNat = d + 48) ∧
        (10 ≤ d → d.digitChar.toNat = d + 87 ∧ d.digitChar.toUpper.toNat = d + 55) := by decide
    obtain ⟨hfigure, hletter⟩ := hwritten d hd
    rw [← Char.toNat_inj, ← Char.toNat_inj]
    omega
  · rintro ⟨hd, rfl | rfl⟩
    · exact digitValue?_digitChar (Nat.le_refl 16) hd
    · revert d
      decide

theorem extendNumber?_cons_eq_some_iff {radix bound value n : ℕ} {c : Char} {text : List Char} :
    extendNumber? radix bound value (c :: text) = some n ↔
      ∃ d, digitValue? radix c = some d ∧ value * radix + d < bound ∧
        extendNumber? radix bound (value * radix + d) text = some n := by
  rw [extendNumber?]
  cases digitValue? radix c with
  | none => simp
  | some d => simp

/-! ## Reading -/

/-- Digits continue a number as long as what they make of it is below the bound. -/
theorem extendHex?_eq_some_iff {bound value n : ℕ} {text : List Char} :
    extendNumber? 16 bound value text = some n ↔
      ∃ digits, List.Forall₂ IsHexDigit text digits ∧
        value * 16 ^ text.length + Nat.ofDigits 16 digits.reverse = n ∧
        (text ≠ [] → n < bound) := by
  induction text generalizing value with
  | nil => simp [extendNumber?, List.forall₂_nil_left_iff]
  | cons c text ih =>
    have hvalue : ∀ {d : ℕ} {digits : List ℕ}, List.Forall₂ IsHexDigit text digits →
        value * 16 ^ (c :: text).length + Nat.ofDigits 16 (d :: digits).reverse
          = (value * 16 + d) * 16 ^ text.length + Nat.ofDigits 16 digits.reverse := by
      intro d digits hdigits
      rw [Nat.ofDigits_reverse_cons, ← hdigits.length_eq, List.length_cons, Nat.pow_succ]
      ring
    rw [extendNumber?_cons_eq_some_iff]
    simp only [ih, digitValue?_sixteen]
    constructor
    · rintro ⟨d, hd, hbound, digits, hdigits, hn, hlt⟩
      refine ⟨d :: digits, .cons hd hdigits, (hvalue hdigits).trans hn, fun _ => ?_⟩
      by_cases hnil : text = []
      · subst hnil
        cases hdigits
        simpa [← hn] using hbound
      · exact hlt hnil
    · rintro ⟨digits, hdigits, hn, hlt⟩
      cases hdigits with
      | @cons _ d _ digits hd hdigits =>
        rw [hvalue hdigits] at hn
        have hpos : 0 < 16 ^ text.length := Nat.pow_pos (by decide)
        have hle : value * 16 + d ≤ (value * 16 + d) * 16 ^ text.length :=
          Nat.le_mul_of_pos_right _ hpos
        have hbound : n < bound := hlt (List.cons_ne_nil c text)
        exact ⟨d, hd, by omega, digits, hdigits, hn, fun _ => hbound⟩

/-- Hexadecimal digits are read just when their value is below the bound. -/
theorem readHexDigits?_eq_some_iff {bound n : ℕ} {text : List Char} :
    readDigits? 16 bound text = some n ↔ IsHexDigits text n ∧ n < bound := by
  rw [readDigits?]
  split
  next hnil =>
    rw [List.isEmpty_iff] at hnil
    exact iff_of_false (by simp) fun h => h.1.ne_nil hnil
  next hnil =>
    rw [List.isEmpty_iff] at hnil
    rw [extendHex?_eq_some_iff]
    constructor
    · rintro ⟨digits, hdigits, hn, hlt⟩
      exact ⟨⟨hnil, digits, hdigits, by simpa using hn⟩, hlt hnil⟩
    · rintro ⟨⟨-, digits, hdigits, hn⟩, hlt⟩
      exact ⟨digits, hdigits, by simpa using hn, fun _ => hlt⟩

theorem exists_isHexDigit_of_isDigit {c : Char} (h : c.isDigit = true) : ∃ d, IsHexDigit c d := by
  obtain ⟨hlow, hhigh⟩ : 48 ≤ c.toNat ∧ c.toNat ≤ 57 := Char.isDigit_iff_toNat.1 h
  refine ⟨c.toNat - 48, by omega, .inl ?_⟩
  rw [← Char.toNat_inj, Nat.toNat_digitChar_of_lt_ten (by omega)]
  omega

/-- What the reader refuses is no digit. -/
theorem not_isHexDigit {c : Char} (h : digitValue? 16 c = none) (d : ℕ) : ¬IsHexDigit c d := by
  rw [← digitValue?_sixteen, h]
  exact nofun

theorem IsHexDigits.exists_isHexDigit {text : List Char} {n : ℕ} (h : IsHexDigits text n) :
    ∀ c ∈ text, ∃ d, IsHexDigit c d := by
  obtain ⟨-, digits, hdigits, -⟩ := h
  induction hdigits with
  | nil => exact nofun
  | cons hd _ ih => exact List.forall_mem_cons.2 ⟨⟨_, hd⟩, ih⟩

/-- Other characters do not stand among digits. -/
theorem IsHexDigits.not_mem {text : List Char} {n : ℕ} {c : Char} (h : IsHexDigits text n)
    (hc : digitValue? 16 c = none) : c ∉ text := by
  intro hmem
  obtain ⟨d, hd⟩ := h.exists_isHexDigit c hmem
  exact not_isHexDigit hc d hd

theorem IsHexDigits.isBlank_eq_false {text : List Char} {n : ℕ} (h : IsHexDigits text n) :
    ∀ c ∈ text, isBlank c = false := by
  intro c hc
  obtain ⟨d, hd⟩ := h.exists_isHexDigit c hc
  exact hd.isBlank_eq_false

/-- A hexadecimal numeral is read just when its value is below the bound. -/
theorem readHexNumeral?_eq_some_iff {bound n : ℕ} {text : List Char} :
    readNumeral? 16 bound text = some n ↔ IsHex text n ∧ n < bound := by
  have hplus : ∀ {digits : List Char}, ¬IsHexDigits ('+' :: digits) n :=
    fun h => h.not_mem rfl List.mem_cons_self
  unfold readNumeral?
  split
  next digits =>
    rw [readHexDigits?_eq_some_iff]
    refine and_congr_left fun _ => ⟨.signed, fun h => ?_⟩
    cases h with
    | signed hdigits => exact hdigits
    | unsigned hdigits => exact absurd hdigits hplus
  next hsign =>
    rw [readHexDigits?_eq_some_iff]
    refine and_congr_left fun _ => ⟨.unsigned, fun h => ?_⟩
    cases h with
    | signed hdigits => exact absurd rfl (hsign _)
    | unsigned hdigits => exact hdigits

theorem readHexUInt32?_eq_some_iff {text : List Char} {n : UInt32} :
    readHexUInt32? text = some n ↔ IsHex text n.toNat := by
  rw [readHexUInt32?, Option.map_eq_some_iff]
  constructor
  · rintro ⟨value, hread, rfl⟩
    obtain ⟨hhex, hlt⟩ := readHexNumeral?_eq_some_iff.1 hread
    rwa [UInt32.toNat_ofNat_of_lt' hlt]
  · intro h
    exact ⟨n.toNat, readHexNumeral?_eq_some_iff.2 ⟨h, n.toNat_lt_size⟩, UInt32.ofNat_toNat⟩

/-! ## Written digits -/

theorem isHexDigits_toDigits (n : ℕ) : IsHexDigits (Nat.toDigits 16 n) n := by
  have hextend := extendNumber?_toDigits (by decide) (Nat.le_refl 16)
    (Nat.lt_succ_self n)
  have hread : readDigits? 16 (n + 1) (Nat.toDigits 16 n) = some n := by
    rw [readDigits?, if_neg (by simp [Nat.toDigits_ne_nil]), hextend]
  exact (readHexDigits?_eq_some_iff.1 hread).1

/-- The upper case of digits stands for the same number. -/
theorem IsHexDigits.upper {text : List Char} {n : ℕ} (h : IsHexDigits text n) :
    IsHexDigits (text.map Char.toUpper) n := by
  have hupper : ∀ {c : Char} {d : ℕ}, IsHexDigit c d → IsHexDigit c.toUpper d := by
    rintro c d ⟨hd, rfl | rfl⟩
    · exact ⟨hd, .inr rfl⟩
    · have htwice : ∀ d < 16, d.digitChar.toUpper.toUpper = d.digitChar.toUpper := by decide
      exact ⟨hd, .inr (htwice d hd)⟩
  obtain ⟨digits, hdigits, hn⟩ := h.value
  refine ⟨by simpa using h.ne_nil, digits, ?_, hn⟩
  rw [List.forall₂_map_left_iff]
  exact hdigits.imp fun _ _ => hupper

/-- Zeros in front make no difference. -/
theorem IsHexDigits.zeros {text : List Char} {n : ℕ} (h : IsHexDigits text n) (k : ℕ) :
    IsHexDigits (List.replicate k '0' ++ text) n := by
  have hzero : IsHexDigit '0' 0 := ⟨by decide, .inl rfl⟩
  induction k with
  | zero => exact h
  | succ k ih =>
    obtain ⟨digits, hdigits, hn⟩ := ih.value
    rw [List.replicate_succ, List.cons_append]
    refine ⟨List.cons_ne_nil _ _, 0 :: digits, .cons hzero hdigits, ?_⟩
    rw [Nat.ofDigits_reverse_cons, hn, Nat.mul_zero, Nat.add_zero]

theorem isHexDigits_hexUpper (width n : ℕ) : IsHexDigits (hexUpper width n) n :=
  (isHexDigits_toDigits n).upper.zeros _

@[simp] theorem readHexUInt32?_hexUpper (width : ℕ) (n : UInt32) :
    readHexUInt32? (hexUpper width n.toNat) = some n :=
  readHexUInt32?_eq_some_iff.2 (.unsigned (isHexDigits_hexUpper width n.toNat))

end MediaTransport.Text
