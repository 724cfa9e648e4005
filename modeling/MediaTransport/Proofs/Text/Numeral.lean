import MediaTransport.Proofs.Text.Lines
import MediaTransport.Text.Numeral
import Mathlib.Data.Nat.Notation

/-!
# Reading written numerals

The digits of a number read back as the number when it is below the bound
(`readNumeral?_toDigits`).  The digits are taken off at the end, where `Nat.toDigits`
puts the last one, so reading is first shown to continue over an appended digit
(`extendNumber?_append`).

The text of a word of any width reads back as the word.

Conversely, what is read in the radix ten is a *decimal numeral* (`IsDecimal`): digits
of which `Nat.ofDigitChars` is the value, behind a plus sign or none.  Since every
further digit makes the value larger (`le_ofDigitChars`), the reader may refuse a value
as soon as it reaches the bound.
-/

namespace MediaTransport.Text

theorem digitValue?_digitChar {radix d : ℕ} (hradix : radix ≤ 16) (hd : d < radix) :
    digitValue? radix (Nat.digitChar d) = some d := by
  have hall : ∀ radix ≤ 16, ∀ d < radix, digitValue? radix (Nat.digitChar d) = some d := by
    decide
  exact hall radix hradix d hd

/-- Reading can stop anywhere and go on from the number so far. -/
theorem extendNumber?_append (radix bound value : ℕ) (text more : List Char) :
    extendNumber? radix bound value (text ++ more)
      = (extendNumber? radix bound value text).bind (extendNumber? radix bound · more) := by
  induction text generalizing value with
  | nil => rfl
  | cons c text ih =>
    rw [List.cons_append, extendNumber?, extendNumber?]
    split
    next => rfl
    next d _ =>
      split
      next => exact ih _
      next => rfl

/-- The digits of a number below the bound read back. -/
theorem extendNumber?_toDigits {radix bound n : ℕ} (hone : 1 < radix) (hradix : radix ≤ 16)
    (hn : n < bound) : extendNumber? radix bound 0 (Nat.toDigits radix n) = some n := by
  induction n using Nat.strongRecOn with
  | ind n ih =>
    rw [Nat.toDigits_eq_if hone]
    split
    next hlt =>
      simp [extendNumber?, digitValue?_digitChar hradix hlt, hn]
    next hle =>
      have hdiv : n / radix < n := Nat.div_lt_self (by omega) hone
      have hmod : n % radix < radix := Nat.mod_lt n (by omega)
      have hsum : n / radix * radix + n % radix = n := Nat.div_add_mod' n radix
      rw [extendNumber?_append, ih _ hdiv (by omega), Option.bind_some]
      simp [extendNumber?, digitValue?_digitChar hradix hmod, hsum, hn]

/-- A written numeral reads back.  It has no sign, since a sign is no digit. -/
theorem readNumeral?_toDigits {radix bound n : ℕ} (hone : 1 < radix) (hradix : radix ≤ 16)
    (hn : n < bound) : readNumeral? radix bound (Nat.toDigits radix n) = some n := by
  have hextend := extendNumber?_toDigits hone hradix hn
  have hread : readDigits? radix bound (Nat.toDigits radix n) = some n := by
    rw [readDigits?, if_neg (by simp [Nat.toDigits_ne_nil]), hextend]
  unfold readNumeral?
  split
  next text heq =>
    rw [heq] at hextend
    cases hextend
  next => exact hread

theorem toList_toString (n : ℕ) : (toString n).toList = Nat.toDigits 10 n :=
  Nat.toList_repr

/-- Numbers are written with digits. -/
theorem isDigit_of_mem_toString {n : ℕ} {c : Char} (h : c ∈ (toString n).toList) :
    c.isDigit = true := by
  rw [toList_toString] at h
  exact Nat.isDigit_of_mem_toDigits (by decide) (by decide) h

theorem readDecimal?_toString {bound n : ℕ} (hn : n < bound) :
    readNumeral? 10 bound (toString n).toList = some n := by
  rw [toList_toString]
  exact readNumeral?_toDigits (by decide) (by decide) hn

@[simp] theorem readUInt8?_toString (n : UInt8) : readUInt8? (toString n).toList = some n := by
  change (readNumeral? 10 UInt8.size (toString n.toNat).toList).map UInt8.ofNat = some n
  rw [readDecimal?_toString n.toNat_lt_size, Option.map_some, UInt8.ofNat_toNat]

@[simp] theorem readUInt16?_toString (n : UInt16) : readUInt16? (toString n).toList = some n := by
  change (readNumeral? 10 UInt16.size (toString n.toNat).toList).map UInt16.ofNat = some n
  rw [readDecimal?_toString n.toNat_lt_size, Option.map_some, UInt16.ofNat_toNat]

@[simp] theorem readUInt32?_toString (n : UInt32) : readUInt32? (toString n).toList = some n := by
  change (readNumeral? 10 UInt32.size (toString n.toNat).toList).map UInt32.ofNat = some n
  rw [readDecimal?_toString n.toNat_lt_size, Option.map_some, UInt32.ofNat_toNat]

theorem readUInt64?_toString {n : ℕ} (hn : n < UInt64.size) :
    readUInt64? (toString n).toList = some (UInt64.ofNat n) := by
  rw [readUInt64?, readDecimal?_toString hn, Option.map_some]

/-! ## Decimal numerals -/

/-- One or more ASCII digits of a number, the most significant first. -/
structure IsDigits (digits : List Char) (n : ℕ) : Prop where
  /-- There is a digit. -/
  ne_nil : digits ≠ []
  /-- All characters are digits. -/
  isDigit : ∀ c ∈ digits, c.isDigit = true
  /-- They stand for the number. -/
  value : Nat.ofDigitChars 10 digits 0 = n

/-- A text that denotes a number: its digits, with a plus sign in front or none. -/
inductive IsDecimal : List Char → ℕ → Prop where
  | unsigned {digits : List Char} {n : ℕ} (h : IsDigits digits n) : IsDecimal digits n
  | signed {digits : List Char} {n : ℕ} (h : IsDigits digits n) : IsDecimal ('+' :: digits) n

theorem digitValue?_ten (c : Char) :
    digitValue? 10 c = if c.isDigit then some (c.toNat - '0'.toNat) else none := by
  have hdigit : c.isDigit = true ↔ '0' ≤ c ∧ c ≤ '9' := by
    simp [Char.isDigit, Char.le_def]
  unfold digitValue?
  by_cases h : '0' ≤ c ∧ c ≤ '9'
  · have hle : c.toNat ≤ '9'.toNat := h.2
    have hlt : c.toNat - '0'.toNat < 10 := by
      change c.toNat ≤ 57 at hle
      change c.toNat - 48 < 10
      omega
    rw [if_pos (hdigit.2 h), if_pos h]
    exact Option.filter_some_pos (decide_eq_true hlt)
  · rw [if_neg (mt hdigit.1 h), if_neg h]
    -- letters have values from ten on
    split
    · simp [Option.filter]
    · split <;> simp [Option.filter]

/-- Digits behind a number never make it smaller. -/
theorem le_ofDigitChars (digits : List Char) (n : ℕ) : n ≤ Nat.ofDigitChars 10 digits n := by
  induction digits generalizing n with
  | nil => exact Nat.le_refl n
  | cons c digits ih =>
    rw [Nat.ofDigitChars_cons]
    have hle := ih (10 * n + (c.toNat - '0'.toNat))
    omega

/-- Digits continue a number as long as what they make of it is below the bound. -/
theorem extendNumber?_eq_some_iff {bound value n : ℕ} {text : List Char} :
    extendNumber? 10 bound value text = some n ↔
      (∀ c ∈ text, c.isDigit = true) ∧ Nat.ofDigitChars 10 text value = n ∧
        (text ≠ [] → n < bound) := by
  induction text generalizing value with
  | nil => simp [extendNumber?]
  | cons c text ih =>
    have hnext : value * 10 + (c.toNat - '0'.toNat) = 10 * value + (c.toNat - '0'.toNat) := by omega
    have hle := le_ofDigitChars text (10 * value + (c.toNat - '0'.toNat))
    rw [extendNumber?, digitValue?_ten, List.forall_mem_cons, Nat.ofDigitChars_cons]
    by_cases hc : c.isDigit = true
    · by_cases hbound : 10 * value + (c.toNat - '0'.toNat) < bound
      · simp only [hc, if_true, hnext, hbound, ih]
        constructor
        · rintro ⟨hall, rfl, hlt⟩
          refine ⟨⟨trivial, hall⟩, rfl, fun _ => ?_⟩
          by_cases hnil : text = []
          · simpa [hnil] using hbound
          · exact hlt hnil
        · rintro ⟨⟨-, hall⟩, rfl, hlt⟩
          exact ⟨hall, rfl, fun _ => hlt (List.cons_ne_nil c text)⟩
      · simp only [hc, if_true, hnext, hbound, if_false]
        constructor
        · exact nofun
        · rintro ⟨-, rfl, hlt⟩
          have hvalue := hlt (List.cons_ne_nil c text)
          omega
    · simp [hc]

/-- Digits are read as the number they stand for, if it is below the bound. -/
theorem readDigits?_eq_some_iff {bound n : ℕ} {text : List Char} :
    readDigits? 10 bound text = some n ↔ IsDigits text n ∧ n < bound := by
  rw [readDigits?]
  split
  next hnil =>
    rw [List.isEmpty_iff] at hnil
    constructor
    · exact nofun
    · rintro ⟨hdigits, -⟩
      exact absurd hnil hdigits.ne_nil
  next hnil =>
    rw [List.isEmpty_iff] at hnil
    rw [extendNumber?_eq_some_iff]
    constructor
    · rintro ⟨hall, hvalue, hlt⟩
      exact ⟨⟨hnil, hall, hvalue⟩, hlt hnil⟩
    · rintro ⟨hdigits, hlt⟩
      exact ⟨hdigits.isDigit, hdigits.value, fun _ => hlt⟩

/-- A decimal numeral is read just when its value is below the bound. -/
theorem readNumeral?_eq_some_iff {bound n : ℕ} {text : List Char} :
    readNumeral? 10 bound text = some n ↔ IsDecimal text n ∧ n < bound := by
  unfold readNumeral?
  split
  next digits =>
    rw [readDigits?_eq_some_iff]
    constructor
    · rintro ⟨hdigits, hlt⟩
      exact ⟨.signed hdigits, hlt⟩
    · rintro ⟨hdecimal, hlt⟩
      cases hdecimal with
      | signed hdigits => exact ⟨hdigits, hlt⟩
      | unsigned hdigits => exact absurd (hdigits.isDigit '+' List.mem_cons_self) (by decide)
  next hsign =>
    rw [readDigits?_eq_some_iff]
    constructor
    · rintro ⟨hdigits, hlt⟩
      exact ⟨.unsigned hdigits, hlt⟩
    · rintro ⟨hdecimal, hlt⟩
      cases hdecimal with
      | signed hdigits => exact absurd rfl (hsign _)
      | unsigned hdigits => exact ⟨hdigits, hlt⟩

theorem readUInt8?_eq_some_iff {text : List Char} {n : UInt8} :
    readUInt8? text = some n ↔ IsDecimal text n.toNat := by
  rw [readUInt8?, Option.map_eq_some_iff]
  constructor
  · rintro ⟨value, hread, rfl⟩
    obtain ⟨hdecimal, hlt⟩ := readNumeral?_eq_some_iff.1 hread
    rwa [UInt8.toNat_ofNat_of_lt' hlt]
  · intro h
    exact ⟨n.toNat, readNumeral?_eq_some_iff.2 ⟨h, n.toNat_lt_size⟩, UInt8.ofNat_toNat⟩

theorem readUInt16?_eq_some_iff {text : List Char} {n : UInt16} :
    readUInt16? text = some n ↔ IsDecimal text n.toNat := by
  rw [readUInt16?, Option.map_eq_some_iff]
  constructor
  · rintro ⟨value, hread, rfl⟩
    obtain ⟨hdecimal, hlt⟩ := readNumeral?_eq_some_iff.1 hread
    rwa [UInt16.toNat_ofNat_of_lt' hlt]
  · intro h
    exact ⟨n.toNat, readNumeral?_eq_some_iff.2 ⟨h, n.toNat_lt_size⟩, UInt16.ofNat_toNat⟩

theorem readUInt32?_eq_some_iff {text : List Char} {n : UInt32} :
    readUInt32? text = some n ↔ IsDecimal text n.toNat := by
  rw [readUInt32?, Option.map_eq_some_iff]
  constructor
  · rintro ⟨value, hread, rfl⟩
    obtain ⟨hdecimal, hlt⟩ := readNumeral?_eq_some_iff.1 hread
    rwa [UInt32.toNat_ofNat_of_lt' hlt]
  · intro h
    exact ⟨n.toNat, readNumeral?_eq_some_iff.2 ⟨h, n.toNat_lt_size⟩, UInt32.ofNat_toNat⟩

theorem readUInt64?_eq_some_iff {text : List Char} {n : UInt64} :
    readUInt64? text = some n ↔ IsDecimal text n.toNat := by
  rw [readUInt64?, Option.map_eq_some_iff]
  constructor
  · rintro ⟨value, hread, rfl⟩
    obtain ⟨hdecimal, hlt⟩ := readNumeral?_eq_some_iff.1 hread
    rwa [UInt64.toNat_ofNat_of_lt' hlt]
  · intro h
    exact ⟨n.toNat, readNumeral?_eq_some_iff.2 ⟨h, n.toNat_lt_size⟩, UInt64.ofNat_toNat⟩

/-- Only digits and a sign stand in a numeral. -/
theorem IsDecimal.not_mem {text : List Char} {n : ℕ} {c : Char} (h : IsDecimal text n)
    (hc : c.isDigit = false) (hplus : c ≠ '+') : c ∉ text := by
  have hdigits : ∀ {digits : List Char}, IsDigits digits n → c ∉ digits :=
    fun hd hmem => Bool.noConfusion (hc.symm.trans (hd.isDigit c hmem))
  cases h with
  | unsigned hd => exact hdigits hd
  | signed hd => exact fun hmem => (List.mem_cons.1 hmem).elim hplus (hdigits hd)

theorem IsDecimal.isBlank_eq_false {text : List Char} {n : ℕ} (h : IsDecimal text n) :
    ∀ c ∈ text, isBlank c = false := by
  intro c hc
  cases hdigit : c.isDigit with
  | true => exact isBlank_of_isDigit hdigit
  | false =>
    by_cases hplus : c = '+'
    · rw [hplus]
      rfl
    · exact absurd hc (h.not_mem hdigit hplus)

/-- A numeral with blanks around it has only digits, a sign and blanks. -/
theorem IsDecimal.not_mem_of_trim {text : List Char} {n : ℕ} {c : Char}
    (h : IsDecimal (trim text) n) (hdigit : c.isDigit = false) (hplus : c ≠ '+')
    (hblank : isBlank c = false) : c ∉ text := by
  rw [← mem_trim_iff hblank]
  exact h.not_mem hdigit hplus

end MediaTransport.Text
