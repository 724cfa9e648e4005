/-!
# Numerals

Reading of unsigned whole numbers below a bound.  A numeral is one or more
digits of its radix, with an optional plus sign before them.  Leading zeros are
allowed, blanks and other signs are not, and a value that reaches the bound is
refused.  Digits are ASCII; letters stand for the digits from ten on, in either
case.
-/

namespace MediaTransport.Text

/-- The value of a digit in a radix of at most thirty-six. -/
def digitValue? (radix : Nat) (c : Char) : Option Nat :=
  let value :=
    if '0' ≤ c ∧ c ≤ '9' then some (c.toNat - '0'.toNat)
    else if 'a' ≤ c ∧ c ≤ 'z' then some (c.toNat - 'a'.toNat + 10)
    else if 'A' ≤ c ∧ c ≤ 'Z' then some (c.toNat - 'A'.toNat + 10)
    else none
  value.filter (· < radix)

/-- The value of a run of digits that continues a number, while it stays below
the bound. -/
def extendNumber? (radix bound : Nat) (value : Nat) : List Char → Option Nat
  | [] => some value
  | c :: text =>
    match digitValue? radix c with
    | none => none
    | some d =>
      if value * radix + d < bound then extendNumber? radix bound (value * radix + d) text
      else none

/-- The value of one or more digits, when it is below the bound. -/
def readDigits? (radix bound : Nat) (text : List Char) : Option Nat :=
  if text.isEmpty then none else extendNumber? radix bound 0 text

/-- The value of a numeral, when it is below the bound. -/
def readNumeral? (radix bound : Nat) : List Char → Option Nat
  | '+' :: text => readDigits? radix bound text
  | text => readDigits? radix bound text

/-- A decimal numeral of eight bits. -/
def readUInt8? (text : List Char) : Option UInt8 :=
  (readNumeral? 10 UInt8.size text).map UInt8.ofNat

/-- A decimal numeral of sixteen bits. -/
def readUInt16? (text : List Char) : Option UInt16 :=
  (readNumeral? 10 UInt16.size text).map UInt16.ofNat

/-- A decimal numeral of thirty-two bits. -/
def readUInt32? (text : List Char) : Option UInt32 :=
  (readNumeral? 10 UInt32.size text).map UInt32.ofNat

/-- A decimal numeral of sixty-four bits. -/
def readUInt64? (text : List Char) : Option UInt64 :=
  (readNumeral? 10 UInt64.size text).map UInt64.ofNat

/-- A hexadecimal numeral of thirty-two bits. -/
def readHexUInt32? (text : List Char) : Option UInt32 :=
  (readNumeral? 16 UInt32.size text).map UInt32.ofNat

/-- The digits of a number in upper-case hexadecimal, filled with zeros on the
left up to a width. -/
def hexUpper (width n : Nat) : List Char :=
  let digits := (Nat.toDigits 16 n).map Char.toUpper
  List.replicate (width - digits.length) '0' ++ digits

end MediaTransport.Text
