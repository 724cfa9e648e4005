/-!
# Base64

Base64 with the standard alphabet and padding (RFC 4648, section 4).  Three
bytes become four digits of six bits; one or two bytes left over become two or
three digits and are filled up with `=`.
-/

namespace MediaTransport.Text.Base64

/-- The digit for a value below sixty-four. -/
def digit (n : Nat) : Char :=
  if n < 26 then Char.ofNat ('A'.toNat + n)
  else if n < 52 then Char.ofNat ('a'.toNat + (n - 26))
  else if n < 62 then Char.ofNat ('0'.toNat + (n - 52))
  else if n = 62 then '+'
  else '/'

/-- The value of a digit. -/
def value? (c : Char) : Option Nat :=
  if 'A' ≤ c ∧ c ≤ 'Z' then some (c.toNat - 'A'.toNat)
  else if 'a' ≤ c ∧ c ≤ 'z' then some (c.toNat - 'a'.toNat + 26)
  else if '0' ≤ c ∧ c ≤ '9' then some (c.toNat - '0'.toNat + 52)
  else if c = '+' then some 62
  else if c = '/' then some 63
  else none

/-- The digits of a byte list. -/
def encode : List UInt8 → List Char
  | a :: b :: c :: rest =>
    let n := a.toNat * 65536 + b.toNat * 256 + c.toNat
    digit (n / 262144) :: digit (n / 4096 % 64) :: digit (n / 64 % 64) :: digit (n % 64)
      :: encode rest
  | [a, b] =>
    let n := a.toNat * 256 + b.toNat
    [digit (n / 1024), digit (n / 16 % 64), digit (n % 16 * 4), '=']
  | [a] => [digit (a.toNat / 4), digit (a.toNat % 4 * 16), '=', '=']
  | [] => []

/-- The bytes that a digit list stands for.  Padding ends the text, and the bits
under it have to be zero. -/
def decode? : List Char → Option (List UInt8)
  | [] => some []
  | [w, x, '=', '='] => do
    let n := (← value? w) * 64 + (← value? x)
    if n % 16 = 0 then some [UInt8.ofNat (n / 16)] else none
  | [w, x, y, '='] => do
    let n := (← value? w) * 4096 + (← value? x) * 64 + (← value? y)
    if n % 4 = 0 then some [UInt8.ofNat (n / 1024), UInt8.ofNat (n / 4)] else none
  | w :: x :: y :: z :: rest => do
    let n := (← value? w) * 262144 + (← value? x) * 4096 + (← value? y) * 64 + (← value? z)
    let bytes ← decode? rest
    some (UInt8.ofNat (n / 65536) :: UInt8.ofNat (n / 256) :: UInt8.ofNat n :: bytes)
  | _ => none

end MediaTransport.Text.Base64
