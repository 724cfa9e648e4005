/-!
# Variable-length numbers

A number of sixty-four bits is written in groups of seven bits, the most
significant group first, one group to a byte.  Every byte but the last has its
top bit set.  The writer uses the fewest groups, so there are at most ten.

The reader takes what stands at the start of a byte list and says how many bytes
it took.  It refuses a list that ends inside a number, and a number that does
not fit in sixty-four bits.  Leading zero groups are read, though never written.
-/

namespace MediaTransport.Varint

/-- The most bytes that a number takes. -/
def maxLength : Nat := 10

/-- A word shifted to the right.  A shift by its whole width or more leaves
nothing of it. -/
def shiftedRight (value : UInt64) (bits : Nat) : UInt64 :=
  if bits < 64 then value >>> UInt64.ofNat bits else 0

/-- A shift that leaves something of a word is smaller than its width. -/
theorem lt_of_shiftedRight_ne_zero {value : UInt64} {bits : Nat}
    (h : shiftedRight value bits ≠ 0) : bits < 64 := by
  rw [shiftedRight] at h
  split at h
  next hbits => exact hbits
  next => exact absurd rfl h

/-- The number of groups, from a given number on, that leave nothing of a word in
front of them. -/
def lengthFrom (value : UInt64) (length : Nat) : Nat :=
  if h : shiftedRight value (7 * length) ≠ 0 then lengthFrom value (length + 1) else length
termination_by 64 - 7 * length
decreasing_by
  have hshift := lt_of_shiftedRight_ne_zero h
  omega

/-- The number of bytes that the encoding of a number takes. -/
def encodedLength (value : UInt64) : Nat :=
  lengthFrom value 1

/-- The byte of the group with a number of groups behind it. -/
def groupByte (value : UInt64) (behind : Nat) : UInt8 :=
  let group := (value >>> UInt64.ofNat (7 * behind)).toUInt8 &&& 0x7F
  if behind > 0 then group ||| 0x80 else group

/-- Some bytes with the encoding of a number behind them. -/
def append (out : List UInt8) (value : UInt64) : List UInt8 :=
  (List.range (encodedLength value)).reverse.foldl
    (fun out behind => out ++ [groupByte value behind]) out

/-- The encoding of a number. -/
def encode (value : UInt64) : List UInt8 :=
  append [] value

/-- The number that continues a value already read from `used` bytes, with the
number of bytes it takes in all. -/
def decodeFrom? (value : UInt64) (used : Nat) : List UInt8 → Option (UInt64 × Nat)
  | [] => none
  | b :: rest =>
    if used ≥ maxLength ∨ value >>> 57 ≠ 0 then none
    else
      let extended := (value <<< 7) ||| (b &&& 0x7F).toUInt64
      if b &&& 0x80 = 0 then some (extended, used + 1)
      else decodeFrom? extended (used + 1) rest

/-- The number at the start of a byte list, and how many bytes it takes. -/
def decode? (bytes : List UInt8) : Option (UInt64 × Nat) :=
  decodeFrom? 0 0 bytes

end MediaTransport.Varint
