import MediaTransport.Text.Blank
import MediaTransport.Text.Cut
import MediaTransport.Text.Numeral

/-!
# IP addresses

Numeric addresses of both families, their texts, and the place of IPv4 among the
IPv6 addresses.

An IPv4 address is written as four decimal numbers without leading zeros.  An
IPv6 address is eight groups of sixteen bits.  It is written as RFC 5952 says: in
lower-case hexadecimal without leading zeros, with `::` in the place of the
longest run of at least two zero groups, the first of equal ones.  An address
that stands for an IPv4 address is written `::ffff:a.b.c.d`.

The reader of IPv6 takes any number of groups of one to four digits on each side
of at most one `::`, which stands for at least one group, and a dotted IPv4
address in the place of the last two groups.
-/

namespace MediaTransport.Address

open Text

/-- An IPv4 address. -/
structure Ipv4 where
  /-- The first number. -/
  a : UInt8
  /-- The second number. -/
  b : UInt8
  /-- The third number. -/
  c : UInt8
  /-- The fourth number. -/
  d : UInt8
  deriving DecidableEq, Repr

/-- An IPv6 address, as its groups in order. -/
structure Ipv6 where
  /-- The first group. -/
  g₀ : UInt16
  /-- The second group. -/
  g₁ : UInt16
  /-- The third group. -/
  g₂ : UInt16
  /-- The fourth group. -/
  g₃ : UInt16
  /-- The fifth group. -/
  g₄ : UInt16
  /-- The sixth group. -/
  g₅ : UInt16
  /-- The seventh group. -/
  g₆ : UInt16
  /-- The eighth group. -/
  g₇ : UInt16
  deriving DecidableEq, Repr

/-- An address of either family. -/
inductive Ip where
  /-- An IPv4 address. -/
  | v4 (ip : Ipv4)
  /-- An IPv6 address. -/
  | v6 (ip : Ipv6)
  deriving DecidableEq, Repr

/-- The IPv4 address that stands for every local one. -/
def Ipv4.unspecified : Ipv4 := ⟨0, 0, 0, 0⟩

/-- The IPv6 address that stands for every local one. -/
def Ipv6.unspecified : Ipv6 := ⟨0, 0, 0, 0, 0, 0, 0, 0⟩

/-! ## IPv4 among IPv6 -/

/-- The group of two numbers. -/
def group (high low : UInt8) : UInt16 :=
  (high.toUInt16 <<< 8) ||| low.toUInt16

/-- The IPv6 address that stands for an IPv4 address. -/
def Ipv4.mapped (ip : Ipv4) : Ipv6 :=
  ⟨0, 0, 0, 0, 0, 0xFFFF, group ip.a ip.b, group ip.c ip.d⟩

/-- The IPv4 address that an IPv6 address stands for. -/
def Ipv6.unmapped? (ip : Ipv6) : Option Ipv4 :=
  if ip.g₀ = 0 ∧ ip.g₁ = 0 ∧ ip.g₂ = 0 ∧ ip.g₃ = 0 ∧ ip.g₄ = 0 ∧ ip.g₅ = 0xFFFF then
    some ⟨(ip.g₆ >>> 8).toUInt8, ip.g₆.toUInt8, (ip.g₇ >>> 8).toUInt8, ip.g₇.toUInt8⟩
  else none

/-- An address among the IPv6 addresses. -/
def Ip.mapped : Ip → Ipv6
  | .v4 ip => ip.mapped
  | .v6 ip => ip

/-- An IPv6 address in its own family: IPv4 when it stands for one. -/
def Ipv6.native (ip : Ipv6) : Ip :=
  match ip.unmapped? with
  | some ip => .v4 ip
  | none => .v6 ip

/-! ## Writing -/

/-- The text of an IPv4 address. -/
def Ipv4.render (ip : Ipv4) : String :=
  toString ip.a ++ "." ++ toString ip.b ++ "." ++ toString ip.c ++ "." ++ toString ip.d

/-- The groups of an address. -/
def Ipv6.groups (ip : Ipv6) : List UInt16 :=
  [ip.g₀, ip.g₁, ip.g₂, ip.g₃, ip.g₄, ip.g₅, ip.g₆, ip.g₇]

/-- The number of zero groups that a list starts with. -/
def leadingZeros (groups : List UInt16) : Nat :=
  (groups.takeWhile (· == 0)).length

/-- The position and length of the longest run of zero groups, the first of
equal ones. -/
def longestZeros : List UInt16 → Nat × Nat
  | [] => (0, 0)
  | g :: groups =>
    let here := leadingZeros (g :: groups)
    let (start, length) := longestZeros groups
    if here < length then (start + 1, length) else (0, here)

/-- Groups with colons between them. -/
def renderGroups (groups : List UInt16) : String :=
  joinWith ':' (groups.map fun g => String.ofList (Nat.toDigits 16 g.toNat))

/-- The text of an IPv6 address. -/
def Ipv6.render (ip : Ipv6) : String :=
  match ip.unmapped? with
  | some v4 => "::ffff:" ++ v4.render
  | none =>
    let (start, length) := longestZeros ip.groups
    if 1 < length then
      renderGroups (ip.groups.take start) ++ "::" ++ renderGroups (ip.groups.drop (start + length))
    else renderGroups ip.groups

/-- The text of an address. -/
def Ip.render : Ip → String
  | .v4 ip => ip.render
  | .v6 ip => ip.render

/-! ## Reading -/

/-- Reads a number of an IPv4 address: one to three digits without a leading
zero. -/
def readOctet? (text : List Char) : Option UInt8 :=
  if text.length > 3 ∨ (text.length > 1 ∧ text.head? = some '0') then none
  else (readDigits? 10 256 text).map UInt8.ofNat

/-- Reads an IPv4 address. -/
def Ipv4.parse? (text : List Char) : Option Ipv4 :=
  match text.splitOn '.' with
  | [a, b, c, d] => do
    return ⟨← readOctet? a, ← readOctet? b, ← readOctet? c, ← readOctet? d⟩
  | _ => none

/-- Reads a group of one to four digits. -/
def readGroup? (text : List Char) : Option UInt16 :=
  if text.length > 4 then none else (readDigits? 16 65536 text).map UInt16.ofNat

/-- Reads groups with colons between them. -/
def readGroups? (text : List Char) : Option (List UInt16) :=
  if text.isEmpty then some [] else (text.splitOn ':').mapM readGroup?

/-- Reads groups of which the last two may be an IPv4 address. -/
def readTail? (text : List Char) : Option (List UInt16) :=
  match cutLast? ':' text with
  | none =>
    match Ipv4.parse? text with
    | some ip => some [group ip.a ip.b, group ip.c ip.d]
    | none => readGroups? text
  | some (first, last) =>
    match Ipv4.parse? last with
    | some ip => do
      let groups ← (first.splitOn ':').mapM readGroup?
      return groups ++ [group ip.a ip.b, group ip.c ip.d]
    | none => readGroups? text

/-- The parts before and after the first `::`. -/
def cutGap? : List Char → Option (List Char × List Char)
  | [] => none
  | ':' :: ':' :: rest => some ([], rest)
  | c :: rest => (cutGap? rest).map fun (first, last) => (c :: first, last)

/-- The address of eight groups. -/
def Ipv6.ofGroups? : List UInt16 → Option Ipv6
  | [g₀, g₁, g₂, g₃, g₄, g₅, g₆, g₇] => some ⟨g₀, g₁, g₂, g₃, g₄, g₅, g₆, g₇⟩
  | _ => none

/-- Reads an IPv6 address. -/
def Ipv6.parse? (text : List Char) : Option Ipv6 :=
  match cutGap? text with
  | none => (readTail? text).bind ofGroups?
  | some (first, last) => do
    let first ← readGroups? first
    let last ← readTail? last
    let present := first.length + last.length
    if present < 8 then ofGroups? (first ++ List.replicate (8 - present) 0 ++ last) else none

/-- Reads an address of either family. -/
def Ip.parse? (text : List Char) : Option Ip :=
  match Ipv4.parse? text with
  | some ip => some (.v4 ip)
  | none => (Ipv6.parse? text).map .v6

end MediaTransport.Address
