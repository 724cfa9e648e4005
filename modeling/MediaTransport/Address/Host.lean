import MediaTransport.Address.Ip
import MediaTransport.Error

/-!
# Hosts

A host is given by a numeric address or by a name that is still to be looked up.
A *resolved* host is a list of alternatives that is never empty, in the order in
which they should be tried.  All alternatives are kept as IPv6 addresses, so that
comparisons never look at the family.

A text that is a literal, in square brackets or not, is a numeric host; every
other text that is not blank is a name.
-/

namespace MediaTransport.Address

open Text

/-- A host. -/
inductive Host where
  /-- A numeric IPv4 address. -/
  | ipv4 (ip : Ipv4)
  /-- A numeric IPv6 address. -/
  | ipv6 (ip : Ipv6)
  /-- A name. -/
  | name (name : String)
  deriving DecidableEq, Repr

/-- The host of an address. -/
def Host.ofIp : Ip → Host
  | .v4 ip => .ipv4 ip
  | .v6 ip => .ipv6 ip

/-- The host that stands for every local address. -/
def Host.unspecified : Host := .ipv4 .unspecified

/-- The text inside square brackets, or the text itself. -/
def withoutBrackets (text : List Char) : List Char :=
  ((afterOpening? ['['] text).bind (beforeLast? ']')).getD text

/-- Reads a host. -/
def Host.parse (text : List Char) : Except Error Host :=
  let text := trim text
  if text.isEmpty then .error (.invalidConfig .emptyAddress)
  else
    match Ip.parse? (withoutBrackets text) with
    | some ip => .ok (.ofIp ip)
    | none => .ok (.name (String.ofList text))

/-- The text of a host. -/
def Host.render : Host → String
  | .ipv4 ip => ip.render
  | .ipv6 ip => ip.render
  | .name text => text

/-! ## Resolution -/

/-- The alternatives of a host. -/
structure Resolved where
  /-- The one to try first. -/
  first : Ipv6
  /-- The others, in order. -/
  others : List Ipv6
  deriving DecidableEq, Repr

/-- The alternatives, in order. -/
def Resolved.alternatives (r : Resolved) : List Ipv6 :=
  r.first :: r.others

/-- The resolution with given alternatives, if there are any. -/
def Resolved.ofList? : List Ipv6 → Option Resolved
  | [] => none
  | first :: others => some ⟨first, others⟩

/-- Whether an address is one of the alternatives. -/
def Resolved.contains (r : Resolved) (ip : Ipv6) : Bool :=
  r.alternatives.contains ip

/-- The first alternative in its own family. -/
def Resolved.primary (r : Resolved) : Ip :=
  r.first.native

/-- The local address that stands for every one in the family of the first
alternative. -/
def Resolved.wildcard (r : Resolved) : Resolved :=
  match r.primary with
  | .v4 _ => ⟨Ipv4.unspecified.mapped, []⟩
  | .v6 _ => ⟨.unspecified, []⟩

/-- A name service: the addresses of a name, or why there are none. -/
abbrev Lookup := String → Except String (List Ip)

/-- The name service of a host without a network.  It knows the names that are
literals. -/
def Lookup.numeric : Lookup := fun name =>
  match Ip.parse? name.toList with
  | some ip => .ok [ip]
  | none =>
    if name.toList.contains '\x00' then .error "file name contained an unexpected NUL byte"
    else .error "failed to lookup address information: Temporary failure in name resolution"

/-- Addresses without those that came before. -/
def withoutRepeats (ips : List Ipv6) : List Ipv6 :=
  ips.foldl (fun seen ip => if seen.contains ip then seen else seen ++ [ip]) []

/-- Resolves a name. -/
def resolveName (lookup : Lookup) (name : String) : Except Error Resolved :=
  match lookup name with
  | .error reason => .error (.resolution name reason)
  | .ok ips =>
    match Resolved.ofList? (withoutRepeats (ips.map Ip.mapped)) with
    | some r => .ok r
    | none => .error (.resolution name "no usable addresses")

/-- Resolves a host.  A numeric one has itself as its only alternative. -/
def Host.resolve (lookup : Lookup) : Host → Except Error Resolved
  | .ipv4 ip => .ok ⟨ip.mapped, []⟩
  | .ipv6 ip => .ok ⟨ip, []⟩
  | .name text => resolveName lookup text

end MediaTransport.Address
