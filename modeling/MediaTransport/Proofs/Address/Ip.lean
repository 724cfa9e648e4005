import MediaTransport.Address.Ip
import MediaTransport.Proofs.Bytes

/-!
# IPv4 among IPv6

Every IPv4 address stands among the IPv6 addresses, and can be told from its place there
(`unmapped?_mapped`).  The other addresses stand for no IPv4 address (`unmapped?_eq_some_iff`).

The place of `a.b.c.d` is `::ffff:a.b.c.d`, and an IPv6 address is its own place
(`Ip.HasPlace`).
-/

namespace MediaTransport.Address

open Bytes

/-- A group is a number of two digits to the base 256. -/
theorem toNat_group (high low : UInt8) :
    (group high low).toNat = high.toNat * 2 ^ 8 + low.toNat :=
  toNat_toUInt16 high low

theorem group_high (high low : UInt8) : (group high low >>> 8).toUInt8 = high := by
  have hhigh := high.toNat_lt
  have hlow := low.toNat_lt
  apply UInt8.toNat_inj.mp
  rw [UInt16.toNat_toUInt8, UInt16.toNat_shiftRight, toNat_group, Nat.shiftRight_eq_div_pow]
  rw [show (8 : UInt16).toNat % 16 = 8 from rfl]
  omega

theorem group_low (high low : UInt8) : (group high low).toUInt8 = low := by
  have hlow := low.toNat_lt
  apply UInt8.toNat_inj.mp
  rw [UInt16.toNat_toUInt8, toNat_group]
  omega

@[simp] theorem unmapped?_mapped (ip : Ipv4) : ip.mapped.unmapped? = some ip := by
  simp [Ipv6.unmapped?, Ipv4.mapped, group_high, group_low]

/-- Only the mapped form of an address unmaps to it. -/
theorem unmapped?_eq_some_iff {ip : Ipv6} {v4 : Ipv4} :
    ip.unmapped? = some v4 ↔ ip = v4.mapped := by
  constructor
  · intro h
    obtain ⟨g₀, g₁, g₂, g₃, g₄, g₅, g₆, g₇⟩ := ip
    obtain ⟨⟨rfl, rfl, rfl, rfl, rfl, rfl⟩, hv4⟩ := Option.ite_none_right_eq_some.1 h
    obtain rfl := Option.some.inj hv4
    have hgroup : ∀ g : UInt16, group (g >>> 8).toUInt8 g.toUInt8 = g := toUInt16_ofUInt16
    rw [Ipv4.mapped, hgroup, hgroup]
  · rintro rfl
    exact unmapped?_mapped v4

theorem unmapped?_eq_none_iff {ip : Ipv6} :
    ip.unmapped? = none ↔ ∀ v4 : Ipv4, ip ≠ v4.mapped := by
  rw [Option.eq_none_iff_forall_ne_some]
  exact forall_congr' fun v4 => not_congr unmapped?_eq_some_iff

/-- The place of an address among the IPv6 addresses.  That of `a.b.c.d` is `::ffff:a.b.c.d`, which
has two of the four numbers in each of its last groups. -/
inductive Ip.HasPlace : Ip → Ipv6 → Prop where
  | v4 {ip : Ipv4} {high low : UInt16} (hhigh : high.toNat = ip.a.toNat * 256 + ip.b.toNat)
      (hlow : low.toNat = ip.c.toNat * 256 + ip.d.toNat) :
      HasPlace (.v4 ip) ⟨0, 0, 0, 0, 0, 0xFFFF, high, low⟩
  | v6 (ip : Ipv6) : HasPlace (.v6 ip) ip

/-- Every address has the place that it maps to. -/
theorem hasPlace_mapped (ip : Ip) : ip.HasPlace ip.mapped := by
  cases ip with
  | v4 ip => exact .v4 (toNat_group ip.a ip.b) (toNat_group ip.c ip.d)
  | v6 ip => exact .v6 ip

/-- No address has two places. -/
theorem hasPlace_iff {ip : Ip} {place : Ipv6} : ip.HasPlace place ↔ place = ip.mapped := by
  constructor
  · intro h
    cases h with
    | @v4 ip high low hhigh hlow =>
      obtain rfl : high = group ip.a ip.b :=
        UInt16.toNat_inj.1 (hhigh.trans (toNat_group ip.a ip.b).symm)
      obtain rfl : low = group ip.c ip.d :=
        UInt16.toNat_inj.1 (hlow.trans (toNat_group ip.c ip.d).symm)
      rfl
    | v6 ip => rfl
  · rintro rfl
    exact hasPlace_mapped ip

/-- An IPv6 address stands for the IPv4 address whose place it is. -/
theorem unmapped?_eq_some_iff_hasPlace {ip : Ipv6} {v4 : Ipv4} :
    ip.unmapped? = some v4 ↔ (Ip.v4 v4).HasPlace ip := by
  rw [unmapped?_eq_some_iff, hasPlace_iff]
  rfl

/-- The addresses that do not unmap are the places of no IPv4 address. -/
theorem unmapped?_eq_none_iff_hasPlace {ip : Ipv6} :
    ip.unmapped? = none ↔ ∀ v4 : Ipv4, ¬(Ip.v4 v4).HasPlace ip := by
  rw [Option.eq_none_iff_forall_ne_some]
  exact forall_congr' fun v4 => not_congr unmapped?_eq_some_iff_hasPlace

end MediaTransport.Address
