import MediaTransport.Proofs.Address.Ip
import MediaTransport.Proofs.Address.Literals

/-!
# The written text of an IPv6 address

RFC 5952 gives every IPv6 address one text (`IsCanonical`).  An address that stands for an IPv4
address has a dotted end.  Of the others, one with two zero groups side by side has a gap in the
place of the longest run of them, the first of equal ones (`IsLongestRun`), and the rest are written
in full.

That is the text that is written (`isCanonical_render`), and since it is in the grammar of the
reader (`IsCanonical.isIpv6`), every address is read back.
-/

namespace MediaTransport.Address

open Text

/-! ## Runs of zero groups -/

/-- There are zero groups from a position on. -/
def IsRun (groups : List UInt16) (start length : ℕ) : Prop :=
  ∀ i < length, groups[start + i]? = some 0

/-- A run that no other one is longer than, and none of the same length stands before. -/
structure IsLongestRun (groups : List UInt16) (start length : ℕ) : Prop where
  /-- The groups are zero. -/
  run : IsRun groups start length
  /-- There are no more of them anywhere. -/
  longest : ∀ other more, IsRun groups other more → more ≤ length
  /-- There are not as many before. -/
  first : ∀ other < start, ¬IsRun groups other length

theorem isRun_succ {g : UInt16} {groups : List UInt16} {start length : ℕ} :
    IsRun (g :: groups) (start + 1) length ↔ IsRun groups start length := by
  simp [IsRun, Nat.add_right_comm]

theorem isRun_zero_succ {g : UInt16} {groups : List UInt16} {length : ℕ} :
    IsRun (g :: groups) 0 (length + 1) ↔ g = 0 ∧ IsRun groups 0 length := by
  constructor
  · intro h
    exact ⟨by simpa using h 0 (Nat.succ_pos length),
      fun i hi => by simpa using h (i + 1) (Nat.succ_lt_succ hi)⟩
  · rintro ⟨rfl, h⟩ i hi
    cases i with
    | zero => rfl
    | succ i => simpa using h i (Nat.lt_of_succ_lt_succ hi)

/-- The runs at the start are the ones within the leading zeros. -/
theorem isRun_zero_iff {groups : List UInt16} {length : ℕ} :
    IsRun groups 0 length ↔ length ≤ leadingZeros groups := by
  induction groups generalizing length with
  | nil =>
    cases length with
    | zero => simp [IsRun]
    | succ length =>
      refine iff_of_false (fun h => ?_) (Nat.not_succ_le_zero length)
      cases h 0 (Nat.succ_pos length)
  | cons g groups ih =>
    cases length with
    | zero => simp [IsRun]
    | succ length =>
      rw [isRun_zero_succ, ih]
      by_cases hg : g = 0 <;> simp [leadingZeros, hg]

/-- The run that is cut out is a longest one and the first of these. -/
theorem isLongestRun_longestZeros (groups : List UInt16) :
    IsLongestRun groups (longestZeros groups).1 (longestZeros groups).2 := by
  induction groups with
  | nil =>
    refine ⟨nofun, ?_, nofun⟩
    intro other more h
    by_contra hmore
    cases h 0 (Nat.pos_of_ne_zero fun hzero => hmore (Nat.le_of_eq hzero))
  | cons g groups ih =>
    cases hrest : longestZeros groups with
    | mk start length =>
      rw [hrest] at ih
      obtain ⟨hrun, hlongest, hfirst⟩ := ih
      simp only [longestZeros, hrest]
      split
      next hlt =>
        refine ⟨isRun_succ.2 hrun, ?_, ?_⟩
        · intro other more h
          cases other with
          | zero => exact Nat.le_trans (isRun_zero_iff.1 h) (Nat.le_of_lt hlt)
          | succ other => exact hlongest other more (isRun_succ.1 h)
        · intro other hother h
          cases other with
          | zero => exact Nat.not_le.2 hlt (isRun_zero_iff.1 h)
          | succ other => exact hfirst other (Nat.lt_of_succ_lt_succ hother) (isRun_succ.1 h)
      next hle =>
        refine ⟨isRun_zero_iff.2 (Nat.le_refl _), ?_, nofun⟩
        intro other more h
        cases other with
        | zero => exact isRun_zero_iff.1 h
        | succ other => exact Nat.le_trans (hlongest other more (isRun_succ.1 h)) (Nat.not_lt.1 hle)

/-- A run can be put back in its place. -/
theorem IsRun.take_append_drop {groups : List UInt16} {start length : ℕ}
    (h : IsRun groups start length) (hpos : 0 < length) :
    start + length ≤ groups.length ∧
      groups = groups.take start ++ List.replicate length 0 ++ groups.drop (start + length) := by
  obtain ⟨hlt, -⟩ := List.getElem?_eq_some_iff.1 (h (length - 1) (by omega))
  refine ⟨by omega, ?_⟩
  have hzeros : (groups.drop start).take length = List.replicate length 0 := by
    refine List.eq_replicate_iff.2 ⟨by simp; omega, fun g hg => ?_⟩
    obtain ⟨i, hi, rfl⟩ := List.mem_iff_getElem.1 hg
    have hlength : i < length := Nat.lt_of_lt_of_le hi (List.length_take_le _ _)
    have hgroup := h i hlength
    rw [List.getElem?_eq_getElem (by omega), Option.some_inj] at hgroup
    rw [List.getElem_take, List.getElem_drop, hgroup]
  rw [← hzeros, List.append_assoc, ← List.drop_drop, List.take_append_drop, List.take_append_drop]

/-! ## The canonical text -/

/-- The text that RFC 5952 gives an address. -/
inductive IsCanonical (ip : Ipv6) : String → Prop where
  /-- An address that stands for an IPv4 address. -/
  | mapped {v4 : Ipv4} (h : ip = v4.mapped) : IsCanonical ip ("::ffff:" ++ v4.render)
  /-- An address with a run of zero groups. -/
  | compressed {start length : ℕ} (h : ∀ v4 : Ipv4, ip ≠ v4.mapped)
      (hrun : IsLongestRun ip.groups start length) (hlength : 2 ≤ length) :
      IsCanonical ip (renderGroups (ip.groups.take start) ++ "::"
        ++ renderGroups (ip.groups.drop (start + length)))
  /-- An address in which no two zero groups stand side by side. -/
  | full (h : ∀ v4 : Ipv4, ip ≠ v4.mapped) (hrun : ∀ start, ¬IsRun ip.groups start 2) :
      IsCanonical ip (renderGroups ip.groups)

/-- What is written is the canonical text of the address. -/
theorem isCanonical_render (ip : Ipv6) : IsCanonical ip ip.render := by
  rw [Ipv6.render]
  split
  next v4 hv4 => exact .mapped (unmapped?_eq_some_iff.1 hv4)
  next hnone =>
    have hmapped := unmapped?_eq_none_iff.1 hnone
    have hrun := isLongestRun_longestZeros ip.groups
    split
    next start length heq =>
      rw [heq] at hrun
      split
      next hlength => exact .compressed hmapped hrun hlength
      next hlength =>
        refine .full hmapped fun start h => hlength ?_
        exact hrun.longest start 2 h

/-! ## Reading -/

theorem isGroup_toDigits (g : UInt16) : IsGroup (Nat.toDigits 16 g.toNat) g where
  length := (Nat.length_toDigits_le_iff (by decide) (by decide)).2 g.toNat_lt
  digits := isHexDigits_toDigits g.toNat

theorem forall₂_isGroup_toDigits (groups : List UInt16) :
    List.Forall₂ IsGroup (groups.map fun g => Nat.toDigits 16 g.toNat) groups := by
  rw [List.forall₂_map_left_iff, List.forall₂_same]
  exact fun g _ => isGroup_toDigits g

theorem toList_renderGroups (groups : List UInt16) :
    (renderGroups groups).toList
      = [':'].intercalate (groups.map fun g => Nat.toDigits 16 g.toNat) := by
  simp [renderGroups, joinWith, String.toList_intercalate, Function.comp_def]

/-- Groups are written as a list that reads back as the same groups. -/
theorem isGroups_renderGroups (groups : List UInt16) :
    IsGroups (renderGroups groups).toList groups := by
  rw [toList_renderGroups]
  exact .intro (forall₂_isGroup_toDigits groups)

/-- The canonical text is one of the texts of the address. -/
theorem IsCanonical.isIpv6 {ip : Ipv6} {text : String} (h : IsCanonical ip text) :
    IsIpv6 text.toList ip := by
  cases h with
  | @mapped v4 h =>
    have hfirst : IsGroups [] [] := .intro .nil
    have hgroup : IsGroup "ffff".toList 0xFFFF := isGroup_toDigits 0xFFFF
    have hlast := IsTail.dotted (.cons hgroup .nil) v4
    have htext : ("::ffff:" ++ v4.render).toList
        = [] ++ ':' :: ':' :: [':'].intercalate (["ffff".toList] ++ [v4.render.toList]) := by
      simp [List.intercalate_cons_cons]
    rw [htext]
    exact .gap hfirst hlast (show 0 + 3 < 8 by decide) (by rw [h]; rfl)
  | @compressed start length h hrun hlength =>
    obtain ⟨hle, hgroups⟩ := hrun.run.take_append_drop (by omega)
    have height : ip.groups.length = 8 := rfl
    have htake : (ip.groups.take start).length = start := by
      rw [List.length_take]
      omega
    have hdrop : (ip.groups.drop (start + length)).length = 8 - (start + length) := by
      rw [List.length_drop, height]
    have hmissing : 8 - ((ip.groups.take start).length
        + (ip.groups.drop (start + length)).length) = length := by omega
    rw [String.toList_append, String.toList_append, List.append_assoc]
    refine .gap (isGroups_renderGroups _) (.groups (isGroups_renderGroups _)) (by omega) ?_
    rw [hmissing]
    exact hgroups
  | full h hrun => exact .full (.groups (isGroups_renderGroups ip.groups))

/-- Every address is read back from its text. -/
theorem isIpv6_render (ip : Ipv6) : IsIpv6 ip.render.toList ip :=
  (isCanonical_render ip).isIpv6

end MediaTransport.Address
