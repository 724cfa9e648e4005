import MediaTransport.Address.Ip
import MediaTransport.Proofs.Text.Hexadecimal
import MediaTransport.Proofs.Text.Separators

/-!
# Numeric addresses as texts

An IPv4 address has one text, the written one, since its numbers may not start with zeros
(`Ipv4.parse?_eq_some_iff`).

An IPv6 address has many texts.  They are described by a grammar (`IsIpv6`) that does not mention
the reader: hexadecimal groups with colons between them (`IsGroups`), the last two of which may be an
IPv4 address (`IsTail`), either eight of them or fewer with a gap of two colons for the missing ones.
An address is read just when the text is in the grammar (`Ipv6.parse?_eq_some_iff`).  Groups have a
digit each, so the gap is the first place where two colons meet (`cutGap?_append`).

The characters of a literal are digits, colons and dots, so it has no bracket, slash or blank in it.
-/

namespace MediaTransport.Address

open Text

/-! ## IPv4 -/

/-- A decimal digit is the text of its value. -/
theorem toDigits_of_digitValue? {c : Char} {d : ℕ} (h : digitValue? 10 c = some d) :
    Nat.toDigits 10 d = [c] := by
  obtain ⟨hlt, hc⟩ := toNat_of_digitValue? h
  have hchar : d.digitChar = c := by
    rw [← Char.toNat_inj, Nat.toNat_digitChar_of_lt_ten hlt]
    omega
  rw [Nat.toDigits_of_lt_base hlt, hchar]

/-- Digits that continue a positive number are its own digits, with those that were there. -/
theorem toDigits_append_of_extendNumber? {bound value n : ℕ} {text : List Char} (hvalue : 0 < value)
    (h : extendNumber? 10 bound value text = some n) :
    Nat.toDigits 10 value ++ text = Nat.toDigits 10 n := by
  induction text generalizing value with
  | nil =>
    obtain rfl : value = n := Option.some.inj h
    exact List.append_nil _
  | cons c text ih =>
    obtain ⟨d, hd, -, hrest⟩ := extendNumber?_cons_eq_some_iff.1 h
    have hlt := (toNat_of_digitValue? hd).1
    have hchar : Nat.toDigits 10 d = [c] := toDigits_of_digitValue? hd
    rw [← ih (by omega) hrest, Nat.mul_comm value 10,
      ← Nat.toDigits_append_toDigits (by decide) hvalue hlt, hchar, List.append_assoc]
    rfl

/-- A number of an IPv4 address has one text. -/
theorem readOctet?_eq_some_iff {text : List Char} {n : UInt8} :
    readOctet? text = some n ↔ text = (toString n).toList := by
  have hwritten : ∀ n < 256, readOctet? (Nat.toDigits 10 n) = some (UInt8.ofNat n) := by
    decide +kernel
  constructor
  · intro h
    obtain ⟨hzeros, h⟩ := Option.ite_none_left_eq_some.1 h
    obtain ⟨value, hread, rfl⟩ := Option.map_eq_some_iff.1 h
    have hlt := (readDigits?_eq_some_iff.1 hread).2
    change text = (toString (UInt8.ofNat value).toNat).toList
    rw [UInt8.toNat_ofNat_of_lt' hlt, toList_toString]
    cases text with
    | nil => cases hread
    | cons c rest =>
      obtain ⟨d, hd, -, hrest⟩ := extendNumber?_cons_eq_some_iff.1 hread
      rw [Nat.zero_mul, Nat.zero_add] at hrest
      by_cases hzero : d = 0
      · -- a zero stands alone
        subst hzero
        have hc : c = '0' := by simpa using (toDigits_of_digitValue? hd).symm
        have hnil : rest = [] := by
          by_contra hne
          have hlength : (c :: rest).length > 1 := Nat.succ_lt_succ (List.length_pos_of_ne_nil hne)
          exact hzeros (.inr ⟨hlength, by rw [hc, List.head?_cons]⟩)
        subst hnil
        cases hrest
        rw [hc]
        rfl
      · rw [← toDigits_append_of_extendNumber? (Nat.pos_of_ne_zero hzero) hrest,
          toDigits_of_digitValue? hd]
        rfl
  · rintro rfl
    change readOctet? (toString n.toNat).toList = some n
    rw [toList_toString, hwritten n.toNat n.toNat_lt, UInt8.ofNat_toNat]

/-- There is no dot inside an octet, so the dots of an address are the ones between octets. -/
theorem dot_not_mem_toString (n : UInt8) : '.' ∉ (toString n).toList :=
  fun h => absurd (isDigit_of_mem_toString (n := n.toNat) h) (by decide)

theorem Ipv4.toList_render (ip : Ipv4) :
    ip.render.toList = ['.'].intercalate [(toString ip.a).toList, (toString ip.b).toList,
      (toString ip.c).toList, (toString ip.d).toList] := by
  simp [Ipv4.render, List.intercalate_cons_cons]

/-- An IPv4 address is read just from its written text. -/
theorem Ipv4.parse?_eq_some_iff {text : List Char} {ip : Ipv4} :
    Ipv4.parse? text = some ip ↔ text = ip.render.toList := by
  rw [Ipv4.parse?]
  constructor
  · intro h
    split at h
    next a b c d hsplit =>
      obtain ⟨-, -, rfl⟩ := splitOn_eq_iff.1 hsplit
      obtain ⟨a', ha, h⟩ := Option.bind_eq_some_iff.1 h
      obtain ⟨b', hb, h⟩ := Option.bind_eq_some_iff.1 h
      obtain ⟨c', hc, h⟩ := Option.bind_eq_some_iff.1 h
      obtain ⟨d', hd, h⟩ := Option.bind_eq_some_iff.1 h
      cases h
      rw [Ipv4.toList_render, readOctet?_eq_some_iff.1 ha, readOctet?_eq_some_iff.1 hb,
        readOctet?_eq_some_iff.1 hc, readOctet?_eq_some_iff.1 hd]
    next => cases h
  · rintro rfl
    have hsplit : ip.render.toList.splitOn '.' = [(toString ip.a).toList, (toString ip.b).toList,
        (toString ip.c).toList, (toString ip.d).toList] := by
      refine splitOn_eq_iff.2 ⟨List.cons_ne_nil _ _, ?_, ip.toList_render.symm⟩
      simp only [List.forall_mem_cons, dot_not_mem_toString, not_false_eq_true, true_and]
      exact List.forall_mem_nil _
    have hread : ∀ n : UInt8, readOctet? (toString n).toList = some n :=
      fun n => readOctet?_eq_some_iff.2 rfl
    rw [hsplit]
    simp [hread]

/-! ## IPv6 -/

/-- A group of one to four digits. -/
structure IsGroup (text : List Char) (g : UInt16) : Prop where
  /-- There are no more than four. -/
  length : text.length ≤ 4
  /-- They stand for the group. -/
  digits : IsHexDigits text g.toNat

/-- Groups with colons between them; none at all are an empty text. -/
inductive IsGroups : List Char → List UInt16 → Prop where
  | intro {pieces : List (List Char)} {groups : List UInt16}
      (h : List.Forall₂ IsGroup pieces groups) : IsGroups ([':'].intercalate pieces) groups

/-- Groups of which the last two may be an IPv4 address. -/
inductive IsTail : List Char → List UInt16 → Prop where
  | groups {text : List Char} {groups : List UInt16} (h : IsGroups text groups) :
      IsTail text groups
  | dotted {pieces : List (List Char)} {groups : List UInt16}
      (h : List.Forall₂ IsGroup pieces groups) (ip : Ipv4) :
      IsTail ([':'].intercalate (pieces ++ [ip.render.toList]))
        (groups ++ [group ip.a ip.b, group ip.c ip.d])

/-- A text of an IPv6 address: eight groups, or fewer with a gap for the zeros between them. -/
inductive IsIpv6 : List Char → Ipv6 → Prop where
  | full {text : List Char} {ip : Ipv6} (h : IsTail text ip.groups) : IsIpv6 text ip
  | gap {first last : List Char} {front back : List UInt16} {ip : Ipv6}
      (hfirst : IsGroups first front) (hlast : IsTail last back)
      (hlt : front.length + back.length < 8)
      (hip : ip.groups = front ++ List.replicate (8 - (front.length + back.length)) 0 ++ back) :
      IsIpv6 (first ++ ':' :: ':' :: last) ip

theorem mapM_eq_some_iff {α β : Type} {f : α → Option β} {xs : List α} {ys : List β} :
    xs.mapM f = some ys ↔ List.Forall₂ (fun x y => f x = some y) xs ys := by
  induction xs generalizing ys with
  | nil => simp [List.forall₂_nil_left_iff, eq_comm]
  | cons x xs ih =>
    rw [List.mapM_cons]
    constructor
    · intro h
      obtain ⟨y, hy, h⟩ := Option.bind_eq_some_iff.1 h
      obtain ⟨rest, hrest, h⟩ := Option.bind_eq_some_iff.1 h
      cases h
      exact .cons hy (ih.1 hrest)
    · intro h
      cases h with
      | cons hy hrest => simp [hy, ih.2 hrest]

/-- A group is read from one to four hexadecimal digits. -/
theorem readGroup?_eq_some_iff {text : List Char} {g : UInt16} :
    readGroup? text = some g ↔ IsGroup text g := by
  rw [readGroup?]
  constructor
  · intro h
    obtain ⟨hlength, h⟩ := Option.ite_none_left_eq_some.1 h
    obtain ⟨value, hread, rfl⟩ := Option.map_eq_some_iff.1 h
    obtain ⟨hdigits, hlt⟩ := readHexDigits?_eq_some_iff.1 hread
    refine ⟨Nat.le_of_not_lt hlength, ?_⟩
    rwa [UInt16.toNat_ofNat_of_lt' hlt]
  · rintro ⟨hlength, hdigits⟩
    rw [if_neg (Nat.not_lt.2 hlength),
      readHexDigits?_eq_some_iff.2 ⟨hdigits, g.toNat_lt⟩, Option.map_some, UInt16.ofNat_toNat]

/-! ### Pieces between colons -/

/-- Pieces that colons keep apart. -/
def AreSolid (pieces : List (List Char)) : Prop :=
  ∀ piece ∈ pieces, piece ≠ [] ∧ ':' ∉ piece

theorem areSolid_of_forall₂ {pieces : List (List Char)} {groups : List UInt16}
    (h : List.Forall₂ IsGroup pieces groups) : AreSolid pieces := by
  induction h with
  | nil => exact List.forall_mem_nil _
  | cons hg _ ih => exact List.forall_mem_cons.2 ⟨⟨hg.digits.ne_nil, hg.digits.not_mem rfl⟩, ih⟩

/-- Pieces without colons are found again between the colons. -/
theorem AreSolid.splitOn_eq {pieces : List (List Char)} (h : AreSolid pieces) (hne : pieces ≠ []) :
    ([':'].intercalate pieces).splitOn ':' = pieces :=
  splitOn_eq_iff.2 ⟨hne, fun piece hpiece => (h piece hpiece).2, rfl⟩

theorem AreSolid.intercalate_ne_nil {pieces : List (List Char)} (h : AreSolid pieces)
    (hne : pieces ≠ []) : [':'].intercalate pieces ≠ [] := by
  intro hnil
  have hsplit := h.splitOn_eq hne
  rw [hnil, List.splitOn_nil] at hsplit
  rw [← hsplit] at h
  exact (h [] List.mem_cons_self).1 rfl

/-- Groups are read just when each piece between colons is one. -/
theorem mapM_splitOn_eq_some_iff {text : List Char} {groups : List UInt16} :
    (text.splitOn ':').mapM readGroup? = some groups ↔
      ∃ pieces, pieces ≠ [] ∧ List.Forall₂ IsGroup pieces groups ∧
        text = [':'].intercalate pieces := by
  rw [mapM_eq_some_iff]
  simp only [readGroup?_eq_some_iff]
  constructor
  · intro h
    exact ⟨_, List.splitOn_ne_nil ':' text, h, (List.intercalate_splitOn ':').symm⟩
  · rintro ⟨pieces, hne, h, rfl⟩
    rwa [(areSolid_of_forall₂ h).splitOn_eq hne]

/-- A list of groups is read piece by piece, and the empty text is the empty list. -/
theorem readGroups?_eq_some_iff {text : List Char} {groups : List UInt16} :
    readGroups? text = some groups ↔ IsGroups text groups := by
  rw [readGroups?]
  constructor
  · intro h
    split at h
    next hnil =>
      cases h
      rw [List.isEmpty_iff] at hnil
      subst hnil
      exact .intro .nil
    next =>
      obtain ⟨pieces, -, hgroups, rfl⟩ := mapM_splitOn_eq_some_iff.1 h
      exact .intro hgroups
  · intro h
    cases h with
    | @intro pieces _ hgroups =>
      by_cases hne : pieces = []
      · subst hne
        cases hgroups
        rfl
      · have hnil := (areSolid_of_forall₂ hgroups).intercalate_ne_nil hne
        rw [if_neg (by simpa using hnil)]
        exact mapM_splitOn_eq_some_iff.2 ⟨pieces, hne, hgroups, rfl⟩

/-! ### A dotted end -/

theorem Ipv4.mem_render {ip : Ipv4} {c : Char} (h : c ∈ ip.render.toList) :
    c = '.' ∨ c.isDigit = true := by
  rw [Ipv4.toList_render] at h
  obtain hdot | ⟨piece, hpiece, hc⟩ := exists_mem_of_mem_intercalate h
  · exact .inl hdot
  · refine .inr ?_
    simp only [List.mem_cons, List.not_mem_nil, or_false] at hpiece
    rcases hpiece with rfl | rfl | rfl | rfl
    · exact isDigit_of_mem_toString (n := ip.a.toNat) hc
    · exact isDigit_of_mem_toString (n := ip.b.toNat) hc
    · exact isDigit_of_mem_toString (n := ip.c.toNat) hc
    · exact isDigit_of_mem_toString (n := ip.d.toNat) hc

theorem Ipv4.not_mem_render (ip : Ipv4) {c : Char} (hdot : c ≠ '.') (hdigit : c.isDigit = false) :
    c ∉ ip.render.toList := by
  intro h
  rcases Ipv4.mem_render h with rfl | hc
  · exact hdot rfl
  · exact Bool.noConfusion (hdigit.symm.trans hc)

theorem Ipv4.dot_mem_render (ip : Ipv4) : '.' ∈ ip.render.toList := by
  simp [Ipv4.render]

theorem areSolid_dotted {pieces : List (List Char)} {groups : List UInt16}
    (h : List.Forall₂ IsGroup pieces groups) (ip : Ipv4) :
    AreSolid (pieces ++ [ip.render.toList]) := by
  refine List.forall_mem_append.2 ⟨areSolid_of_forall₂ h, List.forall_mem_singleton.2 ⟨?_, ?_⟩⟩
  · exact List.ne_nil_of_mem ip.dot_mem_render
  · exact ip.not_mem_render (by decide) rfl

/-- Only hexadecimal digits stand in groups. -/
theorem exists_isHexDigit_of_forall₂ {pieces : List (List Char)} {groups : List UInt16}
    (h : List.Forall₂ IsGroup pieces groups) :
    ∀ piece ∈ pieces, ∀ c ∈ piece, ∃ d, IsHexDigit c d := by
  induction h with
  | nil => exact List.forall_mem_nil _
  | cons hg _ ih => exact List.forall_mem_cons.2 ⟨hg.digits.exists_isHexDigit, ih⟩

theorem IsGroups.eq_or_exists_isHexDigit {text : List Char} {groups : List UInt16} {c : Char}
    (h : IsGroups text groups) (hc : c ∈ text) : c = ':' ∨ ∃ d, IsHexDigit c d := by
  obtain ⟨h⟩ := h
  refine (exists_mem_of_mem_intercalate hc).imp_right ?_
  rintro ⟨piece, hpiece, hc⟩
  exact exists_isHexDigit_of_forall₂ h piece hpiece c hc

/-- Groups have no dot in them, so their end is not read as an IPv4 address. -/
theorem IsGroups.dot_not_mem {text : List Char} {groups : List UInt16} (h : IsGroups text groups) :
    '.' ∉ text := by
  intro hmem
  obtain hc | ⟨d, hd⟩ := h.eq_or_exists_isHexDigit hmem
  · cases hc
  · exact not_isHexDigit rfl d hd

/-- Dotted addresses have a dot. -/
theorem parse?_eq_none_of_dot_not_mem {text : List Char} (h : '.' ∉ text) :
    Ipv4.parse? text = none := by
  rw [Option.eq_none_iff_forall_ne_some]
  intro ip hip
  rw [Ipv4.parse?_eq_some_iff] at hip
  rw [hip] at h
  exact h ip.dot_mem_render

/-- The tail of an address is a list of groups, of which the last two may be dotted. -/
theorem readTail?_eq_some_iff {text : List Char} {groups : List UInt16} :
    readTail? text = some groups ↔ IsTail text groups := by
  rw [readTail?]
  constructor
  · intro h
    split at h
    next hcut =>
      split at h
      next ip hip =>
        cases h
        rw [Ipv4.parse?_eq_some_iff] at hip
        subst hip
        simpa using IsTail.dotted .nil ip
      next => exact .groups (readGroups?_eq_some_iff.1 h)
    next first last hcut =>
      obtain ⟨rfl, -⟩ := cutLast?_eq_some hcut
      split at h
      next ip hip =>
        obtain ⟨front, hfront, h⟩ := Option.bind_eq_some_iff.1 h
        cases h
        rw [Ipv4.parse?_eq_some_iff] at hip
        obtain ⟨pieces, hne, hpieces, rfl⟩ := mapM_splitOn_eq_some_iff.1 hfront
        rw [hip, ← intercalate_concat hne]
        exact .dotted hpieces ip
      next => exact .groups (readGroups?_eq_some_iff.1 h)
  · intro h
    cases h with
    | groups h =>
      have hdot := h.dot_not_mem
      split
      next => rw [parse?_eq_none_of_dot_not_mem hdot, readGroups?_eq_some_iff.2 h]
      next first last hcut =>
        rw [(cutLast?_eq_some hcut).1, List.mem_append, List.mem_cons, not_or, not_or] at hdot
        rw [parse?_eq_none_of_dot_not_mem hdot.2.2]
        exact readGroups?_eq_some_iff.2 h
    | @dotted pieces groups h ip =>
      have hcolon : ':' ∉ ip.render.toList := ip.not_mem_render (by decide) rfl
      have hip : Ipv4.parse? ip.render.toList = some ip := Ipv4.parse?_eq_some_iff.2 rfl
      by_cases hne : pieces = []
      · subst hne
        cases h
        rw [List.nil_append, List.intercalate_singleton, cutLast?_eq_none.2 hcolon]
        simp [hip]
      · rw [intercalate_concat hne, cutLast?_append hcolon]
        simp [hip, mapM_splitOn_eq_some_iff.2 ⟨pieces, hne, h, rfl⟩]

/-! ### The gap -/

/-- A text is put together again from the parts beside its gap. -/
theorem cutGap?_eq_some {text first last : List Char} (h : cutGap? text = some (first, last)) :
    text = first ++ ':' :: ':' :: last := by
  fun_induction cutGap? text generalizing first with
  | case1 => cases h
  | case2 rest => cases h; rfl
  | case3 c rest _ ih =>
    obtain ⟨⟨front, back⟩, hrest, heq⟩ := Option.map_eq_some_iff.1 h
    cases heq
    rw [ih hrest, List.cons_append]

/-- A piece before the gap is kept. -/
theorem cutGap?_append_of_not_mem {piece : List Char} (h : ':' ∉ piece) (rest : List Char) :
    cutGap? (piece ++ rest) = (cutGap? rest).map fun cut => (piece ++ cut.1, cut.2) := by
  induction piece with
  | nil => simp
  | cons c piece ih =>
    obtain ⟨hc, hpiece⟩ := List.ne_and_not_mem_of_not_mem_cons h
    rw [List.cons_append, cutGap?.eq_3, ih hpiece, Option.map_map]
    · rfl
    · rintro _ rfl
      exact absurd rfl hc

/-- A colon before another character is kept. -/
theorem cutGap?_colon {c : Char} (hc : c ≠ ':') (rest : List Char) :
    cutGap? (':' :: c :: rest)
      = (cutGap? (c :: rest)).map fun (first, last) => (':' :: first, last) := by
  rw [cutGap?.eq_3]
  rintro _ - heq
  exact hc (List.cons.inj heq).1

/-- Two colons do not meet between pieces. -/
theorem AreSolid.cutGap? {pieces : List (List Char)} (h : AreSolid pieces) (rest : List Char) :
    cutGap? ([':'].intercalate pieces ++ rest)
      = (cutGap? rest).map fun cut => ([':'].intercalate pieces ++ cut.1, cut.2) := by
  induction pieces with
  | nil => simp
  | cons piece pieces ih =>
    obtain ⟨⟨-, hcolon⟩, hpieces⟩ := List.forall_mem_cons.1 h
    cases pieces with
    | nil =>
      rw [List.intercalate_singleton]
      exact cutGap?_append_of_not_mem hcolon rest
    | cons next more =>
      -- a colon stands before the first character of the next piece, which is none
      obtain ⟨hne, hnext⟩ := hpieces next List.mem_cons_self
      obtain ⟨c, next, rfl⟩ := List.exists_cons_of_ne_nil hne
      have hc : c ≠ ':' := Ne.symm (List.ne_and_not_mem_of_not_mem_cons hnext).1
      have hhead : ∃ tail, [':'].intercalate ((c :: next) :: more) = c :: tail := by
        cases more <;> simp [List.intercalate_cons_cons]
      obtain ⟨tail, htail⟩ := hhead
      rw [List.intercalate_cons_cons, List.append_assoc, List.append_assoc, List.singleton_append,
        cutGap?_append_of_not_mem hcolon, htail, List.cons_append, cutGap?_colon hc,
        ← List.cons_append, ← htail, ih hpieces, Option.map_map, Option.map_map]
      simp only [Function.comp_def, List.append_assoc, List.nil_append, List.cons_append]

/-- There is no gap when every group is written out. -/
theorem AreSolid.cutGap?_eq_none {pieces : List (List Char)} (h : AreSolid pieces) :
    Address.cutGap? ([':'].intercalate pieces) = none := by
  have hcut := h.cutGap? []
  rwa [List.append_nil] at hcut

/-- The gap that is found is the first one, whatever stands behind it. -/
theorem AreSolid.cutGap?_gap {pieces : List (List Char)} (h : AreSolid pieces) (last : List Char) :
    Address.cutGap? ([':'].intercalate pieces ++ ':' :: ':' :: last)
      = some ([':'].intercalate pieces, last) := by
  rw [h.cutGap?]
  simp [Address.cutGap?]

/-! ### Whole addresses -/

/-- Eight groups make an address, and the address has these groups. -/
theorem ofGroups?_eq_some_iff {groups : List UInt16} {ip : Ipv6} :
    Ipv6.ofGroups? groups = some ip ↔ ip.groups = groups := by
  constructor
  · intro h
    unfold Ipv6.ofGroups? at h
    split at h
    next => cases h; rfl
    next => cases h
  · rintro rfl
    rfl

theorem IsTail.exists_areSolid {text : List Char} {groups : List UInt16} (h : IsTail text groups) :
    ∃ pieces, AreSolid pieces ∧ text = [':'].intercalate pieces ∧
      groups.length ≤ pieces.length + 1 := by
  cases h with
  | groups h =>
    obtain ⟨h⟩ := h
    refine ⟨_, areSolid_of_forall₂ h, rfl, ?_⟩
    rw [h.length_eq]
    omega
  | dotted h ip =>
    refine ⟨_, areSolid_dotted h ip, rfl, ?_⟩
    simp [h.length_eq]

/-- An IPv6 address is read just from its texts. -/
theorem Ipv6.parse?_eq_some_iff {text : List Char} {ip : Ipv6} :
    Ipv6.parse? text = some ip ↔ IsIpv6 text ip := by
  rw [Ipv6.parse?]
  constructor
  · intro h
    split at h
    next =>
      obtain ⟨groups, hgroups, h⟩ := Option.bind_eq_some_iff.1 h
      rw [ofGroups?_eq_some_iff] at h
      exact .full (h ▸ readTail?_eq_some_iff.1 hgroups)
    next first last hcut =>
      obtain rfl := cutGap?_eq_some hcut
      obtain ⟨front, hfront, h⟩ := Option.bind_eq_some_iff.1 h
      obtain ⟨back, hback, h⟩ := Option.bind_eq_some_iff.1 h
      obtain ⟨hlt, h⟩ := Option.ite_none_right_eq_some.1 h
      rw [ofGroups?_eq_some_iff] at h
      exact .gap (readGroups?_eq_some_iff.1 hfront) (readTail?_eq_some_iff.1 hback) hlt h
  · intro h
    cases h with
    | full h =>
      obtain ⟨pieces, hsolid, rfl, -⟩ := h.exists_areSolid
      rw [hsolid.cutGap?_eq_none]
      simp [readTail?_eq_some_iff.2 h, ofGroups?_eq_some_iff]
    | @gap first last front back _ hfirst hlast hlt hip =>
      have hcut : cutGap? (first ++ ':' :: ':' :: last) = some (first, last) := by
        obtain ⟨h⟩ := hfirst
        exact (areSolid_of_forall₂ h).cutGap?_gap last
      rw [hcut]
      simp [readGroups?_eq_some_iff.2 hfirst, readTail?_eq_some_iff.2 hlast, hlt,
        ofGroups?_eq_some_iff, hip]

/-! ## Literals -/

/-- A text of an address of either family. -/
inductive IsLiteral : List Char → Ip → Prop where
  | v4 (ip : Ipv4) : IsLiteral ip.render.toList (.v4 ip)
  | v6 {text : List Char} {ip : Ipv6} (h : IsIpv6 text ip) : IsLiteral text (.v6 ip)

/-- Every text of an IPv6 address has a colon, which tells it from a dotted one. -/
theorem IsIpv6.colon_mem {text : List Char} {ip : Ipv6} (h : IsIpv6 text ip) : ':' ∈ text := by
  cases h with
  | full h =>
    obtain ⟨pieces, -, rfl, hlength⟩ := h.exists_areSolid
    have height : ip.groups.length = 8 := rfl
    exact mem_intercalate (by omega)
  | gap => simp

theorem IsTail.eq_or_exists_isHexDigit {text : List Char} {groups : List UInt16} {c : Char}
    (h : IsTail text groups) (hc : c ∈ text) : c = ':' ∨ c = '.' ∨ ∃ d, IsHexDigit c d := by
  cases h with
  | groups h => exact (h.eq_or_exists_isHexDigit hc).imp_right .inr
  | dotted h ip =>
    refine (exists_mem_of_mem_intercalate hc).imp_right ?_
    rintro ⟨piece, hpiece, hc⟩
    obtain hpiece | hlast := List.mem_append.1 hpiece
    · exact .inr (exists_isHexDigit_of_forall₂ h piece hpiece c hc)
    · rw [List.mem_singleton.1 hlast] at hc
      exact (Ipv4.mem_render hc).imp_right exists_isHexDigit_of_isDigit

/-- An address is read from its literals and from no other text. -/
theorem Ip.parse?_eq_some_iff {text : List Char} {ip : Ip} :
    Ip.parse? text = some ip ↔ IsLiteral text ip := by
  rw [Ip.parse?]
  constructor
  · intro h
    split at h
    next v4 hv4 =>
      cases h
      rw [Ipv4.parse?_eq_some_iff.1 hv4]
      exact .v4 v4
    next =>
      obtain ⟨v6, hv6, rfl⟩ := Option.map_eq_some_iff.1 h
      exact .v6 (Ipv6.parse?_eq_some_iff.1 hv6)
  · intro h
    cases h with
    | v4 ip => rw [Ipv4.parse?_eq_some_iff.2 rfl]
    | v6 h =>
      have hnone : Ipv4.parse? text = none := by
        rw [Option.eq_none_iff_forall_ne_some]
        intro v4 hv4
        rw [Ipv4.parse?_eq_some_iff] at hv4
        subst hv4
        exact v4.not_mem_render (by decide) rfl h.colon_mem
      rw [hnone, Ipv6.parse?_eq_some_iff.2 h]
      rfl

theorem IsLiteral.eq_or_exists_isHexDigit {text : List Char} {ip : Ip} {c : Char}
    (h : IsLiteral text ip) (hc : c ∈ text) : c = ':' ∨ c = '.' ∨ ∃ d, IsHexDigit c d := by
  cases h with
  | v4 ip => exact .inr ((Ipv4.mem_render hc).imp_right exists_isHexDigit_of_isDigit)
  | v6 h =>
    cases h with
    | full h => exact h.eq_or_exists_isHexDigit hc
    | gap hfirst hlast =>
      rw [List.mem_append, List.mem_cons, List.mem_cons] at hc
      obtain hc | rfl | rfl | hc := hc
      · exact (hfirst.eq_or_exists_isHexDigit hc).imp_right .inr
      · exact .inl rfl
      · exact .inl rfl
      · exact hlast.eq_or_exists_isHexDigit hc

/-- Other characters do not stand in a literal. -/
theorem IsLiteral.not_mem {text : List Char} {ip : Ip} {c : Char} (h : IsLiteral text ip)
    (hcolon : c ≠ ':') (hdot : c ≠ '.') (hdigit : digitValue? 16 c = none) : c ∉ text := by
  intro hc
  obtain rfl | rfl | ⟨d, hd⟩ := h.eq_or_exists_isHexDigit hc
  · exact hcolon rfl
  · exact hdot rfl
  · exact not_isHexDigit hdigit d hd

/-- A literal has no blanks inside. -/
theorem IsLiteral.isBlank_eq_false {text : List Char} {ip : Ip} (h : IsLiteral text ip) :
    ∀ c ∈ text, isBlank c = false := by
  intro c hc
  obtain rfl | rfl | ⟨d, hd⟩ := h.eq_or_exists_isHexDigit hc
  · rfl
  · rfl
  · exact hd.isBlank_eq_false

theorem IsLiteral.ne_nil {text : List Char} {ip : Ip} (h : IsLiteral text ip) : text ≠ [] := by
  cases h with
  | v4 ip => exact List.ne_nil_of_mem ip.dot_mem_render
  | v6 h => exact List.ne_nil_of_mem h.colon_mem

end MediaTransport.Address
