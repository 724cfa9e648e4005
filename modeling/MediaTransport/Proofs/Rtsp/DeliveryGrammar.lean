import Mathlib.Data.List.Induction
import MediaTransport.Proofs.Rtsp.Delivery

/-!
# What the transport header says

The value of the header is split into trimmed fields, the first of which is the profile and the
others parameters.  Of the parameters that give channels the last one counts, and of those that
name a sender too, but all that give channels have to be readable (`foldlM_put?`).  So a value is
read just when there are channels in it and all of them can be read (`Delivery.parse?_grammar`),
and its delivery is what the fields say (`Delivery.IsSaidBy`).

What is read has a profile that is one field, so it can be written and read again.
-/

namespace MediaTransport.Rtsp

open Text

/-! ## The fields of a value -/

/-- The fields of a header value, without the blanks at their ends. -/
def fieldsOf (value : String) : List (List Char) :=
  (value.toList.splitOn ';').map trim

/-- The fields behind the first one. -/
def parametersOf (value : String) : List (List Char) :=
  (fieldsOf value).tail

/-- What stands behind an opening, in each parameter that has it. -/
def behind (opening : String) (params : List (List Char)) : List (List Char) :=
  params.filterMap opening.toList.isPrefixOf?

/-- A pair of channels is written as two numbers with a dash between them, or as the first of
two that follow each other. -/
inductive IsRange : List Char → UInt8 → UInt8 → Prop where
  | pair {first rest : List Char} {media report : UInt8} (hmedia : IsDecimal first media.toNat)
      (hreport : IsDecimal rest report.toNat) : IsRange (first ++ '-' :: rest) media report
  | single {text : List Char} {media : UInt8} (hmedia : IsDecimal text media.toNat)
      (hlt : media.toNat < 255) : IsRange text media (media + 1)

/-- What the fields of a value say of a delivery. -/
structure Delivery.IsSaidBy (d : Delivery) (value : String) : Prop where
  /-- The profile is the first field. -/
  profile : (fieldsOf value).head? = some d.profile.toList
  /-- There is one receiver when a parameter says so, in any letter case. -/
  unicast : d.unicast = true ↔
    ∃ p ∈ parametersOf value, equalsIgnoringCase p "unicast".toList = true
  /-- The last channels count. -/
  channels : ∃ range, (behind "interleaved=" (parametersOf value)).getLast? = some range ∧
    IsRange range d.mediaChannel d.reportChannel
  /-- The last sender counts, if it is a number. -/
  ssrc : ∀ n : UInt32, d.ssrc = some n ↔
    ∃ sender, (behind "ssrc=" (parametersOf value)).getLast? = some sender ∧ IsHex sender n.toNat

theorem readChannels?_eq_some_iff {range : List Char} {media report : UInt8} :
    readChannels? range = some (media, report) ↔ IsRange range media report := by
  have hdash : ∀ {text : List Char} {n : ℕ}, IsDecimal text n → '-' ∉ text :=
    fun h => h.not_mem rfl (by decide)
  rw [readChannels?]
  constructor
  · intro h
    split at h
    next first rest hcut =>
      obtain ⟨rfl, -⟩ := cut?_eq_some hcut
      obtain ⟨m, hm, h⟩ := Option.bind_eq_some_iff.1 h
      obtain ⟨r, hr, h⟩ := Option.bind_eq_some_iff.1 h
      cases h
      exact .pair (readUInt8?_eq_some_iff.1 hm) (readUInt8?_eq_some_iff.1 hr)
    next =>
      obtain ⟨m, hm, h⟩ := Option.bind_eq_some_iff.1 h
      split at h
      next => cases h
      next hne =>
        cases h
        have hlt := media.toNat_lt
        rw [← UInt8.toNat_inj] at hne
        exact .single (readUInt8?_eq_some_iff.1 hm) (Nat.lt_of_le_of_ne (Nat.le_of_lt_succ hlt) hne)
  · intro h
    cases h with
    | pair hmedia hreport =>
      rw [cut?_append (hdash hmedia)]
      simp [readUInt8?_eq_some_iff.2 hmedia, readUInt8?_eq_some_iff.2 hreport]
    | single hmedia hlt =>
      have hne : media ≠ 255 := by
        rintro rfl
        exact absurd hlt (by decide)
      rw [cut?_eq_none.2 (hdash hmedia)]
      simp [readUInt8?_eq_some_iff.2 hmedia, hne]

/-! ## Reading the parameters -/

/-- A parameter is of one kind only. -/
inductive ParameterKind (p : List Char) : Prop where
  | unicast (h : equalsIgnoringCase p "unicast".toList = true)
      (hrange : "interleaved=".toList.isPrefixOf? p = none)
      (hsender : "ssrc=".toList.isPrefixOf? p = none)
  | range {range : List Char} (h : equalsIgnoringCase p "unicast".toList = false)
      (hrange : "interleaved=".toList.isPrefixOf? p = some range)
      (hsender : "ssrc=".toList.isPrefixOf? p = none)
  | sender {sender : List Char} (h : equalsIgnoringCase p "unicast".toList = false)
      (hrange : "interleaved=".toList.isPrefixOf? p = none)
      (hsender : "ssrc=".toList.isPrefixOf? p = some sender)
  | other (h : equalsIgnoringCase p "unicast".toList = false)
      (hrange : "interleaved=".toList.isPrefixOf? p = none)
      (hsender : "ssrc=".toList.isPrefixOf? p = none)

theorem parameterKind (p : List Char) : ParameterKind p := by
  cases hrange : "interleaved=".toList.isPrefixOf? p with
  | some range =>
    have hp := List.append_eq_of_isPrefixOf?_eq_some hrange
    refine .range ?_ hrange ?_
    · simp [← hp, equalsIgnoringCase]
    · rw [← hp]
      rfl
  | none =>
    cases hsender : "ssrc=".toList.isPrefixOf? p with
    | some sender =>
      have hp := List.append_eq_of_isPrefixOf?_eq_some hsender
      exact .sender (by simp [← hp, equalsIgnoringCase]) hrange hsender
    | none =>
      cases h : equalsIgnoringCase p "unicast".toList with
      | true => exact .unicast h hrange hsender
      | false => exact .other h hrange hsender

/-- What parameters say, if their channels can be read. -/
def Parameters.of (params : List (List Char)) : Parameters where
  unicast := params.any (equalsIgnoringCase · "unicast".toList)
  channels := (behind "interleaved=" params).getLast?.bind readChannels?
  ssrc := (behind "ssrc=" params).getLast?.bind readHexUInt32?

theorem behind_concat (opening : String) (params : List (List Char)) (p : List Char) :
    behind opening (params ++ [p])
      = behind opening params ++ (opening.toList.isPrefixOf? p).toList := by
  rw [behind, List.filterMap_append, ← behind]
  cases h : opening.toList.isPrefixOf? p <;> simp [h]

/-- A parameter adds what it says, unless it has channels that cannot be read. -/
theorem put?_of (params : List (List Char)) (p : List Char) :
    (Parameters.of params).put? p
      = if ∀ range ∈ ("interleaved=".toList.isPrefixOf? p).toList, (readChannels? range).isSome then
          some (Parameters.of (params ++ [p]))
        else none := by
  rw [Parameters.put?, afterOpening?_eq_isPrefixOf?, afterOpening?_eq_isPrefixOf?, Parameters.of,
    Parameters.of, List.any_append, List.any_cons, List.any_nil, Bool.or_false, behind_concat,
    behind_concat]
  obtain ⟨h, hrange, hsender⟩ | ⟨h, hrange, hsender⟩ | ⟨h, hrange, hsender⟩ | ⟨h, hrange, hsender⟩ :=
    parameterKind p
  · rw [h, if_pos rfl, hrange, hsender, Option.toList_none, if_pos (List.forall_mem_nil _)]
    simp only [Bool.or_true, List.append_nil]
  · rw [h, if_neg Bool.false_ne_true, hrange, hsender]
    simp only [Bool.or_false, Option.toList_none, Option.toList_some, List.append_nil,
      List.forall_mem_singleton, List.getLast?_concat, Option.bind_some]
    cases readChannels? _ <;> rfl
  · rw [h, if_neg Bool.false_ne_true, hrange, hsender, Option.toList_none,
      if_pos (List.forall_mem_nil _)]
    simp only [Bool.or_false, Option.toList_some, List.append_nil, List.getLast?_concat,
      Option.bind_some]
  · rw [h, if_neg Bool.false_ne_true, hrange, hsender, Option.toList_none,
      if_pos (List.forall_mem_nil _)]
    simp only [Bool.or_false, List.append_nil]

theorem foldlM_put? (params : List (List Char)) :
    params.foldlM Parameters.put? {}
      = if ∀ range ∈ behind "interleaved=" params, (readChannels? range).isSome then
          some (Parameters.of params)
        else none := by
  -- what counts is the last parameter of a kind, so the last one is taken off
  induction params using List.reverseRecOn with
  | nil => rfl
  | append_singleton params p ih =>
    rw [List.foldlM_append, ih, behind_concat]
    simp only [List.forall_mem_append]
    by_cases hall : ∀ range ∈ behind "interleaved=" params, (readChannels? range).isSome
    · rw [if_pos hall, Option.bind_eq_bind, Option.bind_some, List.foldlM_cons, put?_of]
      split
      next hlast => rw [if_pos ⟨hall, hlast⟩]; rfl
      next hlast => rw [if_neg fun h => hlast h.2]; rfl
    · rw [if_neg hall, if_neg fun h => hall h.1]
      rfl

/-! ## Reading a value -/

theorem exists_fieldsOf (value : String) :
    ∃ profile, fieldsOf value = profile :: parametersOf value ∧ ';' ∉ profile ∧
      IsTrimmed profile := by
  obtain ⟨first, rest, hsplit⟩ := List.exists_cons_of_ne_nil (List.splitOn_ne_nil ';' value.toList)
  have hfirst : ';' ∉ first := not_mem_of_mem_splitOn (hsplit ▸ List.mem_cons_self)
  refine ⟨trim first, ?_, fun hmem => hfirst (mem_of_mem_trim hmem), isTrimmed_trim first⟩
  rw [parametersOf, fieldsOf, hsplit]
  rfl

theorem parse?_eq_some_iff {value : String} {d : Delivery} :
    Delivery.parse? value = some d ↔
      (∀ range ∈ behind "interleaved=" (parametersOf value), (readChannels? range).isSome) ∧
      (fieldsOf value).head? = some d.profile.toList ∧
      Parameters.of (parametersOf value)
        = ⟨d.unicast, some (d.mediaChannel, d.reportChannel), d.ssrc⟩ := by
  obtain ⟨profile, hfields, -⟩ := exists_fieldsOf value
  have hparse : Delivery.parse? value
      = ((parametersOf value).foldlM Parameters.put? {}).bind fun p =>
          p.channels.bind fun c => some ⟨String.ofList profile, p.unicast, c.1, c.2, p.ssrc⟩ := by
    rw [fieldsOf] at hfields
    unfold Delivery.parse?
    rw [hfields]
    rfl
  rw [hparse, foldlM_put?, hfields, List.head?_cons, Option.some_inj]
  split
  next hall =>
    obtain ⟨unicast, channels, ssrc⟩ := Parameters.of (parametersOf value)
    obtain ⟨text, unicast', media, report, ssrc'⟩ := d
    have hprofile : profile = text.toList ↔ String.ofList profile = text := by
      rw [← String.toList_inj, String.toList_ofList]
    cases channels with
    | none => simp
    | some c =>
      rw [and_iff_right hall]
      simp [hprofile, Prod.ext_iff, and_assoc, and_left_comm]
  next hall => simp [hall]

theorem isSome_readChannels?_iff {range : List Char} :
    (readChannels? range).isSome ↔ ∃ media report, IsRange range media report := by
  rw [Option.isSome_iff_exists, Prod.exists]
  simp only [readChannels?_eq_some_iff]

/-- There is a delivery just when channels are given and all of them can be read. -/
theorem exists_parse?_iff {value : String} :
    (∃ d, Delivery.parse? value = some d) ↔
      behind "interleaved=" (parametersOf value) ≠ [] ∧
        ∀ range ∈ behind "interleaved=" (parametersOf value), ∃ media report,
          IsRange range media report := by
  simp only [parse?_eq_some_iff, isSome_readChannels?_iff]
  constructor
  · rintro ⟨d, hall, -, hparams⟩
    refine ⟨fun hnil => ?_, hall⟩
    have hchannels := congrArg Parameters.channels hparams
    rw [Parameters.of, hnil] at hchannels
    cases hchannels
  · rintro ⟨hne, hall⟩
    obtain ⟨profile, hfields, -⟩ := exists_fieldsOf value
    obtain ⟨media, report, hlast⟩ := hall _ (List.getLast_mem hne)
    have hchannels : (Parameters.of (parametersOf value)).channels = some (media, report) := by
      rw [Parameters.of, List.getLast?_eq_some_getLast hne, Option.bind_some,
        readChannels?_eq_some_iff.2 hlast]
    generalize Parameters.of (parametersOf value) = params at hchannels ⊢
    obtain ⟨unicast, channels, ssrc⟩ := params
    obtain rfl : channels = some (media, report) := hchannels
    refine ⟨⟨String.ofList profile, unicast, media, report, ssrc⟩, hall, ?_, rfl⟩
    rw [hfields, List.head?_cons, String.toList_ofList]

/-- What is read is what the fields say. -/
theorem isSaidBy_of_parse? {value : String} {d : Delivery}
    (h : Delivery.parse? value = some d) : d.IsSaidBy value := by
  obtain ⟨-, hprofile, hparams⟩ := parse?_eq_some_iff.1 h
  obtain ⟨hunicast, hchannels, hssrc⟩ := (Parameters.mk.injEq ..).mp hparams
  refine ⟨hprofile, ?_, ?_, fun n => ?_⟩
  · rw [← hunicast, List.any_eq_true]
  · obtain ⟨range, hrange, hread⟩ := Option.bind_eq_some_iff.1 hchannels
    exact ⟨range, hrange, readChannels?_eq_some_iff.1 hread⟩
  · simp only [← hssrc, Option.bind_eq_some_iff, readHexUInt32?_eq_some_iff]

/-- What is read has a profile that is one field. -/
theorem isPlain_of_parse? {value : String} {d : Delivery}
    (h : Delivery.parse? value = some d) : d.IsPlain := by
  obtain ⟨profile, hfields, hsemicolon, htrimmed⟩ := exists_fieldsOf value
  have hprofile := (isSaidBy_of_parse? h).profile
  rw [hfields, List.head?_cons, Option.some_inj] at hprofile
  rw [hprofile] at hsemicolon htrimmed
  exact ⟨hsemicolon, htrimmed⟩

/-- A value is read just when it gives channels and all of them can be read, and what is read is
what its fields say.  A delivery whose profile is one field is read back as it was written, and
what is read has such a profile. -/
theorem Delivery.parse?_grammar (value : String) :
    ((∃ d, Delivery.parse? value = some d) ↔
      behind "interleaved=" (parametersOf value) ≠ [] ∧
        ∀ range ∈ behind "interleaved=" (parametersOf value), ∃ media report,
          IsRange range media report) ∧
    (∀ d, Delivery.parse? value = some d →
      d.IsSaidBy value ∧ d.IsPlain ∧ Delivery.parse? d.render = some d) ∧
    ∀ d : Delivery, d.IsPlain → Delivery.parse? d.render = some d := by
  refine ⟨exists_parse?_iff, ?_, fun d => Delivery.parse?_render⟩
  intro d hd
  have hplain := isPlain_of_parse? hd
  exact ⟨isSaidBy_of_parse? hd, hplain, Delivery.parse?_render hplain⟩

/-- A value with channels of both forms, a sender that is no number and another one behind it. -/
def repeatedValue : String := " RTP ; Unicast;interleaved=0-1;ssrc=x;ttl=;interleaved=+254; ssrc=+0aB"

/-- What the value says. -/
def repeated : Delivery := ⟨"RTP", true, 254, 255, some 0xAB⟩

theorem Delivery.parse?_grammar_repeated :
    Delivery.parse? repeatedValue = some repeated ∧ repeated.IsPlain ∧
    repeated.IsSaidBy repeatedValue ∧ Delivery.parse? repeated.render = some repeated := by
  have hparse : Delivery.parse? repeatedValue = some repeated := by decide +kernel
  obtain ⟨-, hread, hback⟩ := Delivery.parse?_grammar repeatedValue
  have hplain : repeated.IsPlain := (hread repeated hparse).2.1
  exact ⟨hparse, hplain, (hread repeated hparse).1, hback repeated hplain⟩

end MediaTransport.Rtsp
