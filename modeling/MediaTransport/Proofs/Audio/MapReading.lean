import MediaTransport.Proofs.Audio.Announcement
import MediaTransport.Proofs.Audio.MapText

/-!
# Reading payload-type maps

A map that is read from a text has for each payload type the last entry that is given for it
(`IsLastOf`), and a text with one bad number gives no map.

The values of `rtpmap` attributes are read by another reader, which cuts them at other
characters and leaves out what it cannot read.  Where a text has only entries that could be such
values, the two readers do the same to a map with each of them (`addTexts_values`), so they come to
the same map.
-/

namespace MediaTransport.Audio

open Text Sdp

/-! ## Contents of a map -/

/-- What an entry gives to a map. -/
def Entry.given? : Entry → Option (UInt8 × Sampling)
  | .sampling payloadType s => some (payloadType, s)
  | .other => none

/-- What some entries give, in order. -/
def given (items : List Entry) : List (UInt8 × Sampling) :=
  items.filterMap Entry.given?

/-- The last that is given for its payload type. -/
def IsLastOf (es : List (UInt8 × Sampling)) (e : UInt8 × Sampling) : Prop :=
  ∃ front back, es = front ++ e :: back ∧ ∀ later ∈ back, later.1 ≠ e.1

theorem not_isLastOf_nil (e : UInt8 × Sampling) : ¬IsLastOf [] e := by
  rintro ⟨front, back, h, -⟩
  simp at h

/-- The first entry is the last for its payload type just when all others are for other ones. -/
theorem isLastOf_cons_iff {first e : UInt8 × Sampling} {es : List (UInt8 × Sampling)} :
    IsLastOf (first :: es) e ↔ IsLastOf es e ∨ e = first ∧ ∀ later ∈ es, later.1 ≠ e.1 := by
  constructor
  · rintro ⟨front, back, h, hback⟩
    cases front with
    | nil =>
      cases h
      exact .inr ⟨rfl, hback⟩
    | cons other front =>
      cases h
      exact .inl ⟨front, back, rfl, hback⟩
  · rintro (⟨front, back, rfl, hback⟩ | ⟨rfl, hback⟩)
    · exact ⟨first :: front, back, rfl, hback⟩
    · exact ⟨[], es, rfl, hback⟩

namespace PayloadMap

/-- The map with one more entry, which is not checked. -/
def put (m : PayloadMap) (e : UInt8 × Sampling) : PayloadMap :=
  ⟨insertEntry e.1 e.2 m.entries⟩

/-- An admissible entry is always put in. -/
theorem insert_of_isAdmissible (m : PayloadMap) {e : UInt8 × Sampling} (h : IsAdmissible e) :
    m.insert e.1 e.2 = .ok (m.put e) := by
  have hcheck : e.2.check = .ok () := if_neg (not_or.2 h.2)
  rw [PayloadMap.insert, if_neg (UInt8.not_lt.2 h.1), hcheck]
  rfl

/-- Any other one is refused. -/
theorem insert_of_not_isAdmissible (m : PayloadMap) {e : UInt8 × Sampling}
    (h : ¬IsAdmissible e) : ∃ error, m.insert e.1 e.2 = .error error := by
  cases hinsert : m.insert e.1 e.2 with
  | error error => exact ⟨error, rfl⟩
  | ok m' => exact absurd (insert_eq_ok hinsert).1 h

/-- An insertion leaves the other payload types as they are. -/
theorem mem_insertEntry_iff {payloadType : UInt8} {s : Sampling}
    {entries : List (UInt8 × Sampling)} (hsorted : entries.Pairwise fun a b => a.1 < b.1)
    {e : UInt8 × Sampling} :
    e ∈ insertEntry payloadType s entries ↔
      e = (payloadType, s) ∨ e ∈ entries ∧ e.1 ≠ payloadType := by
  induction entries with
  | nil => simp [insertEntry]
  | cons first rest ih =>
    obtain ⟨hfirst, hrest⟩ := List.pairwise_cons.1 hsorted
    rw [insertEntry]
    split
    next hlt =>
      have hother : ∀ other ∈ first :: rest, other.1 ≠ payloadType := by
        intro other hmem
        obtain rfl | hmem := List.mem_cons.1 hmem
        · exact (UInt8.ne_of_lt hlt).symm
        · exact (UInt8.ne_of_lt (UInt8.lt_trans hlt (hfirst other hmem))).symm
      rw [List.mem_cons]
      exact or_congr_right ⟨fun hmem => ⟨hmem, hother e hmem⟩, And.left⟩
    next =>
      split
      next heq =>
        rw [List.mem_cons, List.mem_cons]
        refine or_congr_right ⟨fun hmem => ⟨.inr hmem, ?_⟩, ?_⟩
        · rw [heq]
          exact (UInt8.ne_of_lt (hfirst e hmem)).symm
        · rintro ⟨hmem, hne⟩
          refine hmem.resolve_left ?_
          rintro rfl
          exact hne heq.symm
      next hne =>
        rw [List.mem_cons, ih hrest, List.mem_cons]
        constructor
        · rintro (rfl | rfl | ⟨hmem, hother⟩)
          · exact .inr ⟨.inl rfl, Ne.symm hne⟩
          · exact .inl rfl
          · exact .inr ⟨.inr hmem, hother⟩
        · rintro (rfl | ⟨rfl | hmem, hother⟩)
          · exact .inr (.inl rfl)
          · exact .inl rfl
          · exact .inr (.inr ⟨hmem, hother⟩)

theorem WellFormed.put {m : PayloadMap} (hm : m.WellFormed) {e : UInt8 × Sampling}
    (h : IsAdmissible e) : (m.put e).WellFormed :=
  hm.insert (insert_of_isAdmissible m h)

/-- Maps stay well formed along a list of admissible entries. -/
theorem WellFormed.putAll {m : PayloadMap} (hm : m.WellFormed) {es : List (UInt8 × Sampling)}
    (h : ∀ e ∈ es, IsAdmissible e) : (es.foldl PayloadMap.put m).WellFormed := by
  induction es generalizing m with
  | nil => exact hm
  | cons first es ih =>
    obtain ⟨hfirst, hes⟩ := List.forall_mem_cons.1 h
    exact ih (hm.put hfirst) hes

/-- After some entries a map has the last one of each payload type, and what it had for others. -/
theorem mem_putAll_iff {m : PayloadMap} (hm : m.WellFormed) {es : List (UInt8 × Sampling)}
    (h : ∀ e ∈ es, IsAdmissible e) {e : UInt8 × Sampling} :
    e ∈ (es.foldl put m).entries ↔
      IsLastOf es e ∨ e ∈ m.entries ∧ ∀ later ∈ es, later.1 ≠ e.1 := by
  induction es generalizing m with
  | nil => simp [not_isLastOf_nil]
  | cons first es ih =>
    obtain ⟨hfirst, hes⟩ := List.forall_mem_cons.1 h
    rw [List.foldl_cons, ih (hm.put hfirst) hes, PayloadMap.put, mem_insertEntry_iff hm.sorted,
      isLastOf_cons_iff, List.forall_mem_cons, or_and_right, or_assoc, and_assoc, ne_comm]

/-! ## Reading a text -/

theorem addText_isEntry {text : List Char} {item : Entry} (h : IsEntry text item)
    (hgiven : ∀ e ∈ item.given?, IsAdmissible e) (m : PayloadMap) :
    m.addText text = .ok (item.given?.toList.foldl put m) := by
  rw [PayloadMap.addText, h.ofText?_eq]
  cases item with
  | sampling payloadType s => exact insert_of_isAdmissible m (hgiven _ rfl)
  | other => rfl

/-- If all entries are admissible, the map takes up the samplings that they give, in their order. -/
theorem addTexts_isEntry {texts : List (List Char)} {items : List Entry}
    (h : List.Forall₂ IsEntry texts items) (hgiven : ∀ e ∈ given items, IsAdmissible e)
    (m : PayloadMap) : texts.foldlM addText m = .ok ((given items).foldl put m) := by
  induction h generalizing m with
  | nil => rfl
  | @cons text item texts items hentry hrest ih =>
    have hsplit : given (item :: items) = item.given?.toList ++ given items := by
      cases item <;> rfl
    rw [hsplit, List.forall_mem_append] at hgiven
    rw [List.foldlM_cons, addText_isEntry hentry (by simpa using hgiven.1), hsplit,
      List.foldl_append]
    exact ih hgiven.2 _

/-- An entry that says no numbers, or numbers that are refused, refuses the text. -/
theorem addText_hasNumbers {text rest payloadType numbers : List Char}
    (hopened : IsOpened text rest) (hform : HasNumbers rest payloadType numbers)
    (hnumbers : ∀ value s, IsNumbers payloadType numbers value s → ¬IsAdmissible (value, s))
    (m : PayloadMap) : ∃ e, m.addText text = .error e := by
  rw [PayloadMap.addText, hopened.ofText?_eq, hform.ofBareText?_eq]
  cases hread : Entry.ofNumbers? payloadType numbers with
  | none => exact ⟨_, rfl⟩
  | some entry =>
    obtain ⟨value, s, rfl, hsays⟩ := ofNumbers?_eq_some_iff.1 hread
    exact insert_of_not_isAdmissible m (hnumbers value s hsays)

/-- One refused entry refuses all. -/
theorem addTexts_error {texts : List (List Char)} {text : List Char} (hmem : text ∈ texts)
    (h : ∀ m : PayloadMap, ∃ e, m.addText text = .error e) (m : PayloadMap) :
    ∃ e, texts.foldlM addText m = .error e := by
  induction texts generalizing m with
  | nil => cases hmem
  | cons first texts ih =>
    rw [List.foldlM_cons]
    cases hfirst : m.addText first with
    | error e => exact ⟨e, rfl⟩
    | ok next =>
      obtain rfl | hmem := List.mem_cons.1 hmem
      · obtain ⟨e, he⟩ := h m
        rw [hfirst] at he
        cases he
      · exact ih hmem next

end PayloadMap

/-! ## Values of attributes -/

/-- The values of the `rtpmap` attributes of all sections, in order. -/
def rtpMapValues (d : Description) : List (List Char) :=
  d.media.flatMap fun s => s.attributes.filterMap fun a =>
    if a.name = "rtpmap" then a.value.map String.toList else none

/-- The map with the entry of a value, if it can be read. -/
def PayloadMap.addValue (m : PayloadMap) (value : List Char) : PayloadMap :=
  match RtpMap.ofText? value with
  | some r => m.addRtpMap r
  | none => m

theorem rtpMaps_eq (s : Section) :
    s.rtpMaps = (s.attributes.filterMap fun a =>
      if a.name = "rtpmap" then a.value.map String.toList else none).filterMap RtpMap.ofText? := by
  rw [Section.rtpMaps, List.filterMap_filterMap]
  congr 1
  funext a
  split
  · rw [Option.bind_map]
    rfl
  · rfl

/-- A session description is read mapping by mapping, over all of its sections. -/
theorem ofDescription_eq (d : Description) :
    PayloadMap.ofDescription d = (rtpMapValues d).foldl PayloadMap.addValue .empty := by
  have hmaps : d.media.flatMap Section.rtpMaps = (rtpMapValues d).filterMap RtpMap.ofText? := by
    rw [rtpMapValues, List.filterMap_flatMap]
    exact congrArg (d.media.flatMap ·) (funext rtpMaps_eq)
  rw [PayloadMap.ofDescription, hmaps, List.foldl_filterMap]
  congr 1
  funext m value
  unfold PayloadMap.addValue
  cases RtpMap.ofText? value <;> rfl

/-- An entry that is also the value of an attribute for the encoding that is read, and what it
says. -/
inductive IsValue : List Char → UInt8 → Sampling → Prop where
  | intro {payloadType encoding rate channels : List Char} {value : UInt8} {s : Sampling}
    (hencoding : isL16 encoding = true) (hpayloadType : IsDecimal payloadType value.toNat)
    (hrate : IsDecimal rate s.rate.toNat) (hchannels : IsDecimal channels s.channels.toNat) :
    IsValue (payloadType ++ ' ' :: (encoding ++ '/' :: (rate ++ '/' :: channels))) value s

/-- What follows the payload type of a value needs no trimming. -/
theorem isTrimmed_mapping {first encoding numbers : List Char}
    (h : IsTrimmed (first ++ ' ' :: (encoding ++ '/' :: numbers)))
    (hhead : ∀ c ∈ encoding.head?, isBlank c = false) : IsTrimmed (encoding ++ '/' :: numbers) where
  head := by
    cases encoding with
    | nil =>
      intro c hc
      cases hc
      rfl
    | cons c encoding => exact hhead
  last c hc := by
    refine h.last c ?_
    rwa [List.append_cons, List.getLast?_append_of_ne_nil _ (by simp)]

theorem blank_not_mem {text : List Char} (h : ∀ c ∈ text, isBlank c = false) : ' ' ∉ text :=
  fun hmem => Bool.noConfusion (h ' ' hmem)

/-- The other reader finds the same encoding. -/
theorem IsOther.addValue_eq {text : List Char} (h : IsOther text) (htrimmed : IsTrimmed text)
    (m : PayloadMap) : m.addValue text = m := by
  cases h with
  | @intro payloadType encoding numbers hsolid hencoding hslash hhead hcolon =>
    have hcut := cut?_append (blank_not_mem hsolid) (encoding ++ '/' :: numbers)
    have hrest := (isTrimmed_mapping htrimmed hhead).trim_eq
    obtain ⟨rate, more, hpieces⟩ := List.exists_cons_of_ne_nil (List.splitOn_ne_nil '/' numbers)
    have hread : ∀ r, RtpMap.ofText? (payloadType ++ ' ' :: (encoding ++ '/' :: numbers)) = some r →
        r.encoding = String.ofList encoding := by
      intro r hr
      simp only [RtpMap.ofText?, htrimmed.trim_eq, hcut, hrest,
        List.splitOn_append_cons_self_of_not_mem hslash, hpieces, Option.bind_eq_bind,
        Option.bind_some, Option.bind_eq_some_iff] at hr
      obtain ⟨rateValue, -, hr⟩ := hr
      cases more with
      | nil =>
        obtain ⟨_, -, hr⟩ := Option.bind_eq_some_iff.1 hr
        cases hr
        rfl
      | cons channels more =>
        obtain ⟨_, -, hr⟩ := Option.bind_eq_some_iff.1 hr
        obtain ⟨_, -, hr⟩ := Option.bind_eq_some_iff.1 hr
        cases hr
        rfl
    unfold PayloadMap.addValue
    split
    next r hr =>
      rw [PayloadMap.addRtpMap, hread r hr, String.toList_ofList, hencoding,
        if_neg Bool.false_ne_true]
    next => rfl

/-- The value of a mapping is an entry of its own, so both are read in one way. -/
theorem IsValue.isEntry {text : List Char} {value : UInt8} {s : Sampling}
    (h : IsValue text value s) : IsEntry text (.sampling value s) := by
  obtain ⟨hencoding, hpayloadType, hrate, hchannels⟩ := h
  have hcolon : ∀ {digits : List Char} {n : ℕ}, IsDecimal digits n → ':' ∉ digits :=
    fun h => h.not_mem rfl (by decide)
  have htrim : ∀ {digits : List Char} {n : ℕ}, IsDecimal digits n → IsDecimal (trim digits) n := by
    intro digits n h
    rwa [(isTrimmed_of_forall h.isBlank_eq_false).trim_eq]
  exact .sampling (.inl rfl) (.named hpayloadType.isBlank_eq_false hencoding (hcolon hpayloadType)
    (by simp [hcolon hrate, hcolon hchannels]))
    (.intro (htrim hpayloadType) (htrim hrate) (htrim hchannels))

/-- The other reader finds the same numbers. -/
theorem IsValue.addValue_eq {text : List Char} {value : UInt8} {s : Sampling}
    (h : IsValue text value s) (htrimmed : IsTrimmed text) (hadmissible : IsAdmissible (value, s))
    (m : PayloadMap) : m.addValue text = m.put (value, s) := by
  cases h with
  | @intro payloadType encoding rate channels _ _ hencoding hpayloadType hrate hchannels =>
    obtain ⟨hword, hslash, -⟩ := isWord_of_isL16 hencoding
    have hcut := cut?_append (blank_not_mem hpayloadType.isBlank_eq_false)
      (encoding ++ '/' :: (rate ++ '/' :: channels))
    have hrest := (isTrimmed_mapping htrimmed hword.isTrimmed.head).trim_eq
    have hpieces := splitOn_three hslash (hrate.not_mem (c := '/') rfl (by decide))
      (hchannels.not_mem (c := '/') rfl (by decide))
    have hread : RtpMap.ofText?
        (payloadType ++ ' ' :: (encoding ++ '/' :: (rate ++ '/' :: channels)))
          = some ⟨value, String.ofList encoding, s.rate, some s.channels⟩ := by
      simp [RtpMap.ofText?, htrimmed.trim_eq, hcut, hrest, hpieces,
        readUInt32?_eq_some_iff.2 hrate, readUInt16?_eq_some_iff.2 hchannels,
        readUInt8?_eq_some_iff.2 hpayloadType]
    have hinsert := PayloadMap.insert_of_isAdmissible m hadmissible
    simp only [PayloadMap.addValue, hread, PayloadMap.addRtpMap, String.toList_ofList, hencoding,
      if_true, Option.getD_some, hinsert]

/-- Entries that are also values do the same to a map in both readers. -/
theorem addTexts_values {texts : List (List Char)} (htrimmed : ∀ text ∈ texts, IsTrimmed text)
    (h : ∀ text ∈ texts, IsOther text ∨
      ∃ value s, IsAdmissible (value, s) ∧ IsValue text value s) (m : PayloadMap) :
    texts.foldlM PayloadMap.addText m = .ok (texts.foldl PayloadMap.addValue m) := by
  induction texts generalizing m with
  | nil => rfl
  | cons text texts ih =>
    obtain ⟨hfirst, hrest⟩ := List.forall_mem_cons.1 htrimmed
    obtain ⟨hentry, hentries⟩ := List.forall_mem_cons.1 h
    have hadd : m.addText text = .ok (m.addValue text) := by
      obtain hother | ⟨value, s, hadmissible, hvalue⟩ := hentry
      · rw [hother.addValue_eq hfirst, PayloadMap.addText_isEntry (.other hother) nofun]
        rfl
      · rw [hvalue.addValue_eq hfirst hadmissible,
          PayloadMap.addText_isEntry hvalue.isEntry (fun e he => by cases he; exact hadmissible)]
        rfl
    rw [List.foldlM_cons, hadd, List.foldl_cons]
    exact ih hrest hentries _

/-! ## All texts -/

/-- A text whose entries say admissible numbers, or are for other encodings, is read, and the map
has the last that is given for each payload type and nothing else.  A text with an entry of which
the numbers are bad is refused.  Where every entry is also the value of an `rtpmap` attribute, a
description with these values announces the same map. -/
theorem PayloadMap.parse_complete :
    (∀ (text : String) (texts : List (List Char)) (items : List Entry),
      Lists text.toList texts → List.Forall₂ IsEntry texts items →
      (∀ e ∈ given items, IsAdmissible e) →
      ∃ m, PayloadMap.parse text = .ok m ∧ (m.entries.Pairwise fun a b => a.1 < b.1) ∧
        ∀ e, e ∈ m.entries ↔ IsLastOf (given items) e) ∧
    (∀ (text : String) (texts : List (List Char)) (entry rest payloadType numbers : List Char),
      Lists text.toList texts → entry ∈ texts → IsOpened entry rest →
      HasNumbers rest payloadType numbers →
      (∀ value s, IsNumbers payloadType numbers value s → ¬IsAdmissible (value, s)) →
      ∃ e, PayloadMap.parse text = .error e) ∧
    ∀ (text : String) (texts : List (List Char)) (d : Description), Lists text.toList texts →
      (∀ entry ∈ texts, IsOther entry ∨
        ∃ value s, IsAdmissible (value, s) ∧ IsValue entry value s) →
      rtpMapValues d = texts → PayloadMap.parse text = .ok (PayloadMap.ofDescription d) := by
  refine ⟨?_, ?_, ?_⟩
  · intro text texts items hlists hentries hgiven
    refine ⟨(given items).foldl put .empty, ?_, (WellFormed.empty.putAll hgiven).sorted,
      fun e => ?_⟩
    · rw [PayloadMap.parse, lists_iff.1 hlists, addTexts_isEntry hentries hgiven]
    · rw [mem_putAll_iff .empty hgiven]
      exact or_iff_left fun h => nomatch h.1
  · intro text texts entry rest payloadType numbers hlists hmem hopened hform hnumbers
    rw [PayloadMap.parse, lists_iff.1 hlists]
    exact addTexts_error hmem (addText_hasNumbers hopened hform hnumbers) .empty
  · rintro text texts d hlists hvalues rfl
    rw [PayloadMap.parse, lists_iff.1 hlists, addTexts_values hlists.isTrimmed hvalues,
      ofDescription_eq]

/-- Entries of both forms, with the opening and without it, and one for another encoding.  Blanks
and empty entries stand between them. -/
def mixedText : String :=
  " 96:48000/2;; rtpmap:97 l16/44100/1\n,rtpmap:96 : 8000 / 6 ,98 PCMU/8000 "

/-- The later of two entries for a payload type counts.  A rate of zero refuses a text, and
attributes with the same values make the same map. -/
theorem PayloadMap.parse_complete_mixed :
    (∃ m, PayloadMap.parse mixedText = .ok m ∧ (97, ⟨44100, 1⟩) ∈ m.entries ∧
      (96, ⟨8000, 6⟩) ∈ m.entries) ∧
    (∃ e, PayloadMap.parse "96:48000/2,97 L16/0/2" = .error e) ∧
    PayloadMap.parse "96 L16/48000/2\n98 PCMU/8000" = .ok (.ofDescription
      { name := "", media := [Section.ofStream "audio" 5004 96
        [⟨"rtpmap", some "96 L16/48000/2"⟩, ⟨"rtpmap", some "98 PCMU/8000"⟩]] }) := by
  obtain ⟨hread, hrefused, hdescribed⟩ := PayloadMap.parse_complete
  have hnumber : IsWord "98".toList ∧ IsWord "97".toList := by decide
  have hname : IsWord "PCMU".toList := by decide
  have hpcmu : IsOther "98 PCMU/8000".toList :=
    @IsOther.intro "98".toList "PCMU".toList "8000".toList hnumber.1.solid (by decide) (by decide)
      hname.isTrimmed.head (by decide)
  refine ⟨?_, ?_, ?_⟩
  · have hfirst : IsEntry "96:48000/2".toList (.sampling 96 ⟨48000, 2⟩) :=
      .sampling (.inl rfl) (@HasNumbers.colon "96".toList (by decide) "48000/2".toList)
        (isNumbers_iff.2 (by decide))
    have hsecond : IsEntry "rtpmap:97 l16/44100/1".toList (.sampling 97 ⟨44100, 1⟩) :=
      .sampling (.inr rfl) (@HasNumbers.named "97".toList "l16".toList "44100/1".toList
        hnumber.2.solid (by decide) (by decide) (by decide)) (isNumbers_iff.2 (by decide))
    have hthird : IsEntry "rtpmap:96 : 8000 / 6".toList (.sampling 96 ⟨8000, 6⟩) :=
      .sampling (.inr rfl) (@HasNumbers.colon "96 ".toList (by decide) " 8000 / 6".toList)
        (isNumbers_iff.2 (by decide))
    have hentries := List.Forall₂.cons hfirst (.cons hsecond (.cons hthird (.cons
      (IsEntry.other hpcmu) .nil)))
    obtain ⟨m, hm, -, hmem⟩ := hread mixedText _ _ (lists_iff.2 (by decide +kernel)) hentries
      (by decide)
    exact ⟨m, hm, (hmem _).2 ⟨[(96, ⟨48000, 2⟩)], [(96, ⟨8000, 6⟩)], rfl, by decide⟩,
      (hmem _).2 ⟨[(96, ⟨48000, 2⟩), (97, ⟨44100, 1⟩)], [], rfl, by decide⟩⟩
  · refine hrefused _ ["96:48000/2".toList, "97 L16/0/2".toList] "97 L16/0/2".toList _ "97".toList
      "0/2".toList (lists_iff.2 (by decide +kernel)) (by decide) (.bare (by decide))
      (@HasNumbers.named "97".toList "L16".toList "0/2".toList
        hnumber.2.solid (by decide) (by decide) (by decide)) ?_
    intro value s hnumbers hadmissible
    rw [isNumbers_iff] at hnumbers
    have hzero : Entry.ofNumbers? "97".toList "0/2".toList = some (.sampling 97 ⟨0, 2⟩) := by decide
    rw [hzero] at hnumbers
    cases hnumbers
    exact hadmissible.2.1 rfl
  · have hvalue : IsValue "96 L16/48000/2".toList 96 ⟨48000, 2⟩ :=
      @IsValue.intro "96".toList "L16".toList "48000".toList "2".toList 96 ⟨48000, 2⟩
        (by decide) (readUInt8?_eq_some_iff.1 (by decide))
        (readUInt32?_eq_some_iff.1 (by decide)) (readUInt16?_eq_some_iff.1 (by decide))
    refine hdescribed _ ["96 L16/48000/2".toList, "98 PCMU/8000".toList] _
      (lists_iff.2 (by decide +kernel)) ?_ rfl
    rw [List.forall_mem_cons, List.forall_mem_singleton]
    exact ⟨.inr ⟨96, ⟨48000, 2⟩, by decide, hvalue⟩, .inl hpcmu⟩

end MediaTransport.Audio
