import Mathlib.Data.List.Forall2
import MediaTransport.Proofs.Audio.PayloadMap
import MediaTransport.Proofs.Text.Numeral
import MediaTransport.Proofs.Text.Separators

/-!
# Texts of payload-type maps

A map text is a list of entries: what stands between two separators and is not all blank,
without the blanks around it (`Lists`).  All that is used of the pieces follows from one
equation at a separator, `entryTexts_append`.

An entry says numbers in one of two forms, behind a colon or behind the name of the encoding
(`HasNumbers`), or it is for another encoding (`IsOther`).  Both forms may have the opening
`rtpmap:`.  The numbers are decimal numerals with blanks around them (`IsNumbers`).

What an entry says (`IsEntry`) is what is read from it (`IsEntry.ofText?_eq`).  That the opening is
not taken for a payload type, although a colon stands behind it, is because it is no numeral.
-/

namespace MediaTransport.Audio

open Text

/-! ## Entries of a text -/

/-- Whether a character stands between entries. -/
def isSeparator (c : Char) : Bool :=
  c == ',' || c == ';' || c == '\n'

/-- A text and its entries. -/
inductive Lists : List Char → List (List Char) → Prop where
  /-- A blank text has none. -/
  | blank {text : List Char} (h : ∀ c ∈ text, isBlank c = true) : Lists text []
  /-- A text without separators has one, with any blanks around it. -/
  | entry {front entry back : List Char} (hfront : ∀ c ∈ front, isBlank c = true)
    (hback : ∀ c ∈ back, isBlank c = true) (htrimmed : IsTrimmed entry) (hne : entry ≠ [])
    (hentry : ∀ c ∈ entry, isSeparator c = false) : Lists (front ++ (entry ++ back)) [entry]
  /-- A separator stands between the entries of two texts. -/
  | join {first rest : List Char} {separator : Char} {entries more : List (List Char)}
    (hseparator : isSeparator separator = true) (hfirst : Lists first entries)
    (hrest : Lists rest more) : Lists (first ++ separator :: rest) (entries ++ more)

theorem entryTexts_eq (text : List Char) :
    entryTexts text = ((text.splitOnP isSeparator).map trim).filter fun entry => !entry.isEmpty :=
  rfl

/-- A separator ends an entry, and what is before it has no part in what is behind. -/
theorem entryTexts_append {separator : Char} (h : isSeparator separator = true)
    (first rest : List Char) :
    entryTexts (first ++ separator :: rest) = entryTexts first ++ entryTexts rest := by
  rw [entryTexts_eq, List.splitOnP_append_cons first rest h, List.map_append, List.filter_append,
    ← entryTexts_eq, ← entryTexts_eq]

/-- A text without separators is one entry, or none. -/
theorem entryTexts_of_forall {text : List Char} (h : ∀ c ∈ text, isSeparator c = false) :
    entryTexts text = [trim text].filter fun entry => !entry.isEmpty := by
  rw [entryTexts_eq, List.splitOnP_eq_singleton h, List.map_singleton]

/-- A text has a first separator, or none. -/
theorem forall_or_exists_separator (text : List Char) :
    (∀ c ∈ text, isSeparator c = false) ∨
      ∃ first separator rest, text = first ++ separator :: rest ∧
        (∀ c ∈ first, isSeparator c = false) ∧ isSeparator separator = true := by
  induction text with
  | nil => exact .inl nofun
  | cons c text ih =>
    cases hc : isSeparator c with
    | true => exact .inr ⟨[], c, text, rfl, nofun, hc⟩
    | false =>
      obtain h | ⟨first, separator, rest, rfl, hfirst, hseparator⟩ := ih
      · exact .inl (List.forall_mem_cons.2 ⟨hc, h⟩)
      · exact .inr ⟨c :: first, separator, rest, rfl, List.forall_mem_cons.2 ⟨hc, hfirst⟩,
          hseparator⟩

/-- Blanks alone are no entry. -/
theorem entryTexts_of_isBlank {text : List Char} (h : ∀ c ∈ text, isBlank c = true) :
    entryTexts text = [] := by
  rw [entryTexts_eq, List.filter_eq_nil_iff, List.forall_mem_map]
  intro piece hpiece
  have hblank : ∀ c ∈ piece, isBlank c = true := fun c hc =>
    h c (mem_and_eq_false_of_mem_splitOnP hpiece c hc).1
  rw [trim_of_forall hblank]
  decide

/-- Blanks in front of a text, and separators among them, make no entries. -/
theorem entryTexts_append_left {front : List Char} (h : ∀ c ∈ front, isBlank c = true)
    (text : List Char) : entryTexts (front ++ text) = entryTexts text := by
  induction front with
  | nil => rfl
  | cons c front ih =>
    obtain ⟨hc, hfront⟩ := List.forall_mem_cons.1 h
    rw [List.cons_append, ← ih hfront]
    cases hseparator : isSeparator c with
    | true => exact entryTexts_append hseparator [] _
    | false =>
      obtain ⟨piece, pieces, hsplit⟩ := List.exists_cons_of_ne_nil
        (List.splitOnP_ne_nil isSeparator (front ++ text))
      have hnext : (c :: (front ++ text)).splitOnP isSeparator = (c :: piece) :: pieces := by
        rw [List.splitOnP_cons_eq_if_modifyHead, hseparator, if_neg Bool.false_ne_true, hsplit,
          List.modifyHead_cons]
      rw [entryTexts_eq, entryTexts_eq, hnext, hsplit, List.map_cons, List.map_cons,
        ← trim_append_left (List.forall_mem_singleton.2 hc) piece, List.singleton_append]

/-- An entry is cut free of the blanks behind it. -/
theorem entryTexts_entry {entry back : List Char} (hback : ∀ c ∈ back, isBlank c = true)
    (htrimmed : IsTrimmed entry) (hne : entry ≠ [])
    (hentry : ∀ c ∈ entry, isSeparator c = false) : entryTexts (entry ++ back) = [entry] := by
  -- What stands behind the entry counts for it up to the first separator.
  have hone : ∀ blanks : List Char, (∀ c ∈ blanks, isBlank c = true) →
      (∀ c ∈ blanks, isSeparator c = false) → entryTexts (entry ++ blanks) = [entry] := by
    intro blanks hblank hblanks
    have htrim : trim (entry ++ blanks) = entry := by
      rw [trim_append_right hblank, htrimmed.trim_eq]
    rw [entryTexts_of_forall (List.forall_mem_append.2 ⟨hentry, hblanks⟩), htrim,
      List.filter_cons_of_pos (by simpa using hne), List.filter_nil]
  obtain hblanks | ⟨blanks, separator, rest, rfl, hblanks, hseparator⟩ :=
    forall_or_exists_separator back
  · exact hone back hback hblanks
  · obtain ⟨hfirst, hrest⟩ := List.forall_mem_append.1 hback
    rw [← List.append_assoc, entryTexts_append hseparator, hone blanks hfirst hblanks,
      entryTexts_of_isBlank (List.forall_mem_cons.1 hrest).2, List.append_nil]

/-- What is read of a text are the entries it lists. -/
theorem lists_entryTexts (text : List Char) : Lists text (entryTexts text) := by
  induction hlength : text.length using Nat.strongRecOn generalizing text with
  | ind n ih =>
    obtain hsolid | ⟨first, separator, rest, rfl, hfirst, hseparator⟩ :=
      forall_or_exists_separator text
    · rw [entryTexts_of_forall hsolid]
      obtain ⟨front, back, htext, hfront, hback⟩ := exists_trim text
      by_cases hnil : trim text = []
      · rw [hnil, List.nil_append] at htext
        rw [hnil, List.filter_cons_of_neg (by decide), List.filter_nil, htext]
        exact .blank (List.forall_mem_append.2 ⟨hfront, hback⟩)
      · rw [List.filter_cons_of_pos (by simpa using hnil), List.filter_nil]
        have hentry : ∀ c ∈ trim text, isSeparator c = false := fun c hc =>
          hsolid c (mem_of_mem_trim hc)
        have hlists := Lists.entry hfront hback (isTrimmed_trim text) hnil hentry
        rwa [← htext] at hlists
    · simp only [List.length_append, List.length_cons] at hlength
      rw [entryTexts_append hseparator]
      exact .join hseparator (ih first.length (by omega) first rfl)
        (ih rest.length (by omega) rest rfl)

/-- Every text has one list of entries, and it is the one that is read. -/
theorem lists_iff {text : List Char} {entries : List (List Char)} :
    Lists text entries ↔ entryTexts text = entries := by
  constructor
  · intro h
    induction h with
    | blank h => exact entryTexts_of_isBlank h
    | entry hfront hback htrimmed hne hentry =>
      rw [entryTexts_append_left hfront, entryTexts_entry hback htrimmed hne hentry]
    | join hseparator _ _ hfirst hrest => rw [entryTexts_append hseparator, hfirst, hrest]
  · rintro rfl
    exact lists_entryTexts text

/-- No entry has blanks at its ends. -/
theorem Lists.isTrimmed {text : List Char} {entries : List (List Char)} (h : Lists text entries) :
    ∀ entry ∈ entries, IsTrimmed entry := by
  induction h with
  | blank => exact nofun
  | entry _ _ htrimmed => exact List.forall_mem_singleton.2 htrimmed
  | join _ _ _ hfirst hrest => exact List.forall_mem_append.2 ⟨hfirst, hrest⟩

/-! ## Numbers -/

/-- A payload type, with the numbers behind it, and what they say.  There may be blanks around
each number. -/
inductive IsNumbers : List Char → List Char → UInt8 → Sampling → Prop where
  | intro {payloadType rate channels : List Char} {value : UInt8} {s : Sampling}
    (hpayloadType : IsDecimal (trim payloadType) value.toNat)
    (hrate : IsDecimal (trim rate) s.rate.toNat)
    (hchannels : IsDecimal (trim channels) s.channels.toNat) :
    IsNumbers payloadType (rate ++ '/' :: channels) value s

/-- Numbers are read only as a sampling, and only from its texts. -/
theorem ofNumbers?_eq_some_iff {payloadType numbers : List Char} {e : Entry} :
    Entry.ofNumbers? payloadType numbers = some e ↔
      ∃ value s, e = .sampling value s ∧ IsNumbers payloadType numbers value s := by
  constructor
  · intro h
    simp only [Entry.ofNumbers?, Option.bind_eq_bind, Option.bind_eq_some_iff] at h
    obtain ⟨⟨rate, channels⟩, hcut, value, hvalue, rateValue, hrate, channelsValue, hchannels, h⟩ :=
      h
    obtain ⟨rfl, -⟩ := cut?_eq_some hcut
    cases h
    exact ⟨value, ⟨rateValue, channelsValue⟩, rfl, .intro (readUInt8?_eq_some_iff.1 hvalue)
      (readUInt32?_eq_some_iff.1 hrate) (readUInt16?_eq_some_iff.1 hchannels)⟩
  · rintro ⟨value, s, rfl, ⟨hvalue, hrate, hchannels⟩⟩
    have hslash := hrate.not_mem_of_trim (c := '/') rfl (by decide) rfl
    rw [Entry.ofNumbers?, cut?_append hslash]
    simp [readUInt8?_eq_some_iff.2 hvalue, readUInt32?_eq_some_iff.2 hrate,
      readUInt16?_eq_some_iff.2 hchannels]

/-- The texts of a sampling are the ones that it is read from. -/
theorem isNumbers_iff {payloadType numbers : List Char} {value : UInt8} {s : Sampling} :
    IsNumbers payloadType numbers value s ↔
      Entry.ofNumbers? payloadType numbers = some (.sampling value s) := by
  rw [ofNumbers?_eq_some_iff]
  constructor
  · intro h
    exact ⟨value, s, rfl, h⟩
  · rintro ⟨_, _, h, hnumbers⟩
    cases h
    exact hnumbers

/-- Blanks around both numbers do not count. -/
theorem ofNumbers?_trim (payloadType numbers : List Char) :
    Entry.ofNumbers? payloadType (trim numbers) = Entry.ofNumbers? payloadType numbers := by
  by_cases hslash : '/' ∈ numbers
  · obtain ⟨rate, channels, rfl, hrate⟩ := List.eq_append_cons_of_mem hslash
    have hstart : '/' ∉ trimStart rate := fun hmem => hrate ((List.dropWhile_sublist _).subset hmem)
    rw [trim_append_cons rfl, Entry.ofNumbers?, Entry.ofNumbers?, cut?_append hstart,
      cut?_append hrate]
    simp
  · have htrim : '/' ∉ trim numbers := fun hmem => hslash (mem_of_mem_trim hmem)
    rw [Entry.ofNumbers?, Entry.ofNumbers?, cut?_eq_none.2 htrim, cut?_eq_none.2 hslash]

theorem ofNumbers?_trimEnd (payloadType numbers : List Char) :
    Entry.ofNumbers? payloadType (trimEnd numbers) = Entry.ofNumbers? payloadType numbers := by
  rw [← ofNumbers?_trim, trim_trimEnd, ofNumbers?_trim]

/-! ## Forms of entries -/

/-- There are two ways to write the name of the encoding. -/
theorem isL16_iff {encoding : List Char} :
    isL16 encoding = true ↔ encoding = ['L', '1', '6'] ∨ encoding = ['l', '1', '6'] := by
  have hletter : ∀ c : Char, c.toLower = 'l' ↔ c = 'L' ∨ c = 'l' := by
    intro c
    rw [← Char.toNat_inj, ← Char.toNat_inj, ← Char.toNat_inj, toNat_toLower]
    change _ = 108 ↔ _ = 76 ∨ _ = 108
    split <;> omega
  have hname : "L16".toList.map Char.toLower = ['l', '1', '6'] := by decide
  simp only [isL16, equalsIgnoringCase, beq_iff_eq, hname, List.map_eq_cons_iff,
    List.map_eq_nil_iff, hletter, toLower_eq_iff (d := '1') (by decide),
    toLower_eq_iff (d := '6') (by decide)]
  constructor
  · rintro ⟨_, _, rfl, rfl | rfl, _, _, rfl, rfl, _, _, rfl, rfl, rfl⟩
    · exact .inl rfl
    · exact .inr rfl
  · rintro (rfl | rfl)
    · exact ⟨_, _, rfl, .inl rfl, _, _, rfl, rfl, _, _, rfl, rfl, rfl⟩
    · exact ⟨_, _, rfl, .inr rfl, _, _, rfl, rfl, _, _, rfl, rfl, rfl⟩

/-- The name of the encoding has no blank, slash or colon, in whatever case it is written. -/
theorem isWord_of_isL16 {encoding : List Char} (h : isL16 encoding = true) :
    IsWord encoding ∧ '/' ∉ encoding ∧ ':' ∉ encoding := by
  obtain rfl | rfl := isL16_iff.1 h <;> decide

/-- The opening that an entry may have. -/
def opening : List Char := "rtpmap:".toList

/-- An entry, and what is left of it without its opening. -/
inductive IsOpened : List Char → List Char → Prop where
  | bare {text : List Char} (h : ¬opening <+: text) : IsOpened text text
  | opened (text : List Char) : IsOpened (opening ++ text) text

theorem IsOpened.ofText?_eq {text rest : List Char} (h : IsOpened text rest) :
    Entry.ofText? text = Entry.ofBareText? rest := by
  cases h with
  | bare h =>
    have hnone : afterOpening? opening text = none := by
      rw [Option.eq_none_iff_forall_ne_some]
      intro rest hrest
      exact h ⟨rest, (eq_append_of_afterOpening? hrest).symm⟩
    rw [Entry.ofText?, show "rtpmap:".toList = opening from rfl, hnone, Option.getD_none]
  | opened =>
    rw [Entry.ofText?, show "rtpmap:".toList = opening from rfl, afterOpening?_append,
      Option.getD_some]

/-- An entry without its opening, and the parts of it that should be numbers. -/
inductive HasNumbers : List Char → List Char → List Char → Prop where
  /-- The numbers stand behind a colon. -/
  | colon {payloadType : List Char} (h : ':' ∉ payloadType) (numbers : List Char) :
    HasNumbers (payloadType ++ ':' :: numbers) payloadType numbers
  /-- The numbers stand behind the encoding. -/
  | named {payloadType encoding numbers : List Char} (hsolid : ∀ c ∈ payloadType, isBlank c = false)
    (hencoding : isL16 encoding = true) (hcolon : ':' ∉ payloadType) (hnumbers : ':' ∉ numbers) :
    HasNumbers (payloadType ++ ' ' :: (encoding ++ '/' :: numbers)) payloadType numbers

/-- An entry for another encoding. -/
inductive IsOther : List Char → Prop where
  | intro {payloadType encoding rest : List Char} (hsolid : ∀ c ∈ payloadType, isBlank c = false)
    (hencoding : isL16 encoding = false) (hslash : '/' ∉ encoding)
    (hhead : ∀ c ∈ encoding.head?, isBlank c = false)
    (hcolon : ':' ∉ payloadType ++ ' ' :: (encoding ++ '/' :: rest)) :
    IsOther (payloadType ++ ' ' :: (encoding ++ '/' :: rest))

/-- An entry without a colon is cut at its first blank and at its first slash. -/
theorem ofBareText?_named {payloadType encoding numbers : List Char}
    (hsolid : ∀ c ∈ payloadType, isBlank c = false) (hslash : '/' ∉ encoding)
    (hhead : ∀ c ∈ encoding.head?, isBlank c = false)
    (hcolon : ':' ∉ payloadType ++ ' ' :: (encoding ++ '/' :: numbers)) :
    Entry.ofBareText? (payloadType ++ ' ' :: (encoding ++ '/' :: numbers))
      = if isL16 encoding then Entry.ofNumbers? payloadType numbers else some .other := by
  have htrim : trim (encoding ++ '/' :: numbers) = encoding ++ '/' :: trimEnd numbers := by
    rw [trim_append_cons rfl, trimStart, dropWhile_of_head? hhead]
  rw [Entry.ofBareText?, cut?_eq_none.2 hcolon]
  simp only [cutWhere?_append hsolid (c := ' ') rfl, Option.bind_eq_bind, Option.bind_some, htrim,
    cut?_append hslash, ofNumbers?_trimEnd]
  rfl

/-- Both forms of an entry leave the same two texts to be read as numbers. -/
theorem HasNumbers.ofBareText?_eq {text payloadType numbers : List Char}
    (h : HasNumbers text payloadType numbers) :
    Entry.ofBareText? text = Entry.ofNumbers? payloadType numbers := by
  cases h with
  | colon h =>
    rw [Entry.ofBareText?, cut?_append h]
    exact ofNumbers?_trim payloadType numbers
  | @named _ encoding _ hsolid hencoding hcolon hnumbers =>
    obtain ⟨hword, hslash, hname⟩ := isWord_of_isL16 hencoding
    rw [ofBareText?_named hsolid hslash hword.isTrimmed.head (by simp [hcolon, hnumbers, hname]),
      if_pos hencoding]

/-- Entries for other encodings are passed over, whatever their numbers are. -/
theorem IsOther.ofText?_eq {text : List Char} (h : IsOther text) :
    Entry.ofText? text = some .other := by
  obtain ⟨hsolid, hencoding, hslash, hhead, hcolon⟩ := h
  have hopening : ¬opening <+: _ := fun hbegins => hcolon (hbegins.subset (by decide))
  rw [(IsOpened.bare hopening).ofText?_eq, ofBareText?_named hsolid hslash hhead hcolon, hencoding]
  rfl

/-- What an entry says. -/
inductive IsEntry : List Char → Entry → Prop where
  /-- Numbers for the encoding that is read, with the opening or without it. -/
  | sampling {text rest payloadType numbers : List Char} {value : UInt8} {s : Sampling}
    (hopening : text = rest ∨ text = opening ++ rest)
    (hform : HasNumbers rest payloadType numbers)
    (hnumbers : IsNumbers payloadType numbers value s) : IsEntry text (.sampling value s)
  /-- Something for another encoding. -/
  | other {text : List Char} (h : IsOther text) : IsEntry text .other

/-- The opening is no payload type. -/
theorem HasNumbers.not_isPrefix {text payloadType numbers : List Char}
    (h : HasNumbers text payloadType numbers) {n : ℕ}
    (hpayloadType : IsDecimal (trim payloadType) n) : ¬opening <+: text := by
  rintro ⟨rest, hrest⟩
  cases h with
  | colon h =>
    have hcut : cut? ':' ("rtpmap".toList ++ ':' :: rest) = some ("rtpmap".toList, rest) :=
      cut?_append (by decide) rest
    rw [show "rtpmap".toList ++ ':' :: rest = opening ++ rest from rfl, hrest,
      cut?_append h] at hcut
    cases hcut
    exact hpayloadType.not_mem_of_trim (c := 'r') rfl (by decide) rfl (by decide)
  | @named _ encoding _ hsolid hencoding hcolon hnumbers =>
    obtain ⟨-, -, hname⟩ := isWord_of_isL16 hencoding
    have hmem : ':' ∈ opening ++ rest := List.mem_append_left _ (by decide)
    rw [hrest] at hmem
    simp [hcolon, hnumbers, hname] at hmem

/-- An entry is read as what it says. -/
theorem IsEntry.ofText?_eq {text : List Char} {e : Entry} (h : IsEntry text e) :
    Entry.ofText? text = some e := by
  cases h with
  | @sampling rest _ _ _ _ hopening hform hnumbers =>
    have hopened : IsOpened text rest := by
      obtain rfl | rfl := hopening
      · obtain ⟨hpayloadType, -, -⟩ := hnumbers
        exact .bare (hform.not_isPrefix hpayloadType)
      · exact .opened rest
    rw [hopened.ofText?_eq, hform.ofBareText?_eq]
    exact isNumbers_iff.1 hnumbers
  | other h => exact h.ofText?_eq

end MediaTransport.Audio
