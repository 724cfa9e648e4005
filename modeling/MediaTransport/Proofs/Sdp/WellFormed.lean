import MediaTransport.Proofs.Text.Lines
import MediaTransport.Sdp.Description

/-!
# What a reader of descriptions returns

A description is *well formed* when it can be written down line by line without
losing a character: no text in it breaks its line, a text at the end of a line has
no carriage return there to be taken for part of the line's end, the name of an
attribute stops before the first colon, and the fields of a heading are words.

The reader of `Sdp.Description` returns well-formed descriptions only
(`Description.wellFormed_of_parse`).  The property is carried by the draft: each line
ends as a line should (`endsLine_of_mem_contentLines`), the value of a line is a final
part of it (`EndsLine.of_append`), and each of the seven keys keeps the draft well
formed (`Draft.WellFormed.put?`).
-/

namespace MediaTransport.Sdp

open Text

/-! ## Lines -/

/-- Every line of a text ends as a line should. -/
theorem endsLine_of_mem_contentLines {text : String} {line : List Char}
    (h : line ∈ contentLines text) : EndsLine line := by
  rw [contentLines, List.mem_map] at h
  obtain ⟨whole, hwhole, rfl⟩ := h
  refine ⟨fun hmem => ?_, fun c hc => ?_⟩
  · exact newline_not_mem_of_mem_lines hwhole (mem_of_mem_dropEndWhile hmem)
  · have hkept := getLast?_dropEndWhile (· == '\r') whole c hc
    simpa using hkept

/-! ## Well-formed descriptions -/

/-- An attribute that fits on a line and keeps its name. -/
structure Attribute.WellFormed (a : Attribute) : Prop where
  /-- The name does not break the line. -/
  newline : '\n' ∉ a.name.toList
  /-- The name stops before the first colon. -/
  colon : ':' ∉ a.name.toList
  /-- The name of a flag ends the line. -/
  flag : a.value = none → EndsLine a.name.toList
  /-- A value ends the line. -/
  value : ∀ value ∈ a.value, EndsLine value.toList

/-- A section whose heading has words as its fields. -/
structure Section.WellFormed (s : Section) : Prop where
  /-- The medium is a word. -/
  media : IsWord s.media.toList
  /-- The protocol is a word. -/
  protocol : IsWord s.protocol.toList
  /-- The formats are words. -/
  formats : ∀ format ∈ s.formats, IsWord format.toList
  /-- The connection ends its line. -/
  connection : ∀ connection ∈ s.connection, EndsLine connection.toList
  /-- The attributes are well formed. -/
  attributes : ∀ a ∈ s.attributes, a.WellFormed

/-- A description that can be written line by line. -/
structure Description.WellFormed (d : Description) : Prop where
  /-- The origin ends its line. -/
  origin : ∀ origin ∈ d.origin, EndsLine origin.toList
  /-- The name ends its line. -/
  name : EndsLine d.name.toList
  /-- The connection ends its line. -/
  connection : ∀ connection ∈ d.connection, EndsLine connection.toList
  /-- The attributes of the session are well formed. -/
  attributes : ∀ a ∈ d.attributes, a.WellFormed
  /-- The sections are well formed. -/
  media : ∀ s ∈ d.media, s.WellFormed

/-! ## Reading values -/

theorem Attribute.ofText_wellFormed {text : List Char} (h : EndsLine text) :
    (Attribute.ofText text).WellFormed := by
  unfold Attribute.ofText
  split
  next name value hcut =>
    obtain ⟨rfl, hcolon⟩ := cut?_eq_some hcut
    constructor
    · exact fun hmem => h.newline (List.mem_append_left _ (by simpa using hmem))
    · simpa using hcolon
    · exact fun hnone => nomatch hnone
    · rintro _ ⟨⟩
      rw [String.toList_ofList]
      exact EndsLine.of_append (name ++ [':']) (by simpa using h)
  next hcut =>
    have hcolon := cut?_eq_none.1 hcut
    constructor
    · simpa using h.newline
    · simpa using hcolon
    · simpa using h
    · exact fun _ hnone => nomatch hnone

theorem Section.ofText?_wellFormed {value : List Char} {s : Section}
    (h : Section.ofText? value = some s) : s.WellFormed := by
  have hwords : ∀ word ∈ words value, IsWord word := fun _ hword => isWord_of_mem_words hword
  unfold Section.ofText? at h
  split at h
  next media port protocol formats heq =>
    rw [heq] at hwords
    simp only [List.forall_mem_cons] at hwords
    obtain ⟨hmedia, -, hprotocol, hformats⟩ := hwords
    obtain ⟨port, -, hs⟩ := Option.bind_eq_some_iff.1 h
    cases hs
    constructor
    · simpa using hmedia
    · simpa using hprotocol
    · simpa using hformats
    · exact fun _ hnone => nomatch hnone
    · exact fun _ hnil => nomatch hnil
  next => cases h

/-! ## Drafts -/

/-- A draft that becomes a well-formed description. -/
structure Draft.WellFormed (d : Draft) : Prop where
  /-- The origin ends its line. -/
  origin : ∀ origin ∈ d.origin, EndsLine origin.toList
  /-- The name ends its line. -/
  name : EndsLine d.name.toList
  /-- The connection ends its line. -/
  connection : ∀ connection ∈ d.connection, EndsLine connection.toList
  /-- The attributes of the session are well formed. -/
  attributes : ∀ a ∈ d.attributes, a.WellFormed
  /-- The sections are well formed. -/
  sections : ∀ s ∈ d.sections, s.WellFormed

namespace Draft.WellFormed

variable {d d' : Draft} {text value : List Char}

theorem empty : Draft.WellFormed {} where
  origin := by simp
  name := EndsLine.nil
  connection := by simp
  attributes := by simp
  sections := by simp

theorem withConnection (hd : d.WellFormed) (h : EndsLine value) :
    (d.withConnection (String.ofList value)).WellFormed := by
  have hvalue : ∀ connection ∈ some (String.ofList value), EndsLine connection.toList := by
    simpa using h
  unfold Draft.withConnection
  split
  next => exact { hd with connection := hvalue }
  next s earlier heq =>
    have hsections := hd.sections
    rw [heq, List.forall_mem_cons] at hsections
    obtain ⟨hs, hearlier⟩ := hsections
    exact { hd with sections := List.forall_mem_cons.2 ⟨{ hs with connection := hvalue }, hearlier⟩ }

theorem withAttribute (hd : d.WellFormed) {a : Attribute} (ha : a.WellFormed) :
    (d.withAttribute a).WellFormed := by
  unfold Draft.withAttribute
  split
  next =>
    have hall : ∀ b ∈ d.attributes ++ [a], b.WellFormed := by
      simpa [or_imp, forall_and] using ⟨hd.attributes, ha⟩
    exact { hd with attributes := hall }
  next s earlier heq =>
    have hsections := hd.sections
    rw [heq, List.forall_mem_cons] at hsections
    obtain ⟨hs, hearlier⟩ := hsections
    have hall : ∀ b ∈ s.attributes ++ [a], b.WellFormed := by
      simpa [or_imp, forall_and] using ⟨hs.attributes, ha⟩
    exact { hd with sections := List.forall_mem_cons.2 ⟨{ hs with attributes := hall }, hearlier⟩ }

/-- Each key keeps a draft well formed, as its value ends a line. -/
theorem put? (hd : d.WellFormed) (hvalue : EndsLine value) {key : Char}
    (h : d.put? key value = some d') : d'.WellFormed := by
  unfold Draft.put? at h
  split at h
  case h_1 =>
    obtain ⟨version, -, rfl⟩ := Option.map_eq_some_iff.1 h
    exact { hd with }
  case h_2 =>
    cases h
    exact { hd with origin := by simpa using hvalue }
  case h_3 =>
    cases h
    exact { hd with name := by simpa using hvalue }
  case h_4 =>
    cases h
    exact hd.withConnection hvalue
  case h_5 =>
    obtain ⟨s, hs, rfl⟩ := Option.map_eq_some_iff.1 h
    have hs := Section.ofText?_wellFormed hs
    exact { hd with sections := List.forall_mem_cons.2 ⟨hs, hd.sections⟩ }
  case h_6 =>
    cases h
    exact hd.withAttribute (Attribute.ofText_wellFormed hvalue)
  case h_7 =>
    cases h
    exact hd

theorem read? (hd : d.WellFormed) (htext : EndsLine text) (h : d.read? text = some d') :
    d'.WellFormed := by
  unfold Draft.read? at h
  split at h
  next =>
    cases h
    exact hd
  next =>
    split at h
    next key value hcut =>
      obtain ⟨rfl, -⟩ := cut?_eq_some hcut
      have hvalue : EndsLine value := EndsLine.of_append [key, '='] htext
      split at h
      next => exact hd.put? hvalue h
      next => cases h
    next => cases h

/-- A draft stays well formed along the lines of a text. -/
theorem readAll (hd : d.WellFormed) {ls : List (List Char)} (hls : ∀ line ∈ ls, EndsLine line)
    (h : d.readAll ls = .ok d') : d'.WellFormed := by
  induction ls generalizing d with
  | nil =>
    cases h
    exact hd
  | cons text rest ih =>
    obtain ⟨htext, hrest⟩ := List.forall_mem_cons.1 hls
    rw [Draft.readAll] at h
    split at h
    next next hnext => exact ih (hd.read? htext hnext) hrest h
    next => cases h

/-- So the description that it becomes is well formed. -/
theorem finish? (hd : d.WellFormed) {description : Description}
    (h : d.finish? = some description) : description.WellFormed := by
  obtain ⟨version, -, rfl⟩ := Option.map_eq_some_iff.1 h
  exact { hd with media := fun s hs => hd.sections s (List.mem_reverse.1 hs) }

end Draft.WellFormed

/-- The reader returns well-formed descriptions only. -/
theorem Description.wellFormed_of_parse {text : String} {d : Description}
    (h : Description.parse text = .ok d) : d.WellFormed := by
  have hread : Description.read text = .ok d := by
    unfold Description.parse at h
    cases hread : Description.read text with
    | error bad => rw [hread] at h; cases h
    | ok read => rw [hread] at h; cases h; rfl
  unfold Description.read at hread
  split at hread
  next => cases hread
  next draft hdraft =>
    have hwell : draft.WellFormed :=
      Draft.WellFormed.empty.readAll (fun _ hline => endsLine_of_mem_contentLines hline) hdraft
    split at hread
    next finished hfinish =>
      cases hread
      exact hwell.finish? hfinish
    next => cases hread

end MediaTransport.Sdp
