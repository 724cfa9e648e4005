import MediaTransport.Proofs.Sdp.WellFormed
import MediaTransport.Proofs.Text.Numeral

/-!
# Writing and reading descriptions

A written description is a list of *fields*, each a key and a value on a line of its
own (`Description.toList_render`).  The reader gets the lines back as they were written
(`contentLines_eq`) and puts the fields into its draft one by one (`Draft.readAll_fields`).

What the fields of one part do to a draft is said once for each part: a connection
and attributes go to the session while no section is open, and to the open section
afterwards; the fields of a section open it and fill it (`Draft.putAll_section`).  So
a well-formed description is read back, with an origin if it had none
(`Description.parse_render`).
-/

namespace MediaTransport.Sdp

open Text

/-! ## Fields -/

/-- A key and its value. -/
structure Field where
  /-- What the line speaks of. -/
  key : Char
  /-- What it says. -/
  value : List Char

/-- The line of a field. -/
def Field.line (f : Field) : List Char := f.key :: '=' :: f.value

/-- The keys that are written. -/
def keys : List Char := ['v', 'o', 's', 'c', 't', 'm', 'a']

/-- A field that is written on one line. -/
structure Field.IsWritable (f : Field) : Prop where
  /-- The key is one of the written keys. -/
  key : f.key ∈ keys
  /-- The value ends the line. -/
  value : EndsLine f.value

theorem key_cases {key : Char} (h : key ∈ keys) :
    key ≠ '=' ∧ key.toNat < 0x80 ∧ EndsLine [key, '='] := by
  have hall : keys.all (fun key => key != '=' && key.toNat < 0x80 && key != '\n') = true := by
    decide
  have hkey := List.all_eq_true.1 hall key h
  simp only [Bool.and_eq_true, bne_iff_ne, decide_eq_true_eq] at hkey
  obtain ⟨⟨hequals, hascii⟩, hnewline⟩ := hkey
  have hbefore : '\n' ∉ [key] := by simpa using hnewline.symm
  have hmark : EndsLine ['='] := .of_getLast? (by decide) rfl (by decide)
  exact ⟨hequals, hascii, EndsLine.concat hbefore hmark⟩

theorem Field.IsWritable.endsLine {f : Field} (h : f.IsWritable) : EndsLine f.line :=
  (key_cases h.key).2.2.append h.value

/-- The text of an attribute behind its key. -/
def Attribute.text (a : Attribute) : List Char :=
  match a.value with
  | some value => a.name.toList ++ ':' :: value.toList
  | none => a.name.toList

/-- The field of an attribute. -/
def Attribute.field (a : Attribute) : Field := ⟨'a', a.text⟩

/-- The field of a connection, if there is one. -/
def connectionFields : Option String → List Field
  | some connection => [⟨'c', connection.toList⟩]
  | none => []

/-- The text of a section's heading behind its key. -/
def Section.text (s : Section) : List Char :=
  s.media.toList ++ ' ' :: ((toString s.port).toList ++ ' ' :: (s.protocol.toList
    ++ ' ' :: [' '].intercalate (s.formats.map String.toList)))

/-- The fields of a section. -/
def Section.fields (s : Section) : List Field :=
  ⟨'m', s.text⟩ :: (connectionFields s.connection ++ s.attributes.map Attribute.field)

/-- The fields of the session before its connection. -/
def Description.opening (d : Description) : List Field :=
  [⟨'v', (toString d.version).toList⟩, ⟨'o', (d.origin.getD unknownOrigin).toList⟩,
    ⟨'s', d.name.toList⟩]

/-- The fields of a description. -/
def Description.fields (d : Description) : List Field :=
  d.opening ++ (connectionFields d.connection ++ (⟨'t', ['0', ' ', '0']⟩
    :: (d.attributes.map Attribute.field ++ d.media.flatMap Section.fields)))

/-! ## Writing -/

/-- The fields as they are written. -/
def written (fields : List Field) : List Char := joinLines (fields.map Field.line)

theorem written_append (first rest : List Field) :
    written (first ++ rest) = written first ++ written rest := by
  simp [written, joinLines]

theorem written_cons (f : Field) (rest : List Field) :
    written (f :: rest) = f.line ++ '\r' :: '\n' :: written rest := by
  simp [written, joinLines]

theorem Attribute.toList_render (a : Attribute) : a.render.toList = a.field.line := by
  unfold Attribute.render Attribute.field Attribute.text
  split <;> simp [Field.line, *]

theorem toList_attributeLines (attributes : List Attribute) :
    (attributeLines attributes).toList = written (attributes.map Attribute.field) := by
  rw [attributeLines, String.toList_join, written, joinLines, List.flatMap_map, List.flatMap_map,
    List.flatMap_map]
  congr 1
  funext a
  simp [line, Attribute.toList_render]

theorem toList_connectionLine (connection : Option String) :
    (connectionLine connection).toList = written (connectionFields connection) := by
  cases connection <;>
    simp [connectionLine, connectionFields, line, written, joinLines, Field.line]

theorem Section.toList_heading (s : Section) : s.heading.toList = (⟨'m', s.text⟩ : Field).line := by
  simp [Section.heading, Section.text, Field.line, joinWith, String.toList_intercalate]

theorem Section.toList_render (s : Section) : s.render.toList = written s.fields := by
  rw [Section.render, Section.fields, written_cons, written_append, ← toList_connectionLine,
    ← toList_attributeLines]
  simp [line, Section.toList_heading]

/-- A description is written field by field. -/
theorem Description.toList_render (d : Description) : d.render.toList = written d.fields := by
  have hmedia : (String.join (d.media.map Section.render)).toList
      = written (d.media.flatMap Section.fields) := by
    rw [String.toList_join, List.flatMap_map]
    simp only [Section.toList_render, written, joinLines, List.map_flatMap, List.flatMap_assoc]
  rw [Description.render, Description.fields, written_append, written_append, written_cons,
    written_append, ← hmedia, ← toList_connectionLine, ← toList_attributeLines]
  simp [line, Description.opening, written, joinLines, Field.line]

/-! ## Fields are writable -/

theorem isWord_toString (n : ℕ) : IsWord (toString n).toList where
  ne_nil := by
    rw [toList_toString]
    exact Nat.toDigits_ne_nil
  solid _ hc := isBlank_of_isDigit (isDigit_of_mem_toString hc)

theorem Attribute.WellFormed.field {a : Attribute} (ha : a.WellFormed) : a.field.IsWritable where
  key := by simp [Attribute.field, keys]
  value := by
    unfold Attribute.field Attribute.text
    split
    next value hvalue =>
      have hvalue := ha.value value hvalue
      have hmark : EndsLine [':'] := .of_getLast? (by decide) rfl (by decide)
      have hname : EndsLine (a.name.toList ++ [':']) := EndsLine.concat ha.newline hmark
      simpa using hname.append hvalue
    next hnone => exact ha.flag hnone

theorem connectionFields_isWritable {connection : Option String}
    (h : ∀ c ∈ connection, EndsLine c.toList) : ∀ f ∈ connectionFields connection, f.IsWritable := by
  cases connection with
  | none => exact fun _ hnil => nomatch hnil
  | some c =>
    rintro f hf
    cases List.mem_singleton.1 hf
    exact ⟨by simp [keys], h c rfl⟩

/-- A heading ends its line, as it ends in a word or in a blank. -/
theorem Section.WellFormed.text {s : Section} (hs : s.WellFormed) : EndsLine s.text := by
  have hblank : EndsLine [' '] := .of_getLast? (by decide) rfl (by decide)
  have hwords : ∀ ws : List (List Char), (∀ word ∈ ws, IsWord word) →
      EndsLine ([' '].intercalate ws) := by
    intro ws hws
    induction ws with
    | nil => exact EndsLine.nil
    | cons word rest ih =>
      obtain ⟨hword, hrest⟩ := List.forall_mem_cons.1 hws
      cases rest with
      | nil => simpa using hword.endsLine
      | cons next more =>
        rw [List.intercalate_cons_cons]
        exact (hword.endsLine.append hblank).append (ih hrest)
  have hformats := hwords (s.formats.map String.toList) (by simpa using hs.formats)
  have hport : EndsLine (toString s.port).toList := (isWord_toString s.port.toNat).endsLine
  have hrest := hblank.append (hs.protocol.endsLine.append (hblank.append hformats))
  exact hs.media.endsLine.append (hblank.append (hport.append hrest))

theorem Section.WellFormed.fields {s : Section} (hs : s.WellFormed) :
    ∀ f ∈ s.fields, f.IsWritable := by
  rw [Section.fields, List.forall_mem_cons, List.forall_mem_append, List.forall_mem_map]
  exact ⟨⟨by simp [keys], hs.text⟩, connectionFields_isWritable hs.connection,
    fun a ha => (hs.attributes a ha).field⟩

theorem Description.WellFormed.fields {d : Description} (hd : d.WellFormed) :
    ∀ f ∈ d.fields, f.IsWritable := by
  have horigin : EndsLine (d.origin.getD unknownOrigin).toList := by
    cases hcase : d.origin with
    | none => exact .of_getLast? (by decide) (by decide : _ = some '0') (by decide)
    | some origin => exact hd.origin origin hcase
  have hversion : EndsLine (toString d.version).toList :=
    (isWord_toString d.version.toNat).endsLine
  have hopening : ∀ f ∈ d.opening, f.IsWritable := by
    simp only [Description.opening, List.forall_mem_cons]
    exact ⟨⟨by simp [keys], hversion⟩, ⟨by simp [keys], horigin⟩,
      ⟨by simp [keys], hd.name⟩, fun _ hnil => nomatch hnil⟩
  rw [Description.fields, List.forall_mem_append, List.forall_mem_append, List.forall_mem_cons,
    List.forall_mem_append, List.forall_mem_map, List.forall_mem_flatMap]
  have htime : EndsLine ['0', ' ', '0'] := .of_getLast? (by decide) rfl (by decide)
  exact ⟨hopening, connectionFields_isWritable hd.connection, ⟨by simp [keys], htime⟩,
    fun a ha => (hd.attributes a ha).field, fun s hs => (hd.media s hs).fields⟩

/-! ## Reading lines -/

/-- Lines come back without the carriage returns that they end with. -/
theorem contentLines_joinLines {text : String} {ls : List (List Char)}
    (htext : text.toList = joinLines ls) (hls : ∀ line ∈ ls, '\n' ∉ line) :
    contentLines text = ls.map (dropEndWhile (· == '\r')) := by
  rw [contentLines, htext, lines_joinLines hls]

theorem dropEndWhile_endsLine {line : List Char} (h : EndsLine line) :
    dropEndWhile (· == '\r') line = line := by
  refine dropEndWhile_of_getLast? fun c hc => ?_
  simpa using h.last c hc

/-- Lines that end as lines should come back as they were written. -/
theorem contentLines_eq {text : String} {ls : List (List Char)} (htext : text.toList = joinLines ls)
    (hls : ∀ line ∈ ls, EndsLine line) : contentLines text = ls := by
  rw [contentLines_joinLines htext fun line hline => (hls line hline).newline,
    List.map_congr_left fun line hline => dropEndWhile_endsLine (hls line hline), List.map_id']

namespace Draft

variable {d d' : Draft}

/-- The draft after some fields. -/
def putAll (d : Draft) (fields : List Field) : Option Draft :=
  fields.foldlM (fun d f => d.put? f.key f.value) d

@[simp] theorem putAll_nil (d : Draft) : d.putAll [] = some d := rfl

theorem putAll_cons (d : Draft) (f : Field) (rest : List Field) :
    d.putAll (f :: rest) = (d.put? f.key f.value).bind (·.putAll rest) := rfl

/-- Fields are put in one behind the other. -/
theorem putAll_append (d : Draft) (first rest : List Field) :
    d.putAll (first ++ rest) = (d.putAll first).bind (·.putAll rest) :=
  List.foldlM_append

/-- The line of a field is not blank, so it is read as the field. -/
theorem read?_line (d : Draft) {f : Field} (hequals : f.key ≠ '=') (hascii : f.key.toNat < 0x80) :
    d.read? f.line = d.put? f.key f.value := by
  have hmem : '=' ∈ f.line := List.mem_cons_of_mem f.key List.mem_cons_self
  have hline : isAllBlank f.line = false := isAllBlank_eq_false hmem (by decide)
  have hkey : '=' ∉ [f.key] := by simpa using hequals.symm
  have hcut : cut? '=' f.line = some ([f.key], f.value) := cut?_append hkey f.value
  rw [Draft.read?, hline, if_neg Bool.false_ne_true, hcut]
  exact if_pos hascii

/-- Fields that can be put in are read from their lines. -/
theorem readAll_fields {fields : List Field} (hkeys : ∀ f ∈ fields, f.key ∈ keys)
    (h : d.putAll fields = some d') : d.readAll (fields.map Field.line) = .ok d' := by
  induction fields generalizing d with
  | nil =>
    cases h
    rfl
  | cons f rest ih =>
    obtain ⟨hf, hrest⟩ := List.forall_mem_cons.1 hkeys
    rw [putAll_cons] at h
    obtain ⟨next, hnext, h⟩ := Option.bind_eq_some_iff.1 h
    obtain ⟨hequals, hascii, -⟩ := key_cases hf
    rw [List.map_cons, Draft.readAll, read?_line d hequals hascii, hnext]
    exact ih hrest h

end Draft

/-! ## Reading values -/

/-- When the name has no colon, the first colon is the one that was written behind it. -/
theorem Attribute.ofText_text {a : Attribute} (hcolon : ':' ∉ a.name.toList) :
    Attribute.ofText a.text = a := by
  obtain ⟨name, value⟩ := a
  cases value with
  | none => rw [Attribute.ofText, Attribute.text, cut?_eq_none.2 hcolon, String.ofList_toList]
  | some value =>
    rw [Attribute.ofText, Attribute.text, cut?_append hcolon]
    simp only [String.ofList_toList]

theorem before_toString (n : ℕ) : before '/' (toString n).toList = (toString n).toList := by
  refine List.takeWhile_eq_self_iff.2 fun c hc => ?_
  have hdigit := isDigit_of_mem_toString hc
  rw [bne_iff_ne]
  rintro rfl
  exact absurd hdigit (by decide)

/-- A heading is read as a section without a connection and attributes. -/
theorem Section.WellFormed.ofText?_text {s : Section} (hs : s.WellFormed) :
    Section.ofText? s.text = some { s with connection := none, attributes := [] } := by
  have hformats : ∀ word ∈ s.formats.map String.toList, IsWord word := by simpa using hs.formats
  have hport : IsWord (toString s.port).toList := isWord_toString s.port.toNat
  have hbefore : before '/' (toString s.port).toList = (toString s.port).toList :=
    before_toString s.port.toNat
  rw [Section.ofText?, Section.text, hs.media.words_append, hport.words_append,
    hs.protocol.words_append, words_intercalate hformats]
  simp [hbefore, Function.comp_def]

theorem readUInt32?_trim (n : UInt32) : readUInt32? (trim (toString n).toList) = some n := by
  have hword : IsWord (toString n).toList := isWord_toString n.toNat
  rw [hword.isTrimmed.trim_eq, readUInt32?_toString]

/-! ## Reading fields -/

namespace Draft

variable {d : Draft}

/-- Attributes before the first section are those of the session. -/
theorem putAll_attributes_session (attributes : List Attribute)
    (hall : ∀ a ∈ attributes, a.WellFormed) (hd : d.sections = []) :
    d.putAll (attributes.map Attribute.field)
      = some { d with attributes := d.attributes ++ attributes } := by
  induction attributes generalizing d with
  | nil => simp
  | cons a rest ih =>
    obtain ⟨ha, hrest⟩ := List.forall_mem_cons.1 hall
    have hput : d.put? 'a' a.text = some { d with attributes := d.attributes ++ [a] } := by
      simp only [put?, Attribute.ofText_text ha.colon, withAttribute, hd]
    rw [List.map_cons, putAll_cons, Attribute.field, hput, Option.bind_some, ih hrest (by exact hd)]
    simp

/-- Attributes behind a heading are those of its section. -/
theorem putAll_attributes_section (attributes : List Attribute)
    (hall : ∀ a ∈ attributes, a.WellFormed) {s : Section} {earlier : List Section}
    (hd : d.sections = s :: earlier) :
    d.putAll (attributes.map Attribute.field)
      = some { d with sections := { s with attributes := s.attributes ++ attributes } :: earlier } := by
  induction attributes generalizing d s with
  | nil => simp [← hd]
  | cons a rest ih =>
    obtain ⟨ha, hrest⟩ := List.forall_mem_cons.1 hall
    have hput : d.put? 'a' a.text
        = some { d with sections := { s with attributes := s.attributes ++ [a] } :: earlier } := by
      simp only [put?, Attribute.ofText_text ha.colon, withAttribute, hd]
    rw [List.map_cons, putAll_cons, Attribute.field, hput, Option.bind_some, ih hrest rfl]
    simp

theorem putAll_connection_session (connection : Option String) (hd : d.sections = [])
    (hnone : d.connection = none) :
    d.putAll (connectionFields connection) = some { d with connection } := by
  cases connection with
  | none => simp [connectionFields, ← hnone]
  | some c => simp [connectionFields, putAll_cons, put?, withConnection, hd]

theorem putAll_connection_section (connection : Option String) {s : Section}
    {earlier : List Section} (hd : d.sections = s :: earlier) (hnone : s.connection = none) :
    d.putAll (connectionFields connection)
      = some { d with sections := { s with connection } :: earlier } := by
  cases connection with
  | none => simp [connectionFields, ← hnone, ← hd]
  | some c => simp [connectionFields, putAll_cons, put?, withConnection, hd]

/-- The fields of a section open it and fill it. -/
theorem putAll_section (d : Draft) {s : Section} (hs : s.WellFormed) :
    d.putAll s.fields = some { d with sections := s :: d.sections } := by
  rw [Section.fields, putAll_cons, put?, hs.ofText?_text, Option.map_some, Option.bind_some,
    putAll_append, putAll_connection_section s.connection rfl rfl, Option.bind_some,
    putAll_attributes_section s.attributes hs.attributes rfl, List.nil_append]

theorem putAll_sections (d : Draft) (sections : List Section)
    (hall : ∀ s ∈ sections, s.WellFormed) :
    d.putAll (sections.flatMap Section.fields)
      = some { d with sections := sections.reverse ++ d.sections } := by
  induction sections generalizing d with
  | nil => simp
  | cons s rest ih =>
    obtain ⟨hs, hrest⟩ := List.forall_mem_cons.1 hall
    rw [List.flatMap_cons, putAll_append, putAll_section d hs, Option.bind_some, ih _ hrest]
    simp

end Draft

/-! ## The round trip -/

/-- A description with an origin, as one is written for every session. -/
def Description.withOrigin (d : Description) : Description :=
  { d with origin := some (d.origin.getD unknownOrigin) }

/-- The draft that becomes a description. -/
def Description.draft (d : Description) : Draft where
  version := some d.version
  origin := d.origin
  name := d.name
  connection := d.connection
  attributes := d.attributes
  sections := d.media.reverse

theorem Description.finish?_draft (d : Description) : d.draft.finish? = some d := by
  simp [Description.draft, Draft.finish?]

/-- Putting in the fields of a description gives it back, with an origin if it had none. -/
theorem Description.putAll_fields {d : Description} (hd : d.WellFormed) :
    Draft.putAll {} d.fields = some d.withOrigin.draft := by
  have hopening : Draft.putAll {} d.opening = some
      { version := some d.version, origin := some (d.origin.getD unknownOrigin), name := d.name } := by
    simp [Description.opening, Draft.putAll_cons, Draft.put?, readUInt32?_trim]
  have htime : ∀ draft : Draft, draft.put? 't' ['0', ' ', '0'] = some draft := fun _ => rfl
  rw [Description.fields, Draft.putAll_append, hopening, Option.bind_some, Draft.putAll_append,
    Draft.putAll_connection_session d.connection rfl rfl, Option.bind_some, Draft.putAll_cons,
    htime, Option.bind_some, Draft.putAll_append,
    Draft.putAll_attributes_session d.attributes hd.attributes rfl, Option.bind_some,
    Draft.putAll_sections _ d.media hd.media]
  simp [Description.draft, Description.withOrigin]

/-- A well-formed description is read back from its text. -/
theorem Description.parse_render {d : Description} (hd : d.WellFormed) :
    Description.parse d.render = .ok d.withOrigin := by
  have hlines : contentLines d.render = d.fields.map Field.line := by
    refine contentLines_eq d.toList_render ?_
    rw [List.forall_mem_map]
    exact fun f hf => (hd.fields f hf).endsLine
  have hread : Draft.readAll {} (d.fields.map Field.line) = .ok d.withOrigin.draft :=
    Draft.readAll_fields (fun f hf => (hd.fields f hf).key) (Description.putAll_fields hd)
  rw [Description.parse, Description.read, hlines, hread]
  simp [Description.finish?_draft, Except.mapError]

/-- A name that may stand in a description, and what is read back for it. -/
def trimmedName (name : String) : String :=
  String.ofList (dropEndWhile (· == '\r') name.toList)

theorem endsLine_trimmedName {name : String} (h : '\n' ∉ name.toList) :
    EndsLine (trimmedName name).toList := by
  rw [trimmedName, String.toList_ofList]
  constructor
  · intro hmem
    exact h (mem_of_mem_dropEndWhile hmem)
  · intro c hc
    simpa using getLast?_dropEndWhile (· == '\r') name.toList c hc

/-- The line of a name is cut where the name is. -/
theorem dropEndWhile_nameLine (name : String) :
    dropEndWhile (· == '\r') (⟨'s', name.toList⟩ : Field).line
      = (⟨'s', (trimmedName name).toList⟩ : Field).line := by
  simp [dropEndWhile, List.dropWhile_append, Field.line, trimmedName]

/-- What is read depends on the lines alone. -/
theorem Description.parse_congr {text text' : String}
    (h : contentLines text = contentLines text') :
    Description.parse text = Description.parse text' := by
  rw [Description.parse, Description.parse, Description.read, Description.read, h]

/-- A description is read back under any name that does not break its line, except for the
carriage returns at the end of the name. -/
theorem Description.parse_render_named {d : Description} (hd : d.WellFormed) {name : String}
    (hname : '\n' ∉ name.toList) :
    Description.parse { d with name }.render
      = .ok { d.withOrigin with name := trimmedName name } := by
  have hwell : Description.WellFormed { d with name := trimmedName name } :=
    { hd with name := endsLine_trimmedName hname }
  -- the two texts differ in the line of the name only
  obtain ⟨first, rest, hfields⟩ : ∃ first rest, ∀ name, Description.fields { d with name }
      = first ++ ⟨'s', name.toList⟩ :: rest := ⟨d.fields.take 2, d.fields.drop 3, fun _ => rfl⟩
  have hends : ∀ f ∈ Description.fields { d with name := trimmedName name },
      EndsLine f.line := by
    intro f hf
    exact (hwell.fields f hf).endsLine
  have hread := contentLines_eq (Description.toList_render _) (List.forall_mem_map.2 hends)
  rw [hfields, List.forall_mem_append, List.forall_mem_cons] at hends
  obtain ⟨hfirst, -, hrest⟩ := hends
  have hkept : ∀ fields : List Field, (∀ f ∈ fields, EndsLine f.line) →
      fields.map (dropEndWhile (· == '\r') ∘ Field.line) = fields.map Field.line := by
    intro fields hall
    exact List.map_congr_left fun f hf => dropEndWhile_endsLine (hall f hf)
  have hlines : contentLines { d with name }.render
      = contentLines { d with name := trimmedName name }.render := by
    rw [hread, contentLines_joinLines (Description.toList_render _), hfields, hfields,
      List.map_map, List.map_append, List.map_append, List.map_cons, List.map_cons,
      hkept first hfirst, hkept rest hrest, Function.comp_apply, dropEndWhile_nameLine]
    rw [hfields, List.forall_mem_map, List.forall_mem_append, List.forall_mem_cons]
    refine ⟨fun f hf => (hfirst f hf).newline, ?_, fun f hf => (hrest f hf).newline⟩
    simpa [Field.line] using hname
  rw [Description.parse_congr hlines]
  exact Description.parse_render hwell

/-! ## Sections of streams -/

theorem isWord_protocol : IsWord "RTP/AVP".toList := by decide

/-- The section of a stream is well formed when its attributes are. -/
theorem Section.ofStream_wellFormed {media : String} (hmedia : IsWord media.toList) (port : UInt16)
    (payloadType : UInt8) {attributes : List Attribute}
    (hattributes : ∀ a ∈ attributes, a.WellFormed) :
    (Section.ofStream media port payloadType attributes).WellFormed where
  media := hmedia
  protocol := isWord_protocol
  formats := List.forall_mem_singleton.2 (isWord_toString payloadType.toNat)
  connection := nofun
  attributes := hattributes

theorem description_wellFormed {s : Section} (hs : s.WellFormed) :
    Description.WellFormed { name := "", media := [s] } where
  origin := nofun
  name := .nil
  connection := nofun
  attributes := nofun
  media := List.forall_mem_singleton.2 hs

/-! ## Both ways -/

/-- The reader returns well-formed descriptions, and reads a well-formed description
back from its text, with the unknown origin if it had none.  What it reads has the text
that was read. -/
theorem Description.wellFormed_and_parse_render :
    (∀ (text : String) (d : Description), Description.parse text = .ok d → d.WellFormed) ∧
    (∀ d : Description, d.WellFormed →
      Description.parse d.render = .ok d.withOrigin ∧ d.withOrigin.render = d.render) := by
  constructor
  · intro text d h
    exact Description.wellFormed_of_parse h
  · intro d hd
    -- the origin that is written is the one that was filled in
    have hrender : d.withOrigin.render = d.render := rfl
    exact ⟨Description.parse_render hd, hrender⟩

/-- A session without an origin, with a flag, a section with colons in a value and a
section without formats. -/
def recorded : Description where
  name := "a = b: "
  attributes := [⟨"recvonly", none⟩]
  media := [
    { media := "audio", port := 9, protocol := "RTP/AVP", formats := ["96", "0"]
      attributes := [⟨"control", some "rtsp://h/a"⟩] },
    { media := "video", port := 0, protocol := "RTP/AVP", formats := [] }]

/-- A text that is read as `recorded`. -/
def recording : String :=
  "v=0\n\r\ns=a = b: \r\r\na=recvonly\r\nm=audio  9/2 RTP/AVP 96\t0\r\n"
    ++ "a=control:rtsp://h/a\nm=video 0 RTP/AVP"

theorem Description.wellFormed_and_parse_render_recorded :
    Description.parse recording = .ok recorded ∧ recorded.WellFormed ∧
      Description.parse recorded.render = .ok recorded.withOrigin ∧
      recorded.withOrigin.render = recorded.render := by
  have hparse : Description.parse recording = .ok recorded := by
    decide +kernel
  have hwell := Description.wellFormed_and_parse_render.1 recording recorded hparse
  exact ⟨hparse, hwell, Description.wellFormed_and_parse_render.2 recorded hwell⟩

end MediaTransport.Sdp
