import MediaTransport.Proofs.Sdp.Scoping

/-!
# Descriptions and their sections

A description is read just when all its lines can be read and one of them is a version
(`Description.exists_parse_eq_ok_iff`).  Then it is what the layout of its fields says
(`Description.parse_eq_ok_iff`), and otherwise the first line that cannot be read is named
(`Description.parse_eq_error_iff`).

Lines for connections and attributes can always be read, and they say nothing outside the part
in which they stand.  So when other ones take their place in a section, only the connection and
the attributes of this section are others (`Description.parse_of_changes`).
-/

namespace MediaTransport.Sdp

open Text

/-! ## Keys of lines -/

/-- A line starts with a key and an equals sign. -/
def HasKey (key : Char) (line : List Char) : Prop := [key, '='] <+: line

instance (key : Char) : DecidablePred (HasKey key) :=
  fun line => inferInstanceAs (Decidable ([key, '='] <+: line))

theorem hasKey_iff {key : Char} {line : List Char} :
    HasKey key line ↔ ∃ f : Field, f.key = key ∧ field? line = some f := by
  simp only [field?_eq_some_iff]
  constructor
  · rintro ⟨value, rfl⟩
    exact ⟨⟨key, value⟩, rfl, rfl⟩
  · rintro ⟨f, rfl, rfl⟩
    exact ⟨f.value, rfl⟩

/-- A line has one key only. -/
theorem HasKey.unique {key key' : Char} {line : List Char} (h : HasKey key line)
    (h' : HasKey key' line) : key = key' := by
  obtain ⟨value, rfl⟩ := h
  obtain ⟨value', hline⟩ := h'
  cases hline
  rfl

theorem fieldsOf_append (first rest : List (List Char)) :
    fieldsOf (first ++ rest) = fieldsOf first ++ fieldsOf rest :=
  List.filterMap_append

theorem mem_fieldsOf {ls : List (List Char)} {f : Field} :
    f ∈ fieldsOf ls ↔ ∃ line ∈ ls, field? line = some f :=
  List.mem_filterMap

theorem key_ne_of_mem_fieldsOf {key : Char} {ls : List (List Char)}
    (h : ∀ line ∈ ls, ¬ HasKey key line) : ∀ f ∈ fieldsOf ls, f.key ≠ key := by
  intro f hf hkey
  obtain ⟨line, hline, hfield⟩ := mem_fieldsOf.1 hf
  exact h line hline (hasKey_iff.2 ⟨f, hkey, hfield⟩)

theorem countP_fieldsOf (key : Char) (ls : List (List Char)) :
    (fieldsOf ls).countP (·.key == key) = ls.countP (HasKey key ·) := by
  rw [fieldsOf, List.countP_filterMap]
  refine List.countP_congr fun line _ => ?_
  rw [decide_eq_true_iff, hasKey_iff]
  cases field? line <;> simp

/-- There is a value of a key when a line has this key. -/
theorem values_fieldsOf_eq_nil_iff {key : Char} {ls : List (List Char)} :
    values key (fieldsOf ls) = [] ↔ ∀ line ∈ ls, ¬ HasKey key line := by
  rw [values, List.map_eq_nil_iff, List.filter_eq_nil_iff]
  constructor
  · intro h line hline hkey
    obtain ⟨f, hf, hfield⟩ := hasKey_iff.1 hkey
    exact h f (mem_fieldsOf.2 ⟨line, hline, hfield⟩) (beq_iff_eq.2 hf)
  · intro h f hf hkey
    exact key_ne_of_mem_fieldsOf h f hf (beq_iff_eq.1 hkey)

/-! ## What is read -/

namespace Description

variable {text text' : String} {d : Description}

theorem parse_of_error {bad : List Char} (h : Draft.readAll {} (textLines text) = .error bad) :
    parse text = .error (.protocol (.malformedDescription (String.ofList bad))) := by
  rw [parse, read, Draft.readAll_contentLines, h]
  rfl

theorem parse_of_ok {draft : Draft} (h : Draft.readAll {} (textLines text) = .ok draft) :
    parse text = match draft.finish? with
      | some d => .ok d
      | none => .error (.protocol (.malformedDescription "missing v= line")) := by
  rw [parse, read, Draft.readAll_contentLines, h]
  cases hfinish : draft.finish? <;> simp [hfinish, Except.mapError]

/-- What is read is what the layout of the fields says. -/
theorem parse_eq_ok_iff :
    parse text = .ok d ↔ (∀ line ∈ textLines text, IsReadable line) ∧
      ∃ l : Layout, l.Valid ∧ l.fields = fieldsOf (textLines text) ∧ l.Describes d := by
  cases hread : Draft.readAll {} (textLines text) with
  | error bad =>
    have hbad := (Draft.readAll_eq_error_iff.1 hread).not_forall
    rw [parse_of_error hread]
    exact iff_of_false nofun fun h => hbad h.1
  | ok draft =>
    obtain ⟨hall, hput⟩ := Draft.readAll_eq_ok_iff.1 hread
    obtain ⟨htells, l, hfields, hscopes⟩ := Draft.follows_of_putAll hput
    rw [← hfields] at htells ⊢
    rw [parse_of_ok hread]
    cases hfinish : draft.finish? with
    | some description =>
      have hdescribes := Draft.describes_of_finish? hscopes htells hfinish
      constructor
      · intro h
        cases h
        exact ⟨hall, l, hscopes.valid, rfl, hdescribes⟩
      · rintro ⟨-, l', hvalid, hfields', hd⟩
        rw [hvalid.unique hscopes.valid hfields'] at hd
        rw [hd.unique hdescribes]
    | none =>
      rw [Draft.finish?_eq_none_iff htells] at hfinish
      refine iff_of_false nofun ?_
      rintro ⟨-, l', -, hfields', hd⟩
      obtain ⟨value, hvalue, -⟩ := hd.version
      rw [hfields', hfinish] at hvalue
      cases hvalue

/-- The first line that cannot be read is named, or the version when no line has one. -/
theorem parse_eq_error_iff {e : Error} :
    parse text = .error e ↔
      (∃ bad, FirstUnreadable (textLines text) bad ∧
        e = .protocol (.malformedDescription (String.ofList bad))) ∨
      ((∀ line ∈ textLines text, IsReadable line) ∧ (∀ line ∈ textLines text, ¬ HasKey 'v' line) ∧
        e = .protocol (.malformedDescription "missing v= line")) := by
  cases hread : Draft.readAll {} (textLines text) with
  | error bad =>
    have hbad := Draft.readAll_eq_error_iff.1 hread
    rw [parse_of_error hread]
    constructor
    · intro h
      cases h
      exact .inl ⟨bad, hbad, rfl⟩
    · rintro (⟨other, hother, rfl⟩ | ⟨hall, -, -⟩)
      · rw [← Draft.readAll_eq_error_iff, hread] at hother
        cases hother
        rfl
      · exact absurd hall hbad.not_forall
  | ok draft =>
    obtain ⟨hall, hput⟩ := Draft.readAll_eq_ok_iff.1 hread
    obtain ⟨htells, -⟩ := Draft.follows_of_putAll hput
    have hfinish := Draft.finish?_eq_none_iff htells
    rw [values_fieldsOf_eq_nil_iff] at hfinish
    rw [parse_of_ok hread, ← hfinish]
    constructor
    · intro h
      cases hd : draft.finish? with
      | some d =>
        rw [hd] at h
        cases h
      | none =>
        rw [hd] at h
        cases h
        exact .inr ⟨hall, rfl, rfl⟩
    · rintro (⟨bad, hbad, -⟩ | ⟨-, hnone, rfl⟩)
      · exact absurd hall hbad.not_forall
      · rw [hnone]

/-- A description is read just when its lines can be read and one of them is a version. -/
theorem exists_parse_eq_ok_iff :
    (∃ d, parse text = .ok d) ↔
      (∀ line ∈ textLines text, IsReadable line) ∧ ∃ line ∈ textLines text, HasKey 'v' line := by
  constructor
  · rintro ⟨d, h⟩
    refine ⟨(parse_eq_ok_iff.1 h).1, ?_⟩
    by_contra hnone
    simp only [not_exists, not_and] at hnone
    have herror := parse_eq_error_iff.2 (.inr ⟨(parse_eq_ok_iff.1 h).1, hnone, rfl⟩)
    cases h.symm.trans herror
  · rintro ⟨hall, line, hline, hkey⟩
    cases h : parse text with
    | ok d => exact ⟨d, rfl⟩
    | error e =>
      rcases parse_eq_error_iff.1 h with ⟨bad, hbad, -⟩ | ⟨-, hnone, -⟩
      · exact absurd hall hbad.not_forall
      · exact absurd hkey (hnone line hline)

end Description

/-! ## One block among others -/

/-- Each block has one heading. -/
theorem Layout.Valid.countP_fields {l : Layout} (h : l.Valid) :
    l.fields.countP (·.key == 'm') = l.blocks.length := by
  have hnone : ∀ body : List Field, (∀ f ∈ body, f.key ≠ 'm') → body.countP (·.key == 'm') = 0 := by
    intro body hbody
    rw [List.countP_eq_zero]
    exact fun f hf hkey => hbody f hf (beq_iff_eq.1 hkey)
  have hblocks := h.blocks
  rw [Layout.fields, List.countP_append, hnone l.session h.session, Nat.zero_add]
  generalize l.blocks = blocks at hblocks
  induction blocks with
  | nil => rfl
  | cons b rest ih =>
    obtain ⟨hb, hrest⟩ := List.forall_mem_cons.1 hblocks
    rw [List.flatMap_cons, List.countP_append, ih hrest, Block.fields,
      List.countP_cons_of_pos (by rfl), hnone b.body hb, List.length_cons]
    omega

/-- Fields without a heading that follow others lie in the block that these have opened. -/
theorem Layout.exists_around {k : ℕ} {first : List Field}
    (hopen : first.countP (·.key == 'm') = k + 1) (last : List Field) :
    ∃ (session : List Field) (earlier : List Block) (heading : List Char) (start tail : List Field)
      (later : List Block), earlier.length = k ∧ ∀ body : List Field, (∀ f ∈ body, f.key ≠ 'm') →
        Layout.Valid ⟨session, earlier ++ ⟨heading, start ++ (body ++ tail)⟩ :: later⟩ ∧
        Layout.fields ⟨session, earlier ++ ⟨heading, start ++ (body ++ tail)⟩ :: later⟩
          = first ++ (body ++ last) := by
  obtain ⟨⟨session, blocks⟩, hvalid, rfl⟩ := Layout.exists_valid first
  obtain ⟨⟨tail, later⟩, hvalid', rfl⟩ := Layout.exists_valid last
  rw [hvalid.countP_fields] at hopen
  have hne : blocks ≠ [] := List.ne_nil_of_length_eq_add_one hopen
  obtain ⟨earlier, ⟨heading, start⟩, rfl⟩ : ∃ earlier b, blocks = earlier ++ [b] :=
    ⟨_, _, (List.dropLast_concat_getLast hne).symm⟩
  refine ⟨session, earlier, heading, start, tail, later, by simpa using hopen, fun body hbody => ?_⟩
  obtain ⟨hsession, hblocks⟩ := hvalid
  obtain ⟨htail, hlater⟩ := hvalid'
  simp only [List.forall_mem_append, List.forall_mem_singleton] at hblocks
  obtain ⟨hearlier, hstart⟩ := hblocks
  refine ⟨⟨hsession, ?_⟩, by simp [Layout.fields, Block.fields]⟩
  simp only [List.forall_mem_append, List.forall_mem_cons]
  exact ⟨hearlier, ⟨hstart, hbody, htail⟩, hlater⟩

theorem Layout.fields_around (session : List Field) (earlier later : List Block)
    (heading : List Char) (body : List Field) :
    Layout.fields ⟨session, earlier ++ ⟨heading, body⟩ :: later⟩
      = session ++ earlier.flatMap Block.fields ++ [⟨'m', heading⟩]
        ++ (body ++ later.flatMap Block.fields) := by
  simp [Layout.fields, Block.fields]

/-- The connection and the attributes that some fields give. -/
theorem Owns.of_fields (fields : List Field) :
    Owns fields (last? 'c' fields) ((values 'a' fields).map Attribute.ofText) where
  connection := rfl
  attributes := by
    rw [List.forall₂_map_right_iff, List.forall₂_same]
    exact fun text _ => isAttribute_iff.2 rfl

theorem forall₂_modify {α β : Type} {R : α → β → Prop} {first rest : List α} {x x' : α}
    {ys : List β} {f : β → β} (h : List.Forall₂ R (first ++ x :: rest) ys)
    (hx : ∀ y, R x y → R x' (f y)) :
    List.Forall₂ R (first ++ x' :: rest) (ys.modify first.length f) := by
  induction first generalizing ys with
  | nil =>
    cases h with
    | cons hfirst hrest =>
      rw [List.length_nil, List.modify_zero_cons]
      exact .cons (hx _ hfirst) hrest
  | cons a first ih =>
    cases h with
    | cons hfirst hrest =>
      rw [List.length_cons, List.modify_succ_cons]
      exact .cons hfirst (ih hrest)

/-- When one block has other connections and attributes, only its section is another one. -/
theorem Layout.Describes.modify {session : List Field} {earlier later : List Block}
    {heading : List Char} {body body' : List Field} {d : Description}
    (hkept : ∀ key, key ≠ 'c' → key ≠ 'a' → values key body' = values key body)
    (h : Layout.Describes ⟨session, earlier ++ ⟨heading, body⟩ :: later⟩ d) :
    Layout.Describes ⟨session, earlier ++ ⟨heading, body'⟩ :: later⟩
      { d with media := d.media.modify earlier.length fun s => { s with
          connection := last? 'c' body'
          attributes := (values 'a' body').map Attribute.ofText } } := by
  obtain ⟨hversion, horigin, hname, hsession, hmedia⟩ := h
  have hvalues : ∀ key, key ≠ 'c' → key ≠ 'a' →
      values key (Layout.fields ⟨session, earlier ++ ⟨heading, body'⟩ :: later⟩)
        = values key (Layout.fields ⟨session, earlier ++ ⟨heading, body⟩ :: later⟩) := by
    intro key hc ha
    simp only [Layout.fields_around, values_append, hkept key hc ha]
  have hlast : ∀ key, key ≠ 'c' → key ≠ 'a' →
      last? key (Layout.fields ⟨session, earlier ++ ⟨heading, body'⟩ :: later⟩)
        = last? key (Layout.fields ⟨session, earlier ++ ⟨heading, body⟩ :: later⟩) := by
    intro key hc ha
    rw [last?, hvalues key hc ha, last?]
  refine ⟨?_, ?_, ?_, hsession, ?_⟩
  · rw [hvalues 'v' (by decide) (by decide)]
    exact hversion
  · rw [hlast 'o' (by decide) (by decide)]
    exact horigin
  · rw [hlast 's' (by decide) (by decide)]
    exact hname
  · exact forall₂_modify hmedia fun s hs => ⟨hs.heading, .of_fields body'⟩

/-! ## Changes of one section -/

/-- A line for a connection or an attribute. -/
def IsOwn (line : List Char) : Prop := HasKey 'c' line ∨ HasKey 'a' line

instance : DecidablePred IsOwn :=
  fun line => inferInstanceAs (Decidable (HasKey 'c' line ∨ HasKey 'a' line))

/-- Lines of one section have become others, in which all but connections and attributes are as
before.  The sections are counted from zero. -/
inductive Changes (k : ℕ) : (ls ls' : List (List Char)) → Prop where
  | intro {before lines lines' after : List (List Char)}
      (hopen : before.countP (HasKey 'm' ·) = k + 1) (hlines : ∀ line ∈ lines, ¬ HasKey 'm' line)
      (hothers : lines'.filter (¬ IsOwn ·) = lines.filter (¬ IsOwn ·)) :
      Changes k (before ++ (lines ++ after)) (before ++ (lines' ++ after))

/-- A line for a connection or an attribute can be read. -/
theorem IsOwn.isReadable {line : List Char} (h : IsOwn line) : IsReadable line := by
  rcases h with ⟨value, rfl⟩ | ⟨value, rfl⟩
  · exact .field (f := ⟨'c', value⟩) rfl (show 'c' ≠ '=' by decide) ⟨nofun, nofun⟩
  · exact .field (f := ⟨'a', value⟩) rfl (show 'a' ≠ '=' by decide) ⟨nofun, nofun⟩

/-- It has no other key. -/
theorem IsOwn.not_hasKey {key : Char} {line : List Char} (h : IsOwn line) (hc : key ≠ 'c')
    (ha : key ≠ 'a') : ¬ HasKey key line := by
  intro hkey
  rcases h with h | h
  · exact hc (hkey.unique h)
  · exact ha (hkey.unique h)

/-- What is neither a connection nor an attribute does not stand on such lines. -/
theorem values_fieldsOf_filter {key : Char} (hc : key ≠ 'c') (ha : key ≠ 'a')
    (ls : List (List Char)) :
    values key (fieldsOf (ls.filter (¬ IsOwn ·))) = values key (fieldsOf ls) := by
  induction ls with
  | nil => rfl
  | cons line rest ih =>
    have hcons : ∀ rest, values key (fieldsOf (line :: rest))
        = values key (fieldsOf [line]) ++ values key (fieldsOf rest) := by
      intro rest
      rw [← values_append, ← fieldsOf_append, List.singleton_append]
    by_cases hown : IsOwn line
    · have hnone : values key (fieldsOf [line]) = [] := by
        rw [values_fieldsOf_eq_nil_iff, List.forall_mem_singleton]
        exact hown.not_hasKey hc ha
      rw [List.filter_cons_of_neg (by simpa using hown), ih, hcons, hnone, List.nil_append]
    · rw [List.filter_cons_of_pos (by simpa using hown), hcons, ih, ← hcons]

section

variable {lines lines' : List (List Char)}

theorem values_of_filter_eq (hothers : lines'.filter (¬ IsOwn ·) = lines.filter (¬ IsOwn ·))
    (key : Char) (hc : key ≠ 'c') (ha : key ≠ 'a') :
    values key (fieldsOf lines') = values key (fieldsOf lines) := by
  rw [← values_fieldsOf_filter hc ha, hothers, values_fieldsOf_filter hc ha]

theorem isReadable_of_filter_eq (hothers : lines'.filter (¬ IsOwn ·) = lines.filter (¬ IsOwn ·))
    (hlines : ∀ line ∈ lines, IsReadable line) : ∀ line ∈ lines', IsReadable line := by
  intro line hline
  by_cases hown : IsOwn line
  · exact hown.isReadable
  · have hmem : line ∈ lines'.filter (¬ IsOwn ·) :=
      List.mem_filter.2 ⟨hline, decide_eq_true hown⟩
    rw [hothers] at hmem
    exact hlines line (List.mem_of_mem_filter hmem)

end

/-- A change of connections and attributes in one section leaves the others and the session as they
are. -/
theorem Description.parse_of_changes {k : ℕ} {text text' : String} {d : Description}
    (h : Changes k (textLines text) (textLines text')) (hparse : Description.parse text = .ok d) :
    ∃ connection attributes, Description.parse text'
      = .ok { d with media := d.media.modify k fun s => { s with connection, attributes } } := by
  obtain ⟨hall, l, hvalid, hfields, hd⟩ := Description.parse_eq_ok_iff.1 hparse
  generalize htext : textLines text = ls at h hall hfields
  generalize htext' : textLines text' = ls' at h
  cases h with
  | @intro before lines lines' after hopen hlines hothers =>
    have hkept := values_of_filter_eq hothers
    have hlines' : ∀ line ∈ lines', ¬ HasKey 'm' line := by
      rw [← values_fieldsOf_eq_nil_iff] at hlines ⊢
      rw [hkept 'm' (by decide) (by decide), hlines]
    -- the block of the section stands between the same fields in both layouts
    rw [← countP_fieldsOf] at hopen
    obtain ⟨session, earlier, heading, start, tail, later, hlength, hlayout⟩ :=
      Layout.exists_around hopen (fieldsOf after)
    obtain ⟨hvalid₀, hfields₀⟩ := hlayout (fieldsOf lines) (key_ne_of_mem_fieldsOf hlines)
    obtain ⟨hvalid', hfields'⟩ := hlayout (fieldsOf lines') (key_ne_of_mem_fieldsOf hlines')
    rw [fieldsOf_append, fieldsOf_append, ← hfields₀] at hfields
    obtain rfl := hvalid.unique hvalid₀ hfields
    subst hlength
    refine ⟨_, _, Description.parse_eq_ok_iff.2 ⟨?_, _, hvalid', ?_, hd.modify ?_⟩⟩
    · rw [htext']
      simp only [List.forall_mem_append] at hall ⊢
      exact ⟨hall.1, isReadable_of_filter_eq hothers hall.2.1, hall.2.2⟩
    · rw [htext', hfields', fieldsOf_append, fieldsOf_append]
    · intro key hc ha
      simp only [values_append, hkept key hc ha]

/-- A description is read just when every line is blank or a field with a value that its key
allows, and one of them is a version.  Otherwise the first line that is not is named, or the missing
version.  What is read is what the fields say, each in its own part.  So other connections and
attributes in one section change this section only. -/
theorem Description.parse_grammar (text : String) :
    ((∃ d, Description.parse text = .ok d) ↔
      (∀ line ∈ textLines text, IsReadable line) ∧ ∃ line ∈ textLines text, HasKey 'v' line) ∧
    (∀ e, Description.parse text = .error e ↔
      (∃ bad, FirstUnreadable (textLines text) bad ∧
        e = .protocol (.malformedDescription (String.ofList bad))) ∨
      ((∀ line ∈ textLines text, IsReadable line) ∧ (∀ line ∈ textLines text, ¬ HasKey 'v' line) ∧
        e = .protocol (.malformedDescription "missing v= line"))) ∧
    (∀ d, Description.parse text = .ok d ↔
      (∀ line ∈ textLines text, IsReadable line) ∧
        ∃ l : Layout, l.Valid ∧ l.fields = fieldsOf (textLines text) ∧ l.Describes d) ∧
    ∀ (k : ℕ) (text' : String) (d : Description), Changes k (textLines text) (textLines text') →
      Description.parse text = .ok d → ∃ connection attributes, Description.parse text'
        = .ok { d with media := d.media.modify k fun s => { s with connection, attributes } } :=
  ⟨exists_parse_eq_ok_iff, fun _ => parse_eq_error_iff, fun _ => parse_eq_ok_iff,
    fun _ _ _ hchanges hparse => parse_of_changes hchanges hparse⟩

/-- A text with two sections. -/
def listing : String := "v=0\r\nm=a 9 p\na=x\nm=b +0/2 p q"

/-- The text with other lines in the first section. -/
def relisting : String := "v=0\r\nm=a 9 p\nc=h\na=y:z\nm=b +0/2 p q"

/-- What is read from the text. -/
def listed : Description where
  name := ""
  media := [
    { media := "a", port := 9, protocol := "p", formats := [], attributes := [⟨"x", none⟩] },
    { media := "b", port := 0, protocol := "p", formats := ["q"] }]

theorem Description.parse_grammar_listing :
    Description.parse listing = .ok listed ∧
    (∀ line ∈ textLines listing, IsReadable line) ∧
    Changes 0 (textLines listing) (textLines relisting) ∧
    ∃ connection attributes, Description.parse relisting = .ok { listed with
      media := listed.media.modify 0 fun s => { s with connection, attributes } } := by
  have hparse : Description.parse listing = .ok listed := by
    decide +kernel
  have hlines : textLines listing
      = ["v=0".toList, "m=a 9 p".toList] ++ (["a=x".toList] ++ ["m=b +0/2 p q".toList]) := by
    decide +kernel
  have hlines' : textLines relisting
      = ["v=0".toList, "m=a 9 p".toList]
        ++ (["c=h".toList, "a=y:z".toList] ++ ["m=b +0/2 p q".toList]) := by
    decide +kernel
  have hchanges : Changes 0 (textLines listing) (textLines relisting) := by
    rw [hlines, hlines']
    refine .intro ?_ ?_ ?_ <;> decide +kernel
  obtain ⟨hread, -, -, hmodify⟩ := Description.parse_grammar listing
  exact ⟨hparse, (hread.1 ⟨listed, hparse⟩).1, hchanges,
    hmodify 0 relisting listed hchanges hparse⟩

end MediaTransport.Sdp
