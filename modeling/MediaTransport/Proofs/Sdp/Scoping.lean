import Mathlib.Data.List.Forall2
import Mathlib.Data.List.Induction
import MediaTransport.Proofs.Sdp.Grammar

/-!
# What a description says

The fields of a description fall into those of the session and the blocks of the sections: each
heading opens a block, which goes on up to the next heading (`Layout`).  All fields can be cut at
their headings (`Layout.exists_valid`), in one way only (`Layout.Valid.unique`).

Version, origin and name are those of the last fields of their kind, wherever these stand.  The
connection and the attributes of a part come from its own fields (`Owns`).  So a layout says all of
a description (`Layout.Describes`, `Layout.Describes.unique`).

The reader follows the layout while it puts the fields into its draft.  Each of them belongs to the
part that is open (`Draft.Scopes.put?`) or tells something of the whole session
(`Draft.Tells.put?`), so the draft of all fields becomes what their layout says
(`Draft.follows_of_putAll`, `Draft.describes_of_finish?`).
-/

namespace MediaTransport.Sdp

open Text

/-! ## Parts -/

/-- A heading and the fields up to the next one. -/
structure Block where
  /-- The value of the heading. -/
  heading : List Char
  /-- The fields behind it. -/
  body : List Field

/-- The fields of a block, with its heading. -/
def Block.fields (b : Block) : List Field := ⟨'m', b.heading⟩ :: b.body

/-- The parts of a description. -/
structure Layout where
  /-- The fields before the first heading. -/
  session : List Field
  /-- The blocks of the sections. -/
  blocks : List Block

namespace Layout

/-- All the fields of the parts. -/
def fields (l : Layout) : List Field := l.session ++ l.blocks.flatMap Block.fields

/-- Every heading opens a block. -/
structure Valid (l : Layout) : Prop where
  /-- There is no heading in the session. -/
  session : ∀ f ∈ l.session, f.key ≠ 'm'
  /-- There is no other heading in a block. -/
  blocks : ∀ b ∈ l.blocks, ∀ f ∈ b.body, f.key ≠ 'm'

/-- Fields without a heading, up to the first heading or the end. -/
theorem append_inj {body body' : List Field} {blocks blocks' : List Block}
    (hbody : ∀ f ∈ body, f.key ≠ 'm') (hbody' : ∀ f ∈ body', f.key ≠ 'm')
    (h : body ++ blocks.flatMap Block.fields = body' ++ blocks'.flatMap Block.fields) :
    body = body' ∧ blocks.flatMap Block.fields = blocks'.flatMap Block.fields := by
  have hcut : ∀ {body : List Field} {blocks : List Block}, (∀ f ∈ body, f.key ≠ 'm') →
      (body ++ blocks.flatMap Block.fields).takeWhile (·.key != 'm') = body := by
    intro body blocks hbody
    have hall : ∀ f ∈ body, (f.key != 'm') = true := fun f hf => bne_iff_ne.2 (hbody f hf)
    rw [List.takeWhile_append_of_pos hall]
    cases blocks with
    | nil => simp
    | cons b rest => simp [Block.fields]
  have heq : body = body' := by
    rw [← hcut hbody, h, hcut hbody']
  rw [heq] at h
  exact ⟨heq, List.append_cancel_left h⟩

theorem blocks_inj {blocks blocks' : List Block} (h : ∀ b ∈ blocks, ∀ f ∈ b.body, f.key ≠ 'm')
    (h' : ∀ b ∈ blocks', ∀ f ∈ b.body, f.key ≠ 'm')
    (hfields : blocks.flatMap Block.fields = blocks'.flatMap Block.fields) : blocks = blocks' := by
  induction blocks generalizing blocks' with
  | nil =>
    cases blocks' with
    | nil => rfl
    | cons b' rest' => cases hfields
  | cons b rest ih =>
    cases blocks' with
    | nil => cases hfields
    | cons b' rest' =>
      obtain ⟨hb, hrest⟩ := List.forall_mem_cons.1 h
      obtain ⟨hb', hrest'⟩ := List.forall_mem_cons.1 h'
      obtain ⟨heading, body⟩ := b
      obtain ⟨heading', body'⟩ := b'
      rw [List.flatMap_cons, List.flatMap_cons, Block.fields, Block.fields, List.cons_append,
        List.cons_append] at hfields
      obtain ⟨hheading, hbodies⟩ := List.cons.inj hfields
      obtain ⟨rfl, hblocks⟩ := append_inj hb hb' hbodies
      cases hheading
      rw [ih hrest hrest' hblocks]

/-- Fields are cut at their headings in one way only. -/
theorem Valid.unique {l l' : Layout} (h : l.Valid) (h' : l'.Valid)
    (hfields : l.fields = l'.fields) : l = l' := by
  obtain ⟨session, blocks⟩ := l
  obtain ⟨session', blocks'⟩ := l'
  obtain ⟨rfl, hblocks⟩ := append_inj h.session h'.session hfields
  obtain rfl := blocks_inj h.blocks h'.blocks hblocks
  rfl

/-- All fields fall into parts. -/
theorem exists_valid (fields : List Field) : ∃ l : Layout, l.Valid ∧ l.fields = fields := by
  induction fields with
  | nil => exact ⟨⟨[], []⟩, ⟨nofun, nofun⟩, rfl⟩
  | cons f rest ih =>
    obtain ⟨l, hvalid, rfl⟩ := ih
    obtain ⟨key, value⟩ := f
    by_cases hheading : key = 'm'
    · subst hheading
      refine ⟨⟨[], ⟨value, l.session⟩ :: l.blocks⟩, ⟨nofun, ?_⟩, ?_⟩
      · exact List.forall_mem_cons.2 ⟨hvalid.session, hvalid.blocks⟩
      · simp [fields, Block.fields]
    · exact ⟨⟨⟨key, value⟩ :: l.session, l.blocks⟩,
        ⟨List.forall_mem_cons.2 ⟨hheading, hvalid.session⟩, hvalid.blocks⟩, rfl⟩

end Layout

/-! ## What fields say -/

/-- The values of the fields of one key. -/
def values (key : Char) (fields : List Field) : List (List Char) :=
  (fields.filter (·.key == key)).map Field.value

/-- The value of the last field of a key. -/
def last? (key : Char) (fields : List Field) : Option String :=
  (values key fields).getLast?.map String.ofList

/-- An attribute is written as its name, with its value behind the first colon. -/
structure IsAttribute (text : List Char) (a : Attribute) : Prop where
  /-- The text is the name and the value. -/
  text : a.text = text
  /-- The name stops before the first colon. -/
  colon : ':' ∉ a.name.toList

/-- What the fields of a part say of the part itself. -/
structure Owns (fields : List Field) (connection : Option String) (attributes : List Attribute) :
    Prop where
  /-- The last connection holds. -/
  connection : connection = last? 'c' fields
  /-- The attributes are kept in order. -/
  attributes : List.Forall₂ IsAttribute (values 'a' fields) attributes

/-- What a block says of its section. -/
structure Block.Describes (b : Block) (s : Section) : Prop where
  /-- The medium, the port, the protocol and the formats stand in the heading. -/
  heading : IsHeading b.heading s
  /-- The rest stands in the fields behind it. -/
  own : Owns b.body s.connection s.attributes

/-- What the parts say of a description. -/
structure Layout.Describes (l : Layout) (d : Description) : Prop where
  /-- The last version holds. -/
  version : ∃ value ∈ (values 'v' l.fields).getLast?, IsDecimal (trim value) d.version.toNat
  /-- The last origin holds. -/
  origin : d.origin = last? 'o' l.fields
  /-- The last name holds. -/
  name : d.name = (last? 's' l.fields).getD ""
  /-- The fields before the first heading speak of the session. -/
  session : Owns l.session d.connection d.attributes
  /-- Each block speaks of one section, in order. -/
  media : List.Forall₂ Block.Describes l.blocks d.media

theorem isAttribute_iff {text : List Char} {a : Attribute} :
    IsAttribute text a ↔ Attribute.ofText text = a := by
  constructor
  · rintro ⟨rfl, hcolon⟩
    exact Attribute.ofText_text hcolon
  · rintro rfl
    unfold Attribute.ofText
    split
    next name value hcut =>
      obtain ⟨rfl, hcolon⟩ := cut?_eq_some hcut
      exact ⟨by simp [Attribute.text], by simpa using hcolon⟩
    next hcut =>
      rw [cut?_eq_none] at hcut
      exact ⟨by simp [Attribute.text], by simpa using hcut⟩

theorem Owns.unique {fields : List Field} {c c' : Option String} {as as' : List Attribute}
    (h : Owns fields c as) (h' : Owns fields c' as') : c = c' ∧ as = as' := by
  have hunique : Relator.RightUnique IsAttribute := fun text a a' ha ha' =>
    (isAttribute_iff.1 ha).symm.trans (isAttribute_iff.1 ha')
  exact ⟨h.connection.trans h'.connection.symm, hunique.forall₂ h.attributes h'.attributes⟩

theorem Block.Describes.unique {b : Block} {s s' : Section} (h : b.Describes s)
    (h' : b.Describes s') : s = s' := by
  have hread : ∀ {s : Section}, b.Describes s →
      Section.ofText? b.heading = some { s with connection := none, attributes := [] } := by
    intro s hs
    exact Section.ofText?_eq_some_iff.2 ⟨hs.heading, rfl, rfl⟩
  have heq := Option.some.inj ((hread h).symm.trans (hread h'))
  obtain ⟨hconnection, hattributes⟩ := h.own.unique h'.own
  cases s
  cases s'
  cases hconnection
  cases hattributes
  cases heq
  rfl

/-- A layout leaves nothing of a description open. -/
theorem Layout.Describes.unique {l : Layout} {d d' : Description} (h : l.Describes d)
    (h' : l.Describes d') : d = d' := by
  obtain ⟨value, hvalue, hversion⟩ := h.version
  obtain ⟨value', hvalue', hversion'⟩ := h'.version
  cases Option.mem_unique hvalue hvalue'
  have heq : d.version = d'.version := by
    rw [← readUInt32?_eq_some_iff] at hversion hversion'
    exact Option.some.inj (hversion.symm.trans hversion')
  have horigin := h.origin.trans h'.origin.symm
  have hname := h.name.trans h'.name.symm
  have hunique : Relator.RightUnique Block.Describes := fun b s s' hs hs' => hs.unique hs'
  have hmedia := hunique.forall₂ h.media h'.media
  obtain ⟨hconnection, hattributes⟩ := h.session.unique h'.session
  cases d
  cases d'
  cases heq
  cases horigin
  cases hname
  cases hconnection
  cases hattributes
  cases hmedia
  rfl

/-! ## One more field -/

theorem values_append (key : Char) (fields more : List Field) :
    values key (fields ++ more) = values key fields ++ values key more := by
  simp [values]

theorem values_concat_self (key : Char) (fields : List Field) (value : List Char) :
    values key (fields ++ [⟨key, value⟩]) = values key fields ++ [value] := by
  simp [values]

theorem values_concat_of_ne {key : Char} {f : Field} (h : f.key ≠ key) (fields : List Field) :
    values key (fields ++ [f]) = values key fields := by
  simp [values, h]

theorem last?_concat_self (key : Char) (fields : List Field) (value : List Char) :
    last? key (fields ++ [⟨key, value⟩]) = some (String.ofList value) := by
  simp [last?, values_concat_self]

theorem last?_concat_of_ne {key : Char} {f : Field} (h : f.key ≠ key) (fields : List Field) :
    last? key (fields ++ [f]) = last? key fields := by
  rw [last?, values_concat_of_ne h, last?]

namespace Owns

variable {fields : List Field} {c : Option String} {as : List Attribute}

theorem concat_connection (h : Owns fields c as) (value : List Char) :
    Owns (fields ++ [⟨'c', value⟩]) (some (String.ofList value)) as where
  connection := (last?_concat_self 'c' fields value).symm
  attributes := by
    rw [values_concat_of_ne (show 'c' ≠ 'a' by decide)]
    exact h.attributes

theorem concat_attribute (h : Owns fields c as) (value : List Char) :
    Owns (fields ++ [⟨'a', value⟩]) c (as ++ [Attribute.ofText value]) where
  connection := by
    rw [last?_concat_of_ne (show 'a' ≠ 'c' by decide)]
    exact h.connection
  attributes := by
    rw [values_concat_self]
    exact List.rel_append h.attributes (.cons (isAttribute_iff.2 rfl) .nil)

theorem concat_other (h : Owns fields c as) {f : Field} (hc : f.key ≠ 'c') (ha : f.key ≠ 'a') :
    Owns (fields ++ [f]) c as where
  connection := by
    rw [last?_concat_of_ne hc]
    exact h.connection
  attributes := by
    rw [values_concat_of_ne ha]
    exact h.attributes

end Owns

namespace Draft

variable {d d' : Draft} {l : Layout} {f : Field}

/-- The draft with something done to the connection and the attributes of the part that is open. -/
def mapOpen (d : Draft) (g : Option String → Option String)
    (h : List Attribute → List Attribute) : Draft :=
  match d.sections with
  | [] => { d with connection := g d.connection, attributes := h d.attributes }
  | s :: earlier =>
    { d with sections := { s with connection := g s.connection, attributes := h s.attributes }
        :: earlier }

theorem withConnection_eq (d : Draft) (connection : String) :
    d.withConnection connection = d.mapOpen (fun _ => some connection) id := by
  obtain ⟨_, _, _, _, _, sections⟩ := d
  cases sections <;> rfl

theorem withAttribute_eq (d : Draft) (a : Attribute) :
    d.withAttribute a = d.mapOpen id (· ++ [a]) := by
  obtain ⟨_, _, _, _, _, sections⟩ := d
  cases sections <;> rfl

theorem mapOpen_id (d : Draft) : d.mapOpen id id = d := by
  obtain ⟨_, _, _, _, _, sections⟩ := d
  cases sections <;> rfl

/-- The parts of a layout have been put into a draft. -/
structure Scopes (l : Layout) (d : Draft) : Prop where
  /-- Every heading has opened a block. -/
  valid : l.Valid
  /-- The session is described. -/
  session : Owns l.session d.connection d.attributes
  /-- So are the sections, newest first. -/
  sections : List.Forall₂ Block.Describes l.blocks.reverse d.sections

namespace Scopes

/-- A field that is no heading belongs to the part that is open. -/
theorem mapOpen (hd : Scopes l d) {key : Char} {value : List Char} (hkey : key ≠ 'm')
    {g : Option String → Option String} {h : List Attribute → List Attribute}
    (hown : ∀ fields c as, Owns fields c as → Owns (fields ++ [⟨key, value⟩]) (g c) (h as)) :
    ∃ l' : Layout, l'.fields = l.fields ++ [⟨key, value⟩] ∧ Scopes l' (d.mapOpen g h) := by
  obtain ⟨session, blocks⟩ := l
  obtain ⟨version, origin, name, connection, attributes, sections⟩ := d
  obtain ⟨⟨hsession, hblocks⟩, howns, hsections⟩ := hd
  obtain ⟨newest, rfl⟩ : ∃ newest : List Block, blocks = newest.reverse :=
    ⟨blocks.reverse, blocks.reverse_reverse.symm⟩
  have hbody : ∀ body : List Field, (∀ f ∈ body, f.key ≠ 'm') →
      ∀ f ∈ body ++ [⟨key, value⟩], f.key ≠ 'm' := by
    intro body hbody
    rw [List.forall_mem_append, List.forall_mem_singleton]
    exact ⟨hbody, hkey⟩
  rw [List.reverse_reverse] at hsections
  -- the open part is the session while there is no section, and the newest block afterwards
  cases hsections with
  | nil =>
    exact ⟨⟨session ++ [⟨key, value⟩], []⟩, by simp [Layout.fields],
      ⟨hbody session hsession, nofun⟩, hown _ _ _ howns, .nil⟩
  | @cons b s newest earlier hb hrest =>
    simp only [List.mem_reverse, List.forall_mem_cons] at hblocks
    refine ⟨⟨session, (⟨b.heading, b.body ++ [⟨key, value⟩]⟩ :: newest).reverse⟩, ?_,
      ⟨hsession, ?_⟩, howns, ?_⟩
    · simp [Layout.fields, Block.fields]
    · simp only [List.mem_reverse, List.forall_mem_cons]
      exact ⟨hbody b.body hblocks.1, hblocks.2⟩
    · rw [List.reverse_reverse]
      exact .cons ⟨hb.heading, hown _ _ _ hb.own⟩ hrest

/-- A part keeps its connection and its attributes when another field comes. -/
theorem skip (hd : Scopes l d) (key : Char) (value : List Char) (hm : key ≠ 'm') (hc : key ≠ 'c')
    (ha : key ≠ 'a') : ∃ l' : Layout, l'.fields = l.fields ++ [⟨key, value⟩] ∧ Scopes l' d := by
  have hopen := hd.mapOpen (g := id) (h := id) hm fun fields c as hown =>
    hown.concat_other (f := ⟨key, value⟩) hc ha
  rwa [mapOpen_id] at hopen

/-- A heading opens a section. -/
theorem heading (hd : Scopes l d) {value : List Char} {s : Section}
    (hs : Section.ofText? value = some s) :
    ∃ l' : Layout, l'.fields = l.fields ++ [⟨'m', value⟩] ∧
      Scopes l' { d with sections := s :: d.sections } := by
  obtain ⟨hheading, hconnection, hattributes⟩ := Section.ofText?_eq_some_iff.1 hs
  refine ⟨⟨l.session, l.blocks ++ [⟨value, []⟩]⟩, ?_, ⟨hd.valid.session, ?_⟩, hd.session, ?_⟩
  · simp [Layout.fields, Block.fields]
  · rw [List.forall_mem_append, List.forall_mem_singleton]
    exact ⟨hd.valid.blocks, nofun⟩
  · rw [List.reverse_append, List.reverse_singleton, List.singleton_append]
    refine .cons ⟨hheading, hconnection, ?_⟩ hd.sections
    rw [hattributes]
    exact .nil

/-- Every field is put into the part that is open. -/
theorem put? (hd : Scopes l d) (h : d.put? f.key f.value = some d') :
    ∃ l' : Layout, l'.fields = l.fields ++ [f] ∧ Scopes l' d' := by
  obtain ⟨key, value⟩ := f
  change d.put? key value = some d' at h
  unfold Draft.put? at h
  split at h
  case h_1 =>
    obtain ⟨version, -, rfl⟩ := Option.map_eq_some_iff.1 h
    obtain ⟨l', hfields, hscopes⟩ := hd.skip 'v' value (by decide) (by decide) (by decide)
    exact ⟨l', hfields, hscopes.valid, hscopes.session, hscopes.sections⟩
  case h_2 =>
    cases h
    obtain ⟨l', hfields, hscopes⟩ := hd.skip 'o' value (by decide) (by decide) (by decide)
    exact ⟨l', hfields, hscopes.valid, hscopes.session, hscopes.sections⟩
  case h_3 =>
    cases h
    obtain ⟨l', hfields, hscopes⟩ := hd.skip 's' value (by decide) (by decide) (by decide)
    exact ⟨l', hfields, hscopes.valid, hscopes.session, hscopes.sections⟩
  case h_4 =>
    cases h
    rw [withConnection_eq]
    exact hd.mapOpen (by decide) fun _ _ _ hown => hown.concat_connection value
  case h_5 =>
    obtain ⟨s, hs, rfl⟩ := Option.map_eq_some_iff.1 h
    exact hd.heading hs
  case h_6 =>
    cases h
    rw [withAttribute_eq]
    exact hd.mapOpen (by decide) fun _ _ _ hown => hown.concat_attribute value
  case h_7 hc hm ha =>
    cases h
    exact hd.skip key value hm hc ha

end Scopes

/-- The fields that have been put into a draft tell what it says of the whole session. -/
structure Tells (fields : List Field) (d : Draft) : Prop where
  /-- The last version holds. -/
  version : Option.Rel (fun value version => IsDecimal (trim value) (UInt32.toNat version))
    (values 'v' fields).getLast? d.version
  /-- The last origin holds. -/
  origin : d.origin = last? 'o' fields
  /-- The last name holds. -/
  name : d.name = (last? 's' fields).getD ""

namespace Tells

variable {fields : List Field}

theorem mapOpen (hd : Tells fields d) (g : Option String → Option String)
    (h : List Attribute → List Attribute) : Tells fields (d.mapOpen g h) := by
  unfold Draft.mapOpen
  split <;> exact ⟨hd.version, hd.origin, hd.name⟩

/-- Fields of other kinds leave them. -/
theorem skip (hd : Tells fields d) (key : Char) (value : List Char) (hv : key ≠ 'v')
    (ho : key ≠ 'o') (hs : key ≠ 's') : Tells (fields ++ [⟨key, value⟩]) d where
  version := by
    rw [values_concat_of_ne hv]
    exact hd.version
  origin := by
    rw [last?_concat_of_ne ho]
    exact hd.origin
  name := by
    rw [last?_concat_of_ne hs]
    exact hd.name

/-- A field takes the place of the earlier ones of its kind. -/
theorem put? (hd : Tells fields d) (h : d.put? f.key f.value = some d') :
    Tells (fields ++ [f]) d' := by
  obtain ⟨key, value⟩ := f
  change d.put? key value = some d' at h
  unfold Draft.put? at h
  split at h
  case h_1 =>
    obtain ⟨version, hread, rfl⟩ := Option.map_eq_some_iff.1 h
    refine ⟨?_, ?_, ?_⟩
    · rw [values_concat_self, List.getLast?_concat]
      exact .some (readUInt32?_eq_some_iff.1 hread)
    · rw [last?_concat_of_ne (show 'v' ≠ 'o' by decide)]
      exact hd.origin
    · rw [last?_concat_of_ne (show 'v' ≠ 's' by decide)]
      exact hd.name
  case h_2 =>
    cases h
    refine ⟨?_, (last?_concat_self 'o' fields value).symm, ?_⟩
    · rw [values_concat_of_ne (show 'o' ≠ 'v' by decide)]
      exact hd.version
    · rw [last?_concat_of_ne (show 'o' ≠ 's' by decide)]
      exact hd.name
  case h_3 =>
    cases h
    refine ⟨?_, ?_, ?_⟩
    · rw [values_concat_of_ne (show 's' ≠ 'v' by decide)]
      exact hd.version
    · rw [last?_concat_of_ne (show 's' ≠ 'o' by decide)]
      exact hd.origin
    · rw [last?_concat_self, Option.getD_some]
  case h_4 =>
    cases h
    rw [withConnection_eq]
    exact (hd.mapOpen _ _).skip _ value (by decide) (by decide) (by decide)
  case h_5 =>
    obtain ⟨s, -, rfl⟩ := Option.map_eq_some_iff.1 h
    obtain ⟨hversion, horigin, hname⟩ := hd.skip 'm' value (by decide) (by decide) (by decide)
    exact ⟨hversion, horigin, hname⟩
  case h_6 =>
    cases h
    rw [withAttribute_eq]
    exact (hd.mapOpen _ _).skip _ value (by decide) (by decide) (by decide)
  case h_7 hv ho hs _ _ _ =>
    cases h
    exact hd.skip key value hv ho hs

end Tells

/-- What a draft holds when some fields have been put into a new one. -/
theorem follows_of_putAll {fields : List Field} (h : putAll {} fields = some d) :
    Tells fields d ∧ ∃ l : Layout, l.fields = fields ∧ Scopes l d := by
  -- a field is put into what the fields before it have made, so the last one is taken off
  induction fields using List.reverseRecOn generalizing d with
  | nil =>
    cases h
    exact ⟨⟨.none, rfl, rfl⟩, ⟨[], []⟩, rfl, ⟨nofun, nofun⟩, ⟨rfl, .nil⟩, .nil⟩
  | append_singleton fields f ih =>
    rw [putAll_append] at h
    obtain ⟨before, hbefore, h⟩ := Option.bind_eq_some_iff.1 h
    rw [putAll_cons] at h
    obtain ⟨next, hnext, h⟩ := Option.bind_eq_some_iff.1 h
    cases h
    obtain ⟨htells, l, rfl, hscopes⟩ := ih hbefore
    exact ⟨htells.put? hnext, hscopes.put? hnext⟩

/-- The draft of a whole description becomes what its layout says. -/
theorem describes_of_finish? {l : Layout} {description : Description} (hscopes : Scopes l d)
    (htells : Tells l.fields d) (h : d.finish? = some description) : l.Describes description := by
  obtain ⟨version, hversion, rfl⟩ := Option.map_eq_some_iff.1 h
  obtain ⟨hrel, horigin, hname⟩ := htells
  rw [hversion] at hrel
  refine ⟨?_, horigin, hname, hscopes.session, ?_⟩
  · cases hvalue : (values 'v' l.fields).getLast? with
    | none =>
      rw [hvalue] at hrel
      cases hrel
    | some value =>
      rw [hvalue] at hrel
      cases hrel with
      | some hdecimal => exact ⟨value, rfl, hdecimal⟩
  · have hmedia := List.forall₂_reverse_iff.2 hscopes.sections
    rwa [List.reverse_reverse] at hmedia

/-- Only a draft without a version does not become a description. -/
theorem finish?_eq_none_iff {fields : List Field} (htells : Tells fields d) :
    d.finish? = none ↔ values 'v' fields = [] := by
  rw [finish?, Option.map_eq_none_iff, ← List.getLast?_eq_none_iff]
  have hrel := htells.version
  cases hvalue : (values 'v' fields).getLast? <;> cases hversion : d.version <;>
    rw [hvalue, hversion] at hrel <;> cases hrel <;> simp

end Draft

end MediaTransport.Sdp
