import MediaTransport.Proofs.Sdp.RoundTrip

/-!
# The lines that are read

A line can be read when it is blank or holds a field: a key of one byte, an equals sign and
a value that the key allows (`IsReadable`).  Only two keys are particular about their values.
A version is a number, and a heading has three words at least, the second of which starts with
a port (`Field.IsAllowed`).

This does not depend on what has been read before (`Draft.isSome_read?`).  So the reader puts
the fields of the lines into its draft one by one when all lines can be read
(`Draft.readAll_eq_ok_iff`), and otherwise stops at the first one that cannot
(`Draft.readAll_eq_error_iff`).
-/

namespace MediaTransport.Sdp

open Text

/-! ## Lines -/

/-- The pieces of a text between its newlines, without the carriage returns at their ends. -/
def textLines (text : String) : List (List Char) :=
  (text.toList.splitOn '\n').map (dropEndWhile (· == '\r'))

theorem dropEndWhile_withoutReturn (line : List Char) :
    dropEndWhile (· == '\r') (withoutReturn line) = dropEndWhile (· == '\r') line := by
  rw [withoutReturn, beforeLast?]
  split
  next hlast =>
    obtain ⟨front, rfl⟩ := List.getLast?_eq_some_iff.1 hlast
    simp [dropEndWhile]
  next => rw [Option.getD_none]

/-- The reader does not take an empty piece at the end for a line. -/
theorem textLines_eq (text : String) :
    ∃ ends, textLines text = contentLines text ++ ends ∧ ∀ line ∈ ends, line = [] := by
  obtain ⟨first, last, hpieces⟩ : ∃ first last, text.toList.splitOn '\n' = first ++ [last] :=
    ⟨_, _, (List.dropLast_concat_getLast (List.splitOn_ne_nil '\n' text.toList)).symm⟩
  have hfirst : (first.map withoutReturn).map (dropEndWhile (· == '\r'))
      = first.map (dropEndWhile (· == '\r')) := by
    rw [List.map_map]
    exact List.map_congr_left fun line _ => dropEndWhile_withoutReturn line
  -- a carriage return that the end of a line takes along would have been cut off anyway
  rw [textLines, contentLines, lines, hpieces, List.dropLast_concat, List.getLast?_concat,
    List.map_append, List.map_append, hfirst]
  cases last with
  | nil => exact ⟨[[]], by simp [dropEndWhile], by simp⟩
  | cons c more => exact ⟨[], by simp [Option.filter], by simp⟩

/-! ## Fields of lines -/

/-- A heading of a section: words, of which the second is a port, or starts with one and a
slash. -/
def IsHeading (value : List Char) (s : Section) : Prop :=
  ∃ port, words value = s.media.toList :: port :: s.protocol.toList :: s.formats.map String.toList ∧
    IsDecimal (before '/' port) s.port.toNat

/-- A field with a value that its key allows. -/
structure Field.IsAllowed (f : Field) : Prop where
  /-- A version is a number of thirty-two bits, with blanks around it. -/
  version : f.key = 'v' → ∃ n : UInt32, IsDecimal (trim f.value) n.toNat
  /-- What opens a section is a heading. -/
  heading : f.key = 'm' → ∃ s : Section, IsHeading f.value s

/-- A line that can be read. -/
inductive IsReadable : List Char → Prop where
  /-- It is blank. -/
  | blank {line : List Char} (h : ∀ c ∈ line, isBlank c = true) : IsReadable line
  /-- Its first equals sign is its second byte. -/
  | field {f : Field} (hsize : f.key.utf8Size = 1) (hequals : f.key ≠ '=')
      (hallowed : f.IsAllowed) : IsReadable f.line

/-- A line that cannot be read, behind others that can. -/
def FirstUnreadable (ls : List (List Char)) (bad : List Char) : Prop :=
  ∃ before after, ls = before ++ bad :: after ∧ (∀ line ∈ before, IsReadable line) ∧
    ¬ IsReadable bad

/-- The field of a line. -/
def field? : List Char → Option Field
  | key :: '=' :: value => some ⟨key, value⟩
  | _ => none

/-- The fields of some lines. -/
def fieldsOf (ls : List (List Char)) : List Field := ls.filterMap field?

theorem FirstUnreadable.not_forall {ls : List (List Char)} {bad : List Char}
    (h : FirstUnreadable ls bad) : ¬ ∀ line ∈ ls, IsReadable line := by
  obtain ⟨before, after, rfl, -, hbad⟩ := h
  intro hall
  exact hbad (hall bad (by simp))

theorem field?_eq_some_iff {line : List Char} {f : Field} :
    field? line = some f ↔ line = f.line := by
  constructor
  · intro h
    unfold field? at h
    split at h
    next =>
      cases h
      rfl
    next => cases h
  · rintro rfl
    rfl

theorem field?_of_blank {line : List Char} (h : ∀ c ∈ line, isBlank c = true) :
    field? line = none := by
  rw [Option.eq_none_iff_forall_ne_some]
  intro f hf
  rw [field?_eq_some_iff] at hf
  have hequals : '=' ∈ line := by simp [hf, Field.line]
  exact absurd (h '=' hequals) (by decide)

/-! ## Reading a line -/

/-- What is read as a heading is a section without a connection and attributes. -/
theorem Section.ofText?_eq_some_iff {value : List Char} {s : Section} :
    Section.ofText? value = some s ↔
      IsHeading value s ∧ s.connection = none ∧ s.attributes = [] := by
  constructor
  · intro h
    unfold Section.ofText? at h
    split at h
    next media port protocol formats hwords =>
      obtain ⟨n, hport, hs⟩ := Option.bind_eq_some_iff.1 h
      cases hs
      refine ⟨⟨port, ?_, readUInt16?_eq_some_iff.1 hport⟩, rfl, rfl⟩
      simp [hwords, Function.comp_def]
    next => cases h
  · rintro ⟨⟨port, hwords, hport⟩, hconnection, hattributes⟩
    obtain ⟨media, n, protocol, formats, connection, attributes⟩ := s
    cases hconnection
    cases hattributes
    rw [Section.ofText?, hwords]
    simp [readUInt16?_eq_some_iff.2 hport, Function.comp_def]

theorem utf8Size_eq_one_iff {key : Char} : key.utf8Size = 1 ↔ key.toNat < 0x80 := by
  rw [Char.utf8Size_eq_one_iff, UInt32.le_iff_toNat_le]
  exact Nat.lt_succ_iff.symm

namespace Draft

variable {d d' : Draft} {line : List Char}

theorem isSome_put? (d : Draft) (f : Field) :
    (d.put? f.key f.value).isSome ↔ f.IsAllowed := by
  obtain ⟨key, value⟩ := f
  change (d.put? key value).isSome ↔ _
  unfold put?
  split
  next =>
    rw [Option.isSome_map, Option.isSome_iff_exists]
    constructor
    · rintro ⟨n, hn⟩
      exact ⟨fun _ => ⟨n, readUInt32?_eq_some_iff.1 hn⟩, nofun⟩
    · intro h
      obtain ⟨n, hn⟩ := h.version rfl
      exact ⟨n, readUInt32?_eq_some_iff.2 hn⟩
  next => exact iff_of_true rfl ⟨nofun, nofun⟩
  next => exact iff_of_true rfl ⟨nofun, nofun⟩
  next => exact iff_of_true rfl ⟨nofun, nofun⟩
  next =>
    rw [Option.isSome_map, Option.isSome_iff_exists]
    constructor
    · rintro ⟨s, hs⟩
      exact ⟨nofun, fun _ => ⟨s, (Section.ofText?_eq_some_iff.1 hs).1⟩⟩
    · intro h
      obtain ⟨s, hs⟩ := h.heading rfl
      exact ⟨{ s with connection := none, attributes := [] },
        Section.ofText?_eq_some_iff.2 ⟨hs, rfl, rfl⟩⟩
  next => exact iff_of_true rfl ⟨nofun, nofun⟩
  next hversion _ _ _ hheading _ =>
    exact iff_of_true rfl ⟨fun h => absurd h hversion, fun h => absurd h hheading⟩

/-- A line that can be read puts its field into the draft, if it has one. -/
theorem read?_eq (d : Draft) (h : IsReadable line) :
    d.read? line = d.putAll (field? line).toList := by
  cases h with
  | blank hblank =>
    rw [read?, isAllBlank, List.all_eq_true.2 hblank, field?_of_blank hblank]
    rfl
  | @field f hsize hequals =>
    rw [read?_line d hequals (utf8Size_eq_one_iff.1 hsize), field?_eq_some_iff.2 rfl,
      Option.toList_some, putAll_cons]
    cases d.put? f.key f.value <;> rfl

/-- Whether a line can be read does not depend on the draft. -/
theorem isSome_read? (d : Draft) (line : List Char) : (d.read? line).isSome ↔ IsReadable line := by
  constructor
  · intro h
    unfold read? at h
    split at h
    next hblank => exact .blank (List.all_eq_true.1 hblank)
    next =>
      split at h
      next key value hcut =>
        obtain ⟨rfl, hequals⟩ := cut?_eq_some hcut
        split at h
        next hascii =>
          have hkey : key ≠ '=' := fun hkey => hequals (by simp [hkey])
          have hallowed := (d.isSome_put? ⟨key, value⟩).1 h
          exact .field (utf8Size_eq_one_iff.2 hascii) hkey hallowed
        next => cases h
      next => cases h
  · intro h
    rw [d.read?_eq h]
    cases h with
    | blank hblank =>
      rw [field?_of_blank hblank]
      rfl
    | @field f hsize hequals hallowed =>
      rw [field?_eq_some_iff.2 rfl, Option.toList_some, putAll_cons]
      obtain ⟨next, hnext⟩ := Option.isSome_iff_exists.1 ((d.isSome_put? f).2 hallowed)
      rw [hnext]
      rfl

theorem isReadable_of_read? (h : d.read? line = some d') : IsReadable line :=
  (d.isSome_read? line).1 (Option.isSome_of_eq_some h)

theorem not_isReadable_of_read? (h : d.read? line = none) : ¬ IsReadable line := by
  rw [← d.isSome_read? line, h]
  exact Bool.false_ne_true

/-! ## Reading lines -/

/-- All lines are read just when each of them can be, and then the draft has their fields. -/
theorem readAll_eq_ok_iff {ls : List (List Char)} :
    d.readAll ls = .ok d' ↔
      (∀ line ∈ ls, IsReadable line) ∧ d.putAll (fieldsOf ls) = some d' := by
  induction ls generalizing d with
  | nil => simp [readAll, fieldsOf]
  | cons line rest ih =>
    have hfields : fieldsOf (line :: rest) = (field? line).toList ++ fieldsOf rest := by
      cases hfield : field? line <;> simp [fieldsOf, hfield]
    rw [readAll, List.forall_mem_cons, hfields, putAll_append]
    cases hnext : d.read? line with
    | some next =>
      have hline := isReadable_of_read? hnext
      rw [← d.read?_eq hline, hnext]
      simp only [ih, hline, true_and, Option.bind_some]
    | none =>
      have hline := not_isReadable_of_read? hnext
      simp [hline]

/-- The reader stops at the first line that cannot be read. -/
theorem readAll_eq_error_iff {ls : List (List Char)} {bad : List Char} :
    d.readAll ls = .error bad ↔ FirstUnreadable ls bad := by
  induction ls generalizing d with
  | nil => simp [readAll, FirstUnreadable]
  | cons line rest ih =>
    rw [readAll]
    cases hnext : d.read? line with
    | some next =>
      have hline := isReadable_of_read? hnext
      simp only [ih]
      constructor
      · rintro ⟨before, after, rfl, hbefore, hbad⟩
        exact ⟨line :: before, after, rfl, List.forall_mem_cons.2 ⟨hline, hbefore⟩, hbad⟩
      · rintro ⟨before, after, hsplit, hbefore, hbad⟩
        cases before with
        | nil =>
          cases hsplit
          exact absurd hline hbad
        | cons first before =>
          cases hsplit
          exact ⟨before, after, rfl, (List.forall_mem_cons.1 hbefore).2, hbad⟩
    | none =>
      have hline := not_isReadable_of_read? hnext
      constructor
      · intro h
        cases h
        exact ⟨[], rest, rfl, by simp, hline⟩
      · rintro ⟨before, after, hsplit, hbefore, hbad⟩
        cases before with
        | nil =>
          cases hsplit
          rfl
        | cons first before =>
          cases hsplit
          exact absurd (hbefore _ List.mem_cons_self) hline

/-- Empty lines at the end leave nothing behind. -/
theorem readAll_append_nil (d : Draft) (ls : List (List Char)) {ends : List (List Char)}
    (hends : ∀ line ∈ ends, line = []) : d.readAll (ls ++ ends) = d.readAll ls := by
  induction ls generalizing d with
  | nil =>
    induction ends with
    | nil => rfl
    | cons line rest ih =>
      obtain ⟨rfl, hrest⟩ := List.forall_mem_cons.1 hends
      exact ih hrest
  | cons line rest ih =>
    rw [List.cons_append, readAll, readAll]
    cases d.read? line with
    | some next => exact ih next
    | none => rfl

theorem readAll_contentLines (d : Draft) (text : String) :
    d.readAll (contentLines text) = d.readAll (textLines text) := by
  obtain ⟨ends, hlines, hends⟩ := textLines_eq text
  rw [hlines, d.readAll_append_nil _ hends]

end Draft

end MediaTransport.Sdp
