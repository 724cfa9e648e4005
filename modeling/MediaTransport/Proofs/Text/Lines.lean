import MediaTransport.Text.Blank
import MediaTransport.Text.Cut
import Mathlib.Data.List.TakeWhile

/-!
# Fields and lines

How the readers of `Text.Cut` and `Text.Blank` undo the writing of a field.  A
text that is *trimmed* (`IsTrimmed`) is what trimming leaves of it, also when a
blank is put in front; a text before its first separator is cut off there; *words*
(`IsWord`) with blanks between them come apart again; and the lines of a text come
off one by one.

What the readers return has the same properties: a piece of a split text has no
separator, so every word is a word and every line is one line.  A text *ends a line*
(`EndsLine`) when it has no newline, and no carriage return at its end that could be
taken for a part of the line's end.

A line may end in a newline with or without a carriage return before it.  Texts that
differ in nothing else (`SameButEnds`) have the same lines.
-/

namespace MediaTransport.Text

/-! ## Trimming -/

/-- A text that neither starts nor ends with a blank. -/
structure IsTrimmed (text : List Char) : Prop where
  /-- The first character is not blank. -/
  head : ∀ c ∈ text.head?, isBlank c = false
  /-- The last character is not blank. -/
  last : ∀ c ∈ text.getLast?, isBlank c = false

theorem dropWhile_of_head? {p : Char → Bool} {text : List Char}
    (h : ∀ c ∈ text.head?, p c = false) : text.dropWhile p = text := by
  cases text with
  | nil => rfl
  | cons c rest => rw [List.dropWhile_cons, h c rfl, if_neg Bool.false_ne_true]

theorem IsTrimmed.trim_eq {text : List Char} (h : IsTrimmed text) : trim text = text := by
  have hend : ∀ c ∈ text.reverse.head?, isBlank c = false := by
    rw [List.head?_reverse]
    exact h.last
  rw [trim, trimStart, dropWhile_of_head? h.head, trimEnd, dropEndWhile, dropWhile_of_head? hend,
    List.reverse_reverse]

theorem head?_of_dropWhile {p : Char → Bool} {text : List Char}
    (h : text.length ≤ (text.dropWhile p).length) : ∀ c ∈ text.head?, p c = false := by
  intro c hc
  cases text with
  | nil => cases hc
  | cons d rest =>
    cases hc
    cases hp : p c with
    | false => rfl
    | true =>
      have hle := List.length_dropWhile_le p rest
      rw [List.dropWhile_cons_of_pos hp, List.length_cons] at h
      omega

/-- Only a trimmed text is left as it is by trimming. -/
theorem isTrimmed_of_trim_eq {text : List Char} (h : trim text = text) : IsTrimmed text := by
  have hlength : (trimStart text).length ≤ text.length := List.length_dropWhile_le _ _
  have hend : ((trimStart text).reverse.dropWhile isBlank).length = text.length := by
    rw [← List.length_reverse]
    exact congrArg List.length h
  have hle := List.length_dropWhile_le isBlank (trimStart text).reverse
  rw [List.length_reverse] at hle
  have hhead : ∀ c ∈ text.head?, isBlank c = false := by
    apply head?_of_dropWhile
    change text.length ≤ (trimStart text).length
    omega
  have hstart : trimStart text = text := dropWhile_of_head? hhead
  refine ⟨hhead, ?_⟩
  rw [← List.head?_reverse]
  apply head?_of_dropWhile
  rw [hstart] at hend
  rw [hend, List.length_reverse]

/-- A text without blanks is trimmed. -/
theorem isTrimmed_of_forall {text : List Char} (h : ∀ c ∈ text, isBlank c = false) :
    IsTrimmed text where
  head c hc := h c (List.mem_of_head? hc)
  last c hc := h c (List.mem_of_getLast? hc)

theorem IsTrimmed.append {first rest : List Char} (hfirst : IsTrimmed first)
    (hrest : IsTrimmed rest) : IsTrimmed (first ++ rest) where
  head c hc := by
    rw [List.head?_append] at hc
    exact (Option.or_eq_some_iff.1 hc).elim (hfirst.head c) fun h => hrest.head c h.2
  last c hc := by
    rw [List.getLast?_append] at hc
    exact (Option.or_eq_some_iff.1 hc).elim (hrest.last c) fun h => hfirst.last c h.2

/-- A blank in front is trimmed. -/
theorem IsTrimmed.trim_blank {text : List Char} (h : IsTrimmed text) :
    trim (' ' :: text) = text := by
  have hstart : trimStart (' ' :: text) = trimStart text := rfl
  rw [trim, hstart]
  exact h.trim_eq

/-- A text with a character that is not blank is not all blank. -/
theorem isAllBlank_eq_false {text : List Char} {c : Char} (hc : c ∈ text)
    (hblank : isBlank c = false) : isAllBlank text = false := by
  rw [isAllBlank, List.all_eq_false]
  exact ⟨c, hc, by simp [hblank]⟩

theorem isBlank_of_isDigit {c : Char} (h : c.isDigit = true) : isBlank c = false := by
  have hrange : 48 ≤ c.toNat ∧ c.toNat ≤ 57 := by
    simpa [Char.isDigit, UInt32.le_iff_toNat_le] using h
  simp [isBlank]
  omega

theorem dropEndWhile_of_getLast? {p : Char → Bool} {text : List Char}
    (h : ∀ c ∈ text.getLast?, p c = false) : dropEndWhile p text = text := by
  rw [← List.head?_reverse] at h
  rw [dropEndWhile, dropWhile_of_head? h, List.reverse_reverse]

theorem getLast?_dropEndWhile (p : Char → Bool) (text : List Char) :
    ∀ c ∈ (dropEndWhile p text).getLast?, p c = false := by
  intro c hc
  rw [dropEndWhile, List.getLast?_reverse] at hc
  cases hrest : text.reverse.dropWhile p with
  | nil => rw [hrest] at hc; cases hc
  | cons d rest =>
    have hne : text.reverse.dropWhile p ≠ [] := by simp [hrest]
    have hd := List.head_dropWhile_not p hne
    rw [hrest] at hc
    cases hc
    simpa [hrest] using hd

/-- What a text ends with comes off behind a last character of another class. -/
theorem dropEndWhile_append {p : Char → Bool} {first : List Char} {c : Char}
    (hlast : first.getLast? = some c) (hc : p c = false) (rest : List Char) :
    dropEndWhile p (first ++ rest) = first ++ dropEndWhile p rest := by
  obtain ⟨front, rfl⟩ := List.getLast?_eq_some_iff.1 hlast
  rw [dropEndWhile, dropEndWhile, List.reverse_append, List.dropWhile_append]
  split
  next hall =>
    rw [List.isEmpty_iff.1 hall]
    simp [hc]
  next => simp

theorem isPrefix_dropEndWhile (p : Char → Bool) (text : List Char) :
    dropEndWhile p text <+: text := by
  rw [dropEndWhile, ← List.reverse_suffix, List.reverse_reverse]
  exact List.dropWhile_suffix p

theorem mem_of_mem_dropEndWhile {p : Char → Bool} {text : List Char} {c : Char}
    (h : c ∈ dropEndWhile p text) : c ∈ text :=
  (isPrefix_dropEndWhile p text).subset h

/-- Trimming trims. -/
theorem isTrimmed_trim (text : List Char) : IsTrimmed (trim text) where
  head c hc := by
    -- What is cut off at the end leaves the first character where it is.
    obtain ⟨rest, hrest⟩ : trim text <+: trimStart text := isPrefix_dropEndWhile isBlank _
    have hstart : (trimStart text).head? = some c := by
      rw [← hrest, List.head?_append, hc]
      rfl
    have hkept := List.head?_dropWhile_not isBlank text
    rw [show text.dropWhile isBlank = trimStart text from rfl, hstart] at hkept
    simpa using hkept
  last := getLast?_dropEndWhile isBlank (trimStart text)

theorem mem_of_mem_trim {text : List Char} {c : Char} (h : c ∈ trim text) : c ∈ text :=
  (List.dropWhile_sublist isBlank).subset (mem_of_mem_dropEndWhile h)

theorem mem_dropWhile {p : Char → Bool} {text : List Char} {c : Char} (hc : c ∈ text)
    (hp : p c = false) : c ∈ text.dropWhile p := by
  rw [← List.takeWhile_append_dropWhile (p := p) (l := text), List.mem_append] at hc
  refine hc.resolve_left fun hmem => ?_
  rw [List.mem_takeWhile_imp hmem] at hp
  cases hp

/-- Trimming takes off nothing but blanks. -/
theorem mem_trim_iff {text : List Char} {c : Char} (hc : isBlank c = false) :
    c ∈ trim text ↔ c ∈ text := by
  refine ⟨mem_of_mem_trim, fun hmem => ?_⟩
  have hstart : c ∈ trimStart text := mem_dropWhile hmem hc
  rw [trim, trimEnd, dropEndWhile, List.mem_reverse]
  exact mem_dropWhile (List.mem_reverse.2 hstart) hc

theorem trim_of_forall {text : List Char} (h : ∀ c ∈ text, isBlank c = true) : trim text = [] := by
  rw [List.eq_nil_iff_forall_not_mem]
  intro c hc
  have hstart : c ∈ trimStart text := mem_of_mem_dropEndWhile hc
  rw [trimStart, List.dropWhile_eq_nil_iff.2 h] at hstart
  cases hstart

/-- Blanks in front come off. -/
theorem trim_append_left {front : List Char} (h : ∀ c ∈ front, isBlank c = true)
    (text : List Char) : trim (front ++ text) = trim text := by
  rw [trim, trimStart, List.dropWhile_append_of_pos h]
  rfl

theorem trimEnd_append {back : List Char} (h : ∀ c ∈ back, isBlank c = true) (text : List Char) :
    trimEnd (text ++ back) = trimEnd text := by
  rw [trimEnd, dropEndWhile, List.reverse_append, List.dropWhile_append_of_pos (by simpa using h)]
  rfl

/-- Blanks behind come off. -/
theorem trim_append_right {back : List Char} (h : ∀ c ∈ back, isBlank c = true)
    (text : List Char) : trim (text ++ back) = trim text := by
  rw [trim, trimStart, List.dropWhile_append]
  split
  next hnil =>
    rw [List.dropWhile_eq_nil_iff.2 h, trim, trimStart, List.isEmpty_iff.1 hnil]
  next =>
    rw [trimEnd_append h]
    rfl

theorem exists_trimEnd (text : List Char) :
    ∃ back, text = trimEnd text ++ back ∧ ∀ c ∈ back, isBlank c = true := by
  refine ⟨(text.reverse.takeWhile isBlank).reverse, ?_,
    fun c hc => List.mem_takeWhile_imp (List.mem_reverse.1 hc)⟩
  rw [trimEnd, dropEndWhile, ← List.reverse_append, List.takeWhile_append_dropWhile,
    List.reverse_reverse]

theorem exists_trimStart (text : List Char) :
    ∃ front, text = front ++ trimStart text ∧ ∀ c ∈ front, isBlank c = true :=
  ⟨text.takeWhile isBlank, List.takeWhile_append_dropWhile.symm,
    fun _ hc => List.mem_takeWhile_imp hc⟩

@[simp] theorem trim_trimEnd (text : List Char) : trim (trimEnd text) = trim text := by
  obtain ⟨back, htext, hback⟩ := exists_trimEnd text
  rw [← trim_append_right hback, ← htext]

@[simp] theorem trim_trimStart (text : List Char) : trim (trimStart text) = trim text := by
  obtain ⟨front, htext, hfront⟩ := exists_trimStart text
  rw [← trim_append_left hfront, ← htext]

/-- On the two sides of a character that is not blank, trimming takes off what it takes off the
parts at their outer ends. -/
theorem trim_append_cons {c : Char} (hc : isBlank c = false) (first rest : List Char) :
    trim (first ++ c :: rest) = trimStart first ++ c :: trimEnd rest := by
  have hstart : trimStart (first ++ c :: rest) = (trimStart first ++ [c]) ++ rest := by
    rw [trimStart, List.dropWhile_append, List.dropWhile_cons_of_neg (by simp [hc])]
    split
    next hnil => simp [trimStart, List.isEmpty_iff.1 hnil]
    next => simp [trimStart]
  rw [trim, hstart, trimEnd, dropEndWhile_append List.getLast?_concat hc]
  simp [trimEnd]

/-- A text is a trimmed one with blanks around it. -/
theorem exists_trim (text : List Char) :
    ∃ front back, text = front ++ (trim text ++ back) ∧ (∀ c ∈ front, isBlank c = true) ∧
      ∀ c ∈ back, isBlank c = true := by
  obtain ⟨front, htext, hfront⟩ := exists_trimStart text
  obtain ⟨back, hstart, hback⟩ := exists_trimEnd (trimStart text)
  refine ⟨front, back, ?_, hfront, hback⟩
  rw [trim, ← hstart, ← htext]

/-! ## Cutting -/

/-- A text is cut at the first character of a class. -/
theorem cutWhere?_append {p : Char → Bool} {first : List Char} {c : Char}
    (h : ∀ d ∈ first, p d = false) (hc : p c = true) (rest : List Char) :
    cutWhere? p (first ++ c :: rest) = some (first, rest) := by
  have hfirst : ∀ d ∈ first, (!p d) = true := by simpa using h
  rw [cutWhere?, List.dropWhile_append_of_pos hfirst, List.takeWhile_append_of_pos hfirst]
  simp [hc]

/-- A text is cut at its first separator. -/
theorem cut?_append {separator : Char} {first : List Char} (h : separator ∉ first)
    (rest : List Char) : cut? separator (first ++ separator :: rest) = some (first, rest) := by
  refine cutWhere?_append (p := (· == separator)) (fun c hc => ?_) (beq_self_eq_true separator) rest
  rw [beq_eq_false_iff_ne]
  rintro rfl
  exact h hc

/-- The two parts of a cut text, with the separator between them, are the text. -/
theorem cut?_eq_some {separator : Char} {text first rest : List Char}
    (h : cut? separator text = some (first, rest)) :
    text = first ++ separator :: rest ∧ separator ∉ first := by
  rw [cut?, cutWhere?] at h
  have htext := List.takeWhile_append_dropWhile (p := fun c => !(c == separator)) (l := text)
  split at h
  next => cases h
  next d after hdrop =>
    have hne : text.dropWhile (fun c => !(c == separator)) ≠ [] := by simp [hdrop]
    have hd := List.head_dropWhile_not (fun c => !(c == separator)) hne
    simp only [hdrop, List.head_cons, Bool.not_eq_eq_eq_not, Bool.not_false, beq_iff_eq] at hd
    cases h
    rw [hdrop, hd] at htext
    refine ⟨htext.symm, fun hmem => ?_⟩
    have hkept := List.mem_takeWhile_imp hmem
    simp at hkept

/-- A text without a separator is not cut. -/
theorem cut?_eq_none {separator : Char} {text : List Char} :
    cut? separator text = none ↔ separator ∉ text := by
  constructor
  · intro h hmem
    obtain ⟨first, rest, htext, hfirst⟩ := List.eq_append_cons_of_mem hmem
    rw [htext, cut?_append hfirst] at h
    cases h
  · intro h
    cases hcut : cut? separator text with
    | none => rfl
    | some parts =>
      obtain ⟨first, rest⟩ := parts
      rw [(cut?_eq_some hcut).1] at h
      simp at h

/-- Three pieces with separators between them come apart. -/
theorem splitOn_three {separator : Char} {a b c : List Char} (ha : separator ∉ a)
    (hb : separator ∉ b) (hc : separator ∉ c) :
    (a ++ separator :: (b ++ separator :: c)).splitOn separator = [a, b, c] := by
  rw [List.splitOn_append_cons_self_of_not_mem ha, List.splitOn_append_cons_self_of_not_mem hb,
    List.splitOn_eq_singleton hc]

/-- What follows an opening is found behind it. -/
theorem afterOpening?_append (opening text : List Char) :
    afterOpening? opening (opening ++ text) = some text := by
  induction opening with
  | nil => rfl
  | cons o opening ih =>
    rw [List.cons_append, afterOpening?, if_pos rfl]
    exact ih

/-- Only a text with the opening has something behind it. -/
theorem eq_append_of_afterOpening? {opening text rest : List Char}
    (h : afterOpening? opening text = some rest) : text = opening ++ rest := by
  induction opening generalizing text with
  | nil =>
    cases h
    rfl
  | cons o opening ih =>
    cases text with
    | nil => cases h
    | cons c text =>
      rw [afterOpening?] at h
      split at h
      next heq => rw [ih h, heq, List.cons_append]
      next => cases h

/-! ## Words -/

/-- A piece of a split text is a part of it without a separator. -/
theorem mem_and_eq_false_of_mem_splitOnP {p : Char → Bool} {text piece : List Char}
    (h : piece ∈ text.splitOnP p) : ∀ c ∈ piece, c ∈ text ∧ p c = false := by
  intro c hc
  induction text generalizing piece with
  | nil =>
    rw [List.splitOnP_nil, List.mem_singleton] at h
    rw [h] at hc
    cases hc
  | cons d text ih =>
    have hlater : ∀ {other : List Char}, other ∈ text.splitOnP p → c ∈ other →
        c ∈ d :: text ∧ p c = false :=
      fun hother hmem => (ih hother hmem).imp_left (List.mem_cons_of_mem d)
    obtain ⟨first, rest, hsplit⟩ := List.exists_cons_of_ne_nil (List.splitOnP_ne_nil (p := p) text)
    rw [hsplit] at hlater
    rw [List.splitOnP_cons_eq_if_modifyHead, hsplit] at h
    cases hd : p d with
    | true =>
      rw [hd, if_pos rfl] at h
      cases h with
      | head => cases hc
      | tail _ h => exact hlater h hc
    | false =>
      rw [hd, if_neg Bool.false_ne_true, List.modifyHead_cons] at h
      cases h with
      | head =>
        cases hc with
        | head => exact ⟨List.mem_cons_self, hd⟩
        | tail _ hc => exact hlater List.mem_cons_self hc
      | tail _ h => exact hlater (List.mem_cons_of_mem first h) hc

theorem eq_false_of_mem_splitOnP {p : Char → Bool} {text piece : List Char}
    (h : piece ∈ text.splitOnP p) : ∀ c ∈ piece, p c = false :=
  fun c hc => (mem_and_eq_false_of_mem_splitOnP h c hc).2

/-- A text that is not empty and has no blank in it. -/
structure IsWord (text : List Char) : Prop where
  /-- There is a character. -/
  ne_nil : text ≠ []
  /-- No character is blank. -/
  solid : ∀ c ∈ text, isBlank c = false

theorem isWord_iff {text : List Char} :
    IsWord text ↔ text ≠ [] ∧ text.all (fun c => !isBlank c) = true := by
  simp only [List.all_eq_true, Bool.not_eq_true']
  exact ⟨fun h => ⟨h.ne_nil, h.solid⟩, fun h => ⟨h.1, h.2⟩⟩

instance (text : List Char) : Decidable (IsWord text) :=
  decidable_of_iff _ isWord_iff.symm

theorem IsWord.isTrimmed {word : List Char} (h : IsWord word) : IsTrimmed word :=
  isTrimmed_of_forall h.solid

theorem isWord_of_mem_words {text word : List Char} (h : word ∈ words text) : IsWord word := by
  rw [words, List.mem_filter] at h
  obtain ⟨hpiece, hne⟩ := h
  exact ⟨by simpa using hne, eq_false_of_mem_splitOnP hpiece⟩

/-- The first word comes off with the blank behind it. -/
theorem IsWord.words_append {word : List Char} (h : IsWord word) (rest : List Char) :
    words (word ++ ' ' :: rest) = word :: words rest := by
  rw [words, List.splitOnP_append_cons_of_forall_mem h.solid ' ' rfl,
    List.filter_cons_of_pos (by simp [h.ne_nil]), words]

theorem IsWord.words_eq {word : List Char} (h : IsWord word) : words word = [word] := by
  rw [words, List.splitOnP_eq_singleton h.solid, List.filter_cons_of_pos (by simp [h.ne_nil]),
    List.filter_nil]

/-- Words with blanks between them come apart. -/
theorem words_intercalate {ws : List (List Char)} (h : ∀ word ∈ ws, IsWord word) :
    words ([' '].intercalate ws) = ws := by
  induction ws with
  | nil => rfl
  | cons word rest ih =>
    have hword := h word List.mem_cons_self
    have hrest := ih fun other hother => h other (List.mem_cons_of_mem word hother)
    cases rest with
    | nil => simpa using hword.words_eq
    | cons next more =>
      rw [List.intercalate_cons_cons, List.append_assoc, List.singleton_append,
        hword.words_append, hrest]

/-! ## Lines -/

/-- Lines with their ends. -/
def joinLines (ls : List (List Char)) : List Char :=
  ls.flatMap fun line => line ++ ['\r', '\n']

@[simp] theorem lines_nil : lines [] = [] := rfl

theorem withoutReturn_append (line : List Char) : withoutReturn (line ++ ['\r']) = line := by
  simp [withoutReturn, beforeLast?]

/-- Behind a newline the lines start anew. -/
theorem lines_append (front rest : List Char) :
    lines (front ++ '\n' :: rest) = (front.splitOn '\n').map withoutReturn ++ lines rest := by
  have hne : rest.splitOn '\n' ≠ [] := List.splitOn_ne_nil _ _
  rw [lines, lines, List.splitOn_append_cons_self, List.dropLast_append_of_ne_nil hne,
    List.getLast?_append, List.getLast?_eq_some_getLast hne, Option.some_or, List.map_append,
    List.append_assoc]

/-- The first line comes off with its newline. -/
theorem lines_newline {line : List Char} (h : '\n' ∉ line) (rest : List Char) :
    lines (line ++ '\n' :: rest) = withoutReturn line :: lines rest := by
  rw [lines_append, List.splitOn_eq_singleton h]
  rfl

/-- The first line comes off with its end. -/
theorem lines_cons {line : List Char} (h : '\n' ∉ line) (rest : List Char) :
    lines (line ++ '\r' :: '\n' :: rest) = line :: lines rest := by
  have hline : '\n' ∉ line ++ ['\r'] := by simp [h]
  have hfirst := lines_newline hline rest
  rwa [List.append_assoc, withoutReturn_append] at hfirst

/-- Joined lines come off one by one. -/
theorem lines_joinLines {ls : List (List Char)} (h : ∀ line ∈ ls, '\n' ∉ line) :
    lines (joinLines ls) = ls := by
  induction ls with
  | nil => rfl
  | cons line rest ih =>
    have hjoin : joinLines (line :: rest) = line ++ '\r' :: '\n' :: joinLines rest := by
      simp [joinLines]
    rw [hjoin, lines_cons (h line List.mem_cons_self),
      ih fun other hother => h other (List.mem_cons_of_mem line hother)]

theorem mem_of_mem_withoutReturn {line : List Char} {c : Char} (h : c ∈ withoutReturn line) :
    c ∈ line := by
  unfold withoutReturn beforeLast? at h
  split at h
  next => exact List.dropLast_subset line h
  next => exact h

/-- Every line is one line. -/
theorem newline_not_mem_of_mem_lines {text line : List Char} (h : line ∈ lines text) :
    '\n' ∉ line := by
  have hpieces : ∀ piece ∈ text.splitOn '\n', '\n' ∉ piece := by
    intro piece hpiece hmem
    rw [List.splitOn_eq_splitOnP] at hpiece
    simpa using eq_false_of_mem_splitOnP hpiece _ hmem
  rw [lines, List.mem_append] at h
  rcases h with hended | hlast
  · obtain ⟨piece, hpiece, rfl⟩ := List.mem_map.1 hended
    intro hmem
    exact hpieces piece (List.dropLast_subset _ hpiece) (mem_of_mem_withoutReturn hmem)
  · rw [Option.mem_toList, Option.filter_eq_some_iff] at hlast
    exact hpieces line (List.mem_of_getLast? hlast.1)

/-! ## Kinds of line ends -/

theorem withoutReturn_cons {c : Char} (hc : c ≠ '\r') (line : List Char) :
    withoutReturn (c :: line) = c :: withoutReturn line := by
  cases line with
  | nil => simp [withoutReturn, beforeLast?, hc]
  | cons d line =>
    rw [withoutReturn, withoutReturn, beforeLast?, beforeLast?, List.getLast?_cons_cons]
    split <;> rfl

theorem eq_of_withoutReturn_eq_nil {line : List Char} (h : withoutReturn line = []) :
    line = [] ∨ line = ['\r'] := by
  unfold withoutReturn beforeLast? at h
  split at h
  next hlast =>
    obtain ⟨front, rfl⟩ := List.getLast?_eq_some_iff.1 hlast
    have hfront : front = [] := by simpa using h
    exact .inr (by rw [hfront, List.nil_append])
  next => exact .inl h

/-- A character that ends no line goes to the first one. -/
theorem lines_cons_of_ne {c : Char} (hnewline : c ≠ '\n') (hreturn : c ≠ '\r') (text : List Char) :
    lines (c :: text)
      = (c :: (lines text).headD []) :: (lines text).tail := by
  by_cases hmem : '\n' ∈ text
  · obtain ⟨line, rest, rfl, hline⟩ := List.eq_append_cons_of_mem hmem
    have hline' : '\n' ∉ c :: line := by simp [hline, Ne.symm hnewline]
    rw [← List.cons_append, lines_newline hline', lines_newline hline, withoutReturn_cons hreturn]
    rfl
  · have hline : '\n' ∉ c :: text := by simp [hmem, Ne.symm hnewline]
    rw [lines, lines, List.splitOn_eq_singleton hmem, List.splitOn_eq_singleton hline]
    cases text <;> rfl

/-- Texts that differ in the ends of their lines only, and have carriage returns nowhere else. -/
inductive SameButEnds : List Char → List Char → Prop where
  | nil : SameButEnds [] []
  | char {c : Char} {a b : List Char} (hc : c ≠ '\r') (h : SameButEnds a b) :
    SameButEnds (c :: a) (c :: b)
  | kept {a b : List Char} (h : SameButEnds a b) :
    SameButEnds ('\r' :: '\n' :: a) ('\r' :: '\n' :: b)
  | dropped {a b : List Char} (h : SameButEnds a b) :
    SameButEnds ('\r' :: '\n' :: a) ('\n' :: b)
  | added {a b : List Char} (h : SameButEnds a b) :
    SameButEnds ('\n' :: a) ('\r' :: '\n' :: b)

theorem SameButEnds.append_left {front a b : List Char} (hfront : '\r' ∉ front)
    (h : SameButEnds a b) : SameButEnds (front ++ a) (front ++ b) := by
  induction front with
  | nil => exact h
  | cons c front ih =>
    obtain ⟨hc, hfront⟩ := List.ne_and_not_mem_of_not_mem_cons hfront
    exact .char (Ne.symm hc) (ih hfront)

theorem SameButEnds.lines_eq {a b : List Char} (h : SameButEnds a b) : lines a = lines b := by
  have hempty : '\n' ∉ ([] : List Char) := List.not_mem_nil
  have hfeed : ∀ rest, lines ('\n' :: rest) = [] :: lines rest := lines_newline hempty
  have hreturn : ∀ rest, lines ('\r' :: '\n' :: rest) = [] :: lines rest := lines_cons hempty
  induction h with
  | nil => rfl
  | @char c _ _ hc _ ih =>
    by_cases hnewline : c = '\n'
    · rw [hnewline, hfeed, hfeed, ih]
    · rw [lines_cons_of_ne hnewline hc, lines_cons_of_ne hnewline hc, ih]
  | kept _ ih => rw [hreturn, hreturn, ih]
  | dropped _ ih => rw [hreturn, hfeed, ih]
  | added _ ih => rw [hfeed, hreturn, ih]

/-- A text whose last line is empty. -/
def EndsInEmptyLine (text : List Char) : Prop :=
  ∃ front ending, (front = [] ∨ front.getLast? = some '\n') ∧
    (ending = ['\n'] ∨ ending = ['\r', '\n']) ∧ text = front ++ ending

theorem EndsInEmptyLine.lines_append {text : List Char} (h : EndsInEmptyLine text) :
    ∃ ls, ∀ rest, lines (text ++ rest) = ls ++ [] :: lines rest := by
  obtain ⟨front, ending, hfront, hending, rfl⟩ := h
  have hempty : '\n' ∉ ([] : List Char) := List.not_mem_nil
  have hlast : ∀ rest, lines (ending ++ rest) = [] :: lines rest := by
    intro rest
    rcases hending with rfl | rfl
    · exact lines_newline hempty rest
    · exact lines_cons hempty rest
  rcases hfront with rfl | hfront
  · exact ⟨[], hlast⟩
  · obtain ⟨before, rfl⟩ := List.getLast?_eq_some_iff.1 hfront
    refine ⟨(before.splitOn '\n').map withoutReturn, fun rest => ?_⟩
    rw [List.append_assoc, List.append_assoc, List.singleton_append, Text.lines_append, hlast]

/-! ## Ends of lines -/

/-- A text that can stand at the end of a line. -/
structure EndsLine (text : List Char) : Prop where
  /-- It does not break the line. -/
  newline : '\n' ∉ text
  /-- It does not run into the end of the line. -/
  last : ∀ c ∈ text.getLast?, c ≠ '\r'

theorem EndsLine.nil : EndsLine [] where
  newline := by simp
  last := by simp

theorem EndsLine.of_getLast? {text : List Char} {c : Char} (hnewline : '\n' ∉ text)
    (hlast : text.getLast? = some c) (hc : c ≠ '\r') : EndsLine text where
  newline := hnewline
  last d hd := by
    rw [hlast] at hd
    cases hd
    exact hc

/-- What a line ends with can stand at the end of a line. -/
theorem EndsLine.of_append (first : List Char) {rest : List Char} (h : EndsLine (first ++ rest)) :
    EndsLine rest where
  newline hmem := h.newline (List.mem_append_right first hmem)
  last c hc := by
    refine h.last c ?_
    rw [List.getLast?_append, hc]
    rfl

theorem EndsLine.append {first rest : List Char} (hfirst : EndsLine first)
    (hrest : EndsLine rest) : EndsLine (first ++ rest) where
  newline hmem := (List.mem_append.1 hmem).elim hfirst.newline hrest.newline
  last c hc := by
    rw [List.getLast?_append] at hc
    cases hlast : rest.getLast? with
    | none => rw [hlast] at hc; exact hfirst.last c hc
    | some d => rw [hlast] at hc; exact hrest.last c (hlast.trans hc)

/-- A text with a mark behind it can stand at the end of a line. -/
theorem EndsLine.concat {first : List Char} {mark : Char} (hfirst : '\n' ∉ first)
    (hmark : EndsLine [mark]) : EndsLine (first ++ [mark]) where
  newline hmem := (List.mem_append.1 hmem).elim hfirst hmark.newline
  last c hc := by
    rw [List.getLast?_append] at hc
    exact hmark.last c hc

/-- A text without blanks can stand at the end of a line. -/
theorem endsLine_of_forall {text : List Char} (h : ∀ c ∈ text, isBlank c = false) :
    EndsLine text where
  newline hmem := Bool.noConfusion (h '\n' hmem)
  last c hc := by
    rintro rfl
    exact Bool.noConfusion (h '\r' (List.mem_of_getLast? hc))

theorem IsWord.endsLine {word : List Char} (h : IsWord word) : EndsLine word :=
  endsLine_of_forall h.solid

end MediaTransport.Text
