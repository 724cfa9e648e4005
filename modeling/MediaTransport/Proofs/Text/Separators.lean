import Mathlib.Data.List.Basic
import MediaTransport.Proofs.Text.Lines

/-!
# Parts and separators

What the cuts of `Text.Cut` give is described from the text: a text is cut at its last
separator just when it is two parts with the separator between them, of which the second
has none (`cutLast?_append`, `cutLast?_eq_some`), and an opening or a last character comes
off just when the text has it (`afterOpening?_eq_some_iff`, `beforeLast?_eq_some_iff`).

Pieces without separators come out of a split as they were put together
(`splitOn_eq_iff`).  A letter in lower case may stand for one in upper case, and every other
character only for itself (`toNat_toLower`).
-/

namespace MediaTransport.Text

variable {separator : Char} {text first rest : List Char}

/-! ## The last separator -/

/-- A text is cut at its last separator. -/
theorem cutLast?_append (h : separator ∉ rest) (first : List Char) :
    cutLast? separator (first ++ separator :: rest) = some (first, rest) := by
  have hreverse : (first ++ separator :: rest).reverse
      = rest.reverse ++ separator :: first.reverse := by simp
  rw [cutLast?, hreverse, cut?_append (by simpa using h)]
  simp

/-- The two parts of a text that is cut at its last separator, with it between them, are the
text. -/
theorem cutLast?_eq_some (h : cutLast? separator text = some (first, rest)) :
    text = first ++ separator :: rest ∧ separator ∉ rest := by
  obtain ⟨⟨after, before⟩, hcut, heq⟩ := Option.map_eq_some_iff.1 h
  cases heq
  obtain ⟨htext, hafter⟩ := cut?_eq_some hcut
  refine ⟨?_, by simpa using hafter⟩
  rw [← List.reverse_inj, htext]
  simp

/-- A text without a separator is not cut. -/
theorem cutLast?_eq_none : cutLast? separator text = none ↔ separator ∉ text := by
  rw [cutLast?, Option.map_eq_none_iff, cut?_eq_none, List.mem_reverse]

/-! ## Openings and ends -/

theorem afterOpening?_eq_some_iff {opening : List Char} :
    afterOpening? opening text = some rest ↔ text = opening ++ rest := by
  constructor
  · exact eq_append_of_afterOpening?
  · rintro rfl
    exact afterOpening?_append opening rest

theorem afterOpening?_eq_isPrefixOf? (opening text : List Char) :
    afterOpening? opening text = opening.isPrefixOf? text := by
  ext rest
  rw [afterOpening?_eq_some_iff, List.isPrefixOf?_eq_some_iff_append_eq, eq_comm]

theorem beforeLast?_eq_some_iff {last : Char} :
    beforeLast? last text = some first ↔ text = first ++ [last] := by
  rw [beforeLast?]
  split
  next hlast =>
    obtain ⟨front, rfl⟩ := List.getLast?_eq_some_iff.1 hlast
    simp [eq_comm]
  next hlast =>
    constructor
    · intro h
      cases h
    · rintro rfl
      simp at hlast

/-! ## Letter cases -/

theorem toNat_toLower (c : Char) :
    c.toLower.toNat = if 65 ≤ c.toNat ∧ c.toNat ≤ 90 then c.toNat + 32 else c.toNat := by
  have hupper : 'A'.val ≤ c.val ∧ c.val ≤ 'Z'.val ↔ 65 ≤ c.toNat ∧ c.toNat ≤ 90 := by
    rw [UInt32.le_iff_toNat_le, UInt32.le_iff_toNat_le]
    exact Iff.rfl
  unfold Char.toLower
  split
  next h =>
    rw [if_pos (hupper.1 h)]
    have hlast := (hupper.1 h).2
    have hlower : (c.val + ('a'.val - 'A'.val)).toNat = c.toNat + 32 := by
      rw [UInt32.toNat_add]
      exact Nat.mod_eq_of_lt (by simp; omega)
    exact hlower
  next h => rw [if_neg (mt hupper.2 h)]

/-- What is no letter is written in one way. -/
theorem toLower_eq_iff {c d : Char} (hd : d.toNat < 65) : c.toLower = d ↔ c = d := by
  rw [← Char.toNat_inj, ← Char.toNat_inj, toNat_toLower]
  split <;> omega

/-! ## Splitting -/

/-- A text falls into pieces just when they have no separator and make the text with separators
between them. -/
theorem splitOn_eq_iff {pieces : List (List Char)} :
    text.splitOn separator = pieces ↔
      pieces ≠ [] ∧ (∀ piece ∈ pieces, separator ∉ piece) ∧
        [separator].intercalate pieces = text := by
  constructor
  · rintro rfl
    refine ⟨List.splitOn_ne_nil separator text, ?_, List.intercalate_splitOn separator⟩
    intro piece hpiece hmem
    rw [List.splitOn_eq_splitOnP] at hpiece
    simpa using eq_false_of_mem_splitOnP hpiece separator hmem
  · rintro ⟨hne, hpieces, rfl⟩
    exact List.splitOn_intercalate separator hpieces hne

/-- A last piece is put behind a separator. -/
theorem intercalate_concat {pieces : List (List Char)} (hne : pieces ≠ []) (last : List Char) :
    [separator].intercalate (pieces ++ [last])
      = [separator].intercalate pieces ++ separator :: last := by
  induction pieces with
  | nil => exact absurd rfl hne
  | cons piece pieces ih =>
    cases pieces with
    | nil => simp
    | cons next rest =>
      rw [List.cons_append, List.intercalate_cons_of_ne_nil (by simp), ih (List.cons_ne_nil _ _),
        List.intercalate_cons_of_ne_nil (List.cons_ne_nil _ _)]
      simp

/-- There is a separator between two pieces. -/
theorem mem_intercalate {pieces : List (List Char)} (h : 2 ≤ pieces.length) :
    separator ∈ [separator].intercalate pieces := by
  match pieces, h with
  | piece :: next :: rest, _ => simp [List.intercalate_cons_cons]

/-- What stands between separators stands in a piece. -/
theorem exists_mem_of_mem_intercalate {pieces : List (List Char)} {c : Char}
    (h : c ∈ [separator].intercalate pieces) : c = separator ∨ ∃ piece ∈ pieces, c ∈ piece := by
  induction pieces with
  | nil => cases h
  | cons piece pieces ih =>
    by_cases hne : pieces = []
    · subst hne
      exact .inr ⟨piece, List.mem_cons_self, by simpa using h⟩
    · rw [List.intercalate_cons_of_ne_nil hne, List.append_assoc, List.singleton_append,
        List.mem_append, List.mem_cons] at h
      obtain hpiece | hseparator | hrest := h
      · exact .inr ⟨piece, List.mem_cons_self, hpiece⟩
      · exact .inl hseparator
      · exact (ih hrest).imp_right fun ⟨other, hother, hc⟩ =>
          ⟨other, List.mem_cons_of_mem piece hother, hc⟩

theorem not_mem_of_mem_splitOn {piece : List Char} (h : piece ∈ text.splitOn separator) :
    separator ∉ piece :=
  (splitOn_eq_iff.1 rfl).2.1 piece h

/-! ## Counting -/

/-- Before the last separator there is another one just when there are two. -/
theorem mem_iff_one_lt_count (h : separator ∉ rest) :
    separator ∈ first ↔ 1 < (first ++ separator :: rest).count separator := by
  rw [List.count_append, List.count_cons_self, List.count_eq_zero_of_not_mem h, Nat.zero_add,
    Nat.lt_add_left_iff_pos, List.count_pos_iff]

/-- There are two separators between three pieces. -/
theorem one_lt_count_intercalate {pieces : List (List Char)} (h : 3 ≤ pieces.length) :
    1 < ([separator].intercalate pieces).count separator := by
  match pieces, h with
  | first :: second :: third :: rest, _ =>
    simp only [List.intercalate_cons_cons, List.count_append, List.count_singleton_self]
    omega

end MediaTransport.Text
