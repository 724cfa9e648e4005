import MediaTransport.Proofs.Rtsp.Delivery
import MediaTransport.Proofs.Rtsp.Head

/-!
# Reading a written request

The grammar of a request is read backwards: a line ends with a carriage return and a
newline, the start line is a method, a URI and the version with single spaces between
them, the header lines go up to an empty line, and nothing follows (`Request.read?`).

A start line that is read has no other space and no other line end, so a URI that was
read is *plain* (`isPlain_of_read?`).  A request writes its URI as it is.  So a request
whose headers can be written reads back exactly when its URI is plain
(`read?_render_iff`).
-/

namespace MediaTransport.Rtsp

open Text

/-! ## Lines -/

/-- The pieces of a text between the ends of its lines. -/
def endedLines : List Char → List (List Char)
  | [] => [[]]
  | '\r' :: '\n' :: rest => [] :: endedLines rest
  | c :: rest => (endedLines rest).modifyHead (c :: ·)

/-- The first line comes off with its end. -/
theorem endedLines_append {line : List Char} (h : '\n' ∉ line) (rest : List Char) :
    endedLines (line ++ '\r' :: '\n' :: rest) = line :: endedLines rest := by
  induction line with
  | nil => rfl
  | cons c more ih =>
    have hmore : '\n' ∉ more := fun hmem => h (List.mem_cons_of_mem c hmem)
    -- A carriage return in the line is not followed by a newline.
    have hopen : ∀ tail, c = '\r' → more ++ '\r' :: '\n' :: rest = '\n' :: tail → False := by
      intro tail _ htail
      cases more with
      | nil => cases htail
      | cons d others =>
        cases htail
        exact hmore List.mem_cons_self
    rw [List.cons_append, endedLines, ih hmore]
    · rfl
    · exact hopen

/-- Lines without line breaks come back, and an empty one behind the last. -/
theorem endedLines_joinLines {ls : List (List Char)} (h : ∀ line ∈ ls, '\n' ∉ line) :
    endedLines (joinLines ls) = ls ++ [[]] := by
  induction ls with
  | nil => rfl
  | cons line rest ih =>
    obtain ⟨hline, hrest⟩ := List.forall_mem_cons.1 h
    have hjoin : joinLines (line :: rest) = line ++ '\r' :: '\n' :: joinLines rest := by
      simp [joinLines]
    rw [hjoin, endedLines_append hline, ih hrest, List.cons_append]

/-! ## Reading -/

/-- The method of a word. -/
def Method.ofWord? (word : List Char) : Option Method :=
  [Method.describe, .setup, .play, .pause, .teardown].find? fun m => m.word.toList == word

/-- Reads a start line. -/
def readStart? (line : List Char) : Option (Method × String) :=
  if '\r' ∈ line ∨ '\n' ∈ line then none
  else
    match line.splitOn ' ' with
    | [method, uri, last] =>
      if last = version.toList then (Method.ofWord? method).map (·, String.ofList uri) else none
    | _ => none

/-- Reads header lines up to an empty one, with nothing after its end. -/
def readAllHeaders? : List (List Char) → Option (List Header)
  | [] => none
  | line :: rest =>
    if line = [] then if rest = [[]] then some [] else none
    else do
      let header ← Header.ofLine? line
      let headers ← readAllHeaders? rest
      return header :: headers

/-- Reads a request. -/
def Request.read? (text : String) : Option Request :=
  match endedLines text.toList with
  | [] => none
  | start :: rest => do
    let (method, uri) ← readStart? start
    let headers ← readAllHeaders? rest
    return ⟨method, uri, headers⟩

/-- A URI that can stand between the spaces of a start line. -/
structure IsPlain (uri : String) : Prop where
  /-- It has no space. -/
  space : ' ' ∉ uri.toList
  /-- It has no carriage return. -/
  carriageReturn : '\r' ∉ uri.toList
  /-- It has no newline. -/
  newline : '\n' ∉ uri.toList

/-- An address that is read has no blanks, for it was cut at them. -/
theorem isPlain_of_readStart? {line : List Char} {method : Method} {uri : String}
    (h : readStart? line = some (method, uri)) : IsPlain uri := by
  unfold readStart? at h
  split at h
  next => cases h
  next hends =>
    obtain ⟨hreturn, hnewline⟩ := not_or.1 hends
    split at h
    next word text last hsplit =>
      split at h
      next =>
        obtain ⟨m, -, hm⟩ := Option.map_eq_some_iff.1 h
        cases hm
        have hpiece : text ∈ line.splitOnP (· == ' ') := by
          rw [← List.splitOn_eq_splitOnP, hsplit]
          exact List.mem_cons_of_mem word List.mem_cons_self
        have hmem := mem_and_eq_false_of_mem_splitOnP hpiece
        refine ⟨?_, ?_, ?_⟩ <;> rw [String.toList_ofList]
        · exact fun hc => Bool.noConfusion (hmem ' ' hc).2
        · exact fun hc => hreturn (hmem '\r' hc).1
        · exact fun hc => hnewline (hmem '\n' hc).1
      next => cases h
    next => cases h

theorem isPlain_of_read? {text : String} {r : Request} (h : Request.read? text = some r) :
    IsPlain r.uri := by
  unfold Request.read? at h
  split at h
  next => cases h
  next start rest _ =>
    obtain ⟨⟨method, uri⟩, hstart, h⟩ := Option.bind_eq_some_iff.1 h
    obtain ⟨headers, -, h⟩ := Option.bind_eq_some_iff.1 h
    cases h
    exact isPlain_of_readStart? hstart

/-! ## Written requests -/

/-- The start line, without its end. -/
def Request.startLine (r : Request) : List Char :=
  r.method.word.toList ++ ' ' :: (r.uri.toList ++ ' ' :: version.toList)

theorem toList_render (r : Request) :
    r.render.toList = joinLines (r.startLine :: r.headers.map Header.line ++ [[]]) := by
  simp [Request.render, Request.startLine, toList_renderHeaders, joinLines]

theorem not_mem_startLine {r : Request} {c : Char} (hc : c = '\r' ∨ c = '\n')
    (huri : c ∉ r.uri.toList) : c ∉ r.startLine := by
  have hmethod : c ∉ r.method.word.toList := by
    rcases hc with rfl | rfl <;> cases r.method <;> decide
  have hversion : c ∉ version.toList := by
    rcases hc with rfl | rfl <;> decide
  have hspace : c ≠ ' ' := by
    rcases hc with rfl | rfl <;> decide
  simp [Request.startLine, hmethod, hversion, hspace, huri]

/-- Methods read back from their words. -/
theorem ofWord?_word (m : Method) : Method.ofWord? m.word.toList = some m := by
  cases m <;> rfl

/-- A start line reads back if the address is plain. -/
theorem readStart?_startLine {r : Request} (h : IsPlain r.uri) :
    readStart? r.startLine = some (r.method, r.uri) := by
  have hends : ¬('\r' ∈ r.startLine ∨ '\n' ∈ r.startLine) :=
    not_or.2 ⟨not_mem_startLine (.inl rfl) h.carriageReturn, not_mem_startLine (.inr rfl) h.newline⟩
  have hmethod : ' ' ∉ r.method.word.toList := by cases r.method <;> decide
  have hversion : ' ' ∉ version.toList := by decide
  rw [readStart?, if_neg hends, Request.startLine, splitOn_three hmethod h.space hversion]
  simp [ofWord?_word]

theorem readAllHeaders?_lines {headers : List Header} (hh : ∀ h ∈ headers, h.IsSendable) :
    readAllHeaders? (headers.map Header.line ++ [[], []]) = some headers := by
  induction headers with
  | nil => rfl
  | cons h rest ih =>
    obtain ⟨hfirst, hrest⟩ := List.forall_mem_cons.1 hh
    have hline : h.line ≠ [] := by simp [Header.line]
    rw [List.map_cons, List.cons_append, readAllHeaders?, if_neg hline, ofLine?_line hfirst,
      ih hrest]
    rfl

/-- So does the whole request. -/
theorem read?_render {r : Request} (hh : ∀ h ∈ r.headers, h.IsSendable) (huri : IsPlain r.uri) :
    Request.read? r.render = some r := by
  have hstart : '\n' ∉ r.startLine := not_mem_startLine (.inr rfl) huri.newline
  have hlines : ∀ line ∈ r.startLine :: r.headers.map Header.line ++ [[]], '\n' ∉ line := by
    simp only [List.cons_append, List.forall_mem_cons, List.forall_mem_append, List.forall_mem_map]
    exact ⟨hstart, fun h hmem => newline_not_mem_line (hh h hmem), by simp⟩
  rw [Request.read?, toList_render, endedLines_joinLines hlines]
  simp only [List.cons_append, List.append_assoc, List.nil_append, readStart?_startLine huri,
    readAllHeaders?_lines hh]
  rfl

/-- A request whose headers can be written reads back exactly when its URI is plain. -/
theorem read?_render_iff {r : Request} (hh : ∀ h ∈ r.headers, h.IsSendable) :
    Request.read? r.render = some r ↔ IsPlain r.uri :=
  ⟨isPlain_of_read?, read?_render hh⟩

end MediaTransport.Rtsp
