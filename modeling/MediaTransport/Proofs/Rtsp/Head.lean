import MediaTransport.Proofs.Text.Lines
import MediaTransport.Proofs.Text.Numeral
import MediaTransport.Rtsp.Reader

/-!
# Reading a written head

A *head* is the text of a response up to its empty line.  When the reason and the
headers are fields of one line each (`IsField`), the head is read back as it was
written (`read_head`), with the length of the body among its headers.
-/

namespace MediaTransport.Rtsp

open Text

/-- A text of one line that trimming leaves as it is. -/
structure IsField (text : String) : Prop where
  /-- The text has no newline. -/
  oneLine : '\n' ∉ text.toList
  /-- The text neither starts nor ends with a blank. -/
  trimmed : IsTrimmed text.toList

/-- A header that can be written on a line of its own. -/
structure Header.IsSendable (h : Header) : Prop where
  /-- The name is a field. -/
  name : IsField h.name
  /-- No part of the name is taken for the value. -/
  colon : ':' ∉ h.name.toList
  /-- The value is a field. -/
  value : IsField h.value

/-- The headers that are written for a response. -/
def Response.writtenHeaders (r : Response) : List Header :=
  match r.body with
  | none => r.headers
  | some body => r.headers ++ [lengthHeader body]

/-- The text of a response up to its empty line. -/
def Response.head (r : Response) : String :=
  version ++ " " ++ toString r.code ++ " " ++ r.reason ++ "\r\n"
    ++ renderHeaders r.writtenHeaders ++ "\r\n"

/-- A response that can be written so that its parts are found again. -/
structure Response.IsSendable (r : Response) : Prop where
  /-- The reason is a field. -/
  reason : IsField r.reason
  /-- Every header can be written. -/
  headers : ∀ h ∈ r.headers, h.IsSendable
  /-- No header declares a length. -/
  length : ∀ h ∈ r.headers, equalsIgnoringCase h.name.toList "Content-Length".toList = false
  /-- A body is not empty and within its limit. -/
  body : ∀ body ∈ r.body, 0 < body.utf8ByteSize ∧ body.utf8ByteSize ≤ bodyLimit
  /-- The head is within its limit. -/
  head : r.head.utf8ByteSize ≤ headLimit

theorem render_eq_head (r : Response) : r.render = r.head ++ r.body.getD "" := by
  rw [Response.render, Response.head, Response.writtenHeaders]
  cases r.body with
  | none => exact (String.append_empty).symm
  | some body => rfl

/-! ## Lines of a head -/

/-- The line of a header, without its end. -/
def Header.line (h : Header) : List Char :=
  h.name.toList ++ ':' :: ' ' :: h.value.toList

/-- The status line, without its end. -/
def Response.statusLine (r : Response) : List Char :=
  version.toList ++ ' ' :: ((toString r.code).toList ++ ' ' :: r.reason.toList)

/-- The lines of a head that are not empty. -/
def Response.headLines (r : Response) : List (List Char) :=
  r.statusLine :: r.writtenHeaders.map Header.line

theorem toList_renderHeaders (headers : List Header) :
    (renderHeaders headers).toList = joinLines (headers.map Header.line) := by
  rw [renderHeaders, String.toList_join, joinLines, List.flatMap_map, List.flatMap_map]
  congr 1
  funext h
  simp [Header.render, Header.line]

/-- A head is its lines and an empty one. -/
theorem toList_head (r : Response) : r.head.toList = joinLines (r.headLines ++ [[]]) := by
  simp [Response.head, Response.headLines, Response.statusLine, toList_renderHeaders, joinLines]

/-! ## Reading -/

/-- A header reads back from its line. -/
theorem ofLine?_line {h : Header} (hh : h.IsSendable) : Header.ofLine? h.line = some h := by
  rw [Header.ofLine?, Header.line, cut?_append hh.colon]
  simp only [Option.map_some, hh.name.trimmed.trim_eq, hh.value.trimmed.trim_blank,
    String.ofList_toList]

/-- Headers read back up to the empty line. -/
theorem readHeaders?_lines {headers : List Header} (hh : ∀ h ∈ headers, h.IsSendable) :
    readHeaders? (headers.map Header.line ++ [[]]) = some headers := by
  induction headers with
  | nil => rfl
  | cons h rest ih =>
    have hline : h.line.isEmpty = false := by simp [Header.line]
    rw [List.map_cons, List.cons_append, readHeaders?, hline, if_neg Bool.false_ne_true,
      ofLine?_line (hh h List.mem_cons_self)]
    rw [ih fun other hother => hh other (List.mem_cons_of_mem h hother)]
    rfl

/-- The status line reads back, with a reason of several words too. -/
theorem readStatus?_statusLine {r : Response} (hr : IsField r.reason) :
    readStatus? r.statusLine = some (r.code, r.reason) := by
  have hversion : ' ' ∉ version.toList := by decide
  have hcode : ' ' ∉ (toString r.code).toList := by
    intro h
    exact absurd (isDigit_of_mem_toString (n := r.code.toNat) h) (by decide)
  have hopening : afterOpening? "RTSP/".toList version.toList = some "1.0".toList := rfl
  rw [readStatus?, Response.statusLine, cut?_append hversion]
  simp only [Option.bind_eq_bind, Option.bind_some, hopening, cut?_append hcode, Option.getD_some,
    readUInt16?_toString, hr.trimmed.trim_eq, String.ofList_toList]
  rfl

/-! ## Looking up a header -/

/-- A header of another name is passed over. -/
theorem headerValue?_cons_other {h : Header} {name : String}
    (hname : equalsIgnoringCase h.name.toList name.toList = false) (rest : List Header) :
    headerValue? (h :: rest) name = headerValue? rest name := by
  have hskip : ¬equalsIgnoringCase h.name.toList name.toList = true := by simp [hname]
  exact congrArg (Option.map Header.value) (List.find?_cons_of_neg hskip)

theorem headerValue?_cons_same {h : Header} {name : String}
    (hname : equalsIgnoringCase h.name.toList name.toList = true) (rest : List Header) :
    headerValue? (h :: rest) name = some h.value :=
  congrArg (Option.map Header.value) (List.find?_cons_of_pos hname)

/-! ## Fields -/

/-- A text without blanks can be the value of a header. -/
theorem isField_of_solid {text : String} (h : text.toList.any isBlank = false) :
    IsField text := by
  have hsolid : ∀ c ∈ text.toList, isBlank c = false := by simpa using h
  refine ⟨fun hmem => Bool.noConfusion (hsolid '\n' hmem), ?_, ?_⟩
  · exact fun c hc => hsolid c (List.mem_of_mem_head? hc)
  · exact fun c hc => hsolid c (List.mem_of_mem_getLast? hc)

theorem solid_toString (n : ℕ) : (toString n).toList.any isBlank = false := by
  rw [List.any_eq_false]
  intro c hc
  simp [isBlank_of_isDigit (isDigit_of_mem_toString hc)]

theorem isField_toString (n : ℕ) : IsField (toString n) :=
  isField_of_solid (solid_toString n)

theorem lengthHeader_isSendable (body : String) : (lengthHeader body).IsSendable := by
  have hname : IsField "Content-Length" := ⟨by decide, isTrimmed_of_trim_eq (by decide)⟩
  have hcolon : ':' ∉ "Content-Length".toList := by decide
  exact ⟨hname, hcolon, isField_toString _⟩

/-- The length that is added for a body can be sent like the other headers. -/
theorem writtenHeaders_isSendable {r : Response} (hr : r.IsSendable) :
    ∀ h ∈ r.writtenHeaders, h.IsSendable := by
  intro h hh
  unfold Response.writtenHeaders at hh
  split at hh
  next => exact hr.headers h hh
  next body _ =>
    rcases List.mem_append.mp hh with hh | hh
    · exact hr.headers h hh
    · rw [List.mem_singleton.mp hh]
      exact lengthHeader_isSendable body

/-! ## Heads -/

theorem newline_not_mem_line {h : Header} (hh : h.IsSendable) : '\n' ∉ h.line := by
  simp [Header.line, hh.name.oneLine, hh.value.oneLine]

theorem newline_not_mem_statusLine {r : Response} (hr : IsField r.reason) :
    '\n' ∉ r.statusLine := by
  have hversion : '\n' ∉ version.toList := by decide
  have hcode : '\n' ∉ (toString r.code).toList := (isField_toString r.code.toNat).oneLine
  simp [Response.statusLine, hversion, hcode, hr.oneLine]

/-- No line of a head has a line break inside. -/
theorem newline_not_mem_headLines {r : Response} (hr : r.IsSendable) :
    ∀ line ∈ r.headLines, '\n' ∉ line := by
  intro line hline
  rcases List.mem_cons.mp hline with rfl | hline
  · exact newline_not_mem_statusLine hr.reason
  · obtain ⟨h, hh, rfl⟩ := List.mem_map.mp hline
    exact newline_not_mem_line (writtenHeaders_isSendable hr h hh)

/-- A written head reads back. -/
theorem read_head {r : Response} (hr : r.IsSendable) :
    Response.read r.head
      = .ok { code := r.code, reason := r.reason, headers := r.writtenHeaders } := by
  have hlines : ∀ line ∈ r.headLines ++ [[]], '\n' ∉ line := by
    intro line hline
    rcases List.mem_append.mp hline with hline | hline
    · exact newline_not_mem_headLines hr line hline
    · rw [List.mem_singleton.mp hline]
      exact List.not_mem_nil
  have hblank : isAllBlank r.statusLine = false :=
    isAllBlank_eq_false (c := 'R') List.mem_cons_self (by decide)
  rw [Response.read, toList_head, lines_joinLines hlines,
    Response.headLines, List.cons_append, Response.ofLines, hblank, if_neg Bool.false_ne_true,
    readStatus?_statusLine hr.reason, readHeaders?_lines (writtenHeaders_isSendable hr)]

/-- The declared length is that of the body. -/
theorem contentLength_written {r : Response} (hr : r.IsSendable) :
    Response.contentLength { code := r.code, reason := r.reason, headers := r.writtenHeaders }
      = .ok ((r.body.map String.utf8ByteSize).getD 0) := by
  have hnone : r.headers.find? (fun h =>
      equalsIgnoringCase h.name.toList "Content-Length".toList) = none := by
    rw [List.find?_eq_none]
    intro h hh
    rw [hr.length h hh]
    exact Bool.false_ne_true
  unfold Response.contentLength Response.header? headerValue? Response.writtenHeaders
  cases hbody : r.body with
  | none =>
    simp only [hnone]
    rfl
  | some body =>
    have hself : (lengthHeader body :: []).find? (fun h =>
        equalsIgnoringCase h.name.toList "Content-Length".toList) = some (lengthHeader body) :=
      List.find?_cons_of_pos (beq_self_eq_true _)
    have hlength : body.utf8ByteSize < UInt64.size :=
      Nat.lt_of_le_of_lt (hr.body body hbody).2 (by decide)
    simp only [List.find?_append, hnone, Option.none_or, hself, Option.map_some]
    rw [lengthHeader, readUInt64?_toString hlength]
    exact congrArg Except.ok (UInt64.toNat_ofNat_of_lt' hlength)

end MediaTransport.Rtsp
