import Mathlib.Data.List.Forall2
import MediaTransport.Proofs.Rtsp.Head

/-!
# The grammar of a response head

A head is read by its lines.  The first one is a version, a code and a reason
(`IsStatusLine`), the others up to the first empty one are names and values
(`IsHeaderLine`), and a response *is read from* lines (`Response.IsReadFrom`) when
it says just what they say.

The reader returns a response exactly when it is read from the lines of the text
(`parse_eq_ok_iff`).  Each step of the reader has its equivalence
(`readStatus?_eq_some_iff`, `readHeaders?_eq_some_iff`), and they are put together
without another look at the characters.  Texts with the same lines are read alike,
so the kinds of line ends make no difference (`SameButEnds.lines_eq`), nor does
what stands behind an empty line (`ofLines_append_nil`).
-/

namespace MediaTransport.Rtsp

open Text

/-! ## Header lines -/

/-- A name and a value around the first colon of a line. -/
inductive IsHeaderLine : List Char → Header → Prop where
  | mk {name value : List Char} (hcolon : ':' ∉ name) :
    IsHeaderLine (name ++ ':' :: value)
      ⟨String.ofList (trim name), String.ofList (trim value)⟩

/-- The lines before the first empty one. -/
def headerLines (ls : List (List Char)) : List (List Char) :=
  ls.takeWhile fun line => !line.isEmpty

theorem headerLines_cons {line : List Char} (h : line ≠ []) (rest : List (List Char)) :
    headerLines (line :: rest) = line :: headerLines rest :=
  List.takeWhile_cons_of_pos (by simp [h])

/-- The first empty line ends the headers, whatever stands behind it. -/
theorem headerLines_append_nil (ls more : List (List Char)) :
    headerLines (ls ++ [] :: more) = headerLines ls := by
  induction ls with
  | nil => rfl
  | cons line rest ih =>
    by_cases h : line = []
    · rw [h]
      rfl
    · rw [List.cons_append, headerLines_cons h, headerLines_cons h, ih]

theorem headerLines_append_of_forall {ls : List (List Char)} (h : ∀ line ∈ ls, line ≠ [])
    (more : List (List Char)) : headerLines (ls ++ [] :: more) = ls := by
  induction ls with
  | nil => rfl
  | cons line rest ih =>
    obtain ⟨hline, hrest⟩ := List.forall_mem_cons.1 h
    rw [List.cons_append, headerLines_cons hline, ih hrest]

/-- A header is read from every line with a colon. -/
theorem ofLine?_eq_some_iff {line : List Char} {h : Header} :
    Header.ofLine? line = some h ↔ IsHeaderLine line h := by
  constructor
  · intro hread
    obtain ⟨⟨name, value⟩, hcut, rfl⟩ := Option.map_eq_some_iff.1 hread
    obtain ⟨rfl, hcolon⟩ := cut?_eq_some hcut
    exact .mk hcolon
  · rintro ⟨hcolon⟩
    rw [Header.ofLine?, cut?_append hcolon]
    rfl

theorem ofLine?_eq_none_iff {line : List Char} : Header.ofLine? line = none ↔ ':' ∉ line := by
  rw [Header.ofLine?, Option.map_eq_none_iff, cut?_eq_none]

/-- All lines up to the first empty one are read. -/
theorem readHeaders?_eq_some_iff {ls : List (List Char)} {headers : List Header} :
    readHeaders? ls = some headers ↔ List.Forall₂ IsHeaderLine (headerLines ls) headers := by
  induction ls generalizing headers with
  | nil => simp [readHeaders?, headerLines, eq_comm]
  | cons line rest ih =>
    by_cases hline : line = []
    · subst hline
      simp [readHeaders?, headerLines, eq_comm]
    · have hne : ¬ line.isEmpty = true := by simp [hline]
      rw [readHeaders?, if_neg hne, headerLines_cons hline, List.forall₂_cons_left_iff]
      simp only [bind, pure, Option.bind_eq_some_iff, ofLine?_eq_some_iff, ih, Option.some.injEq]
      constructor
      · rintro ⟨h, hh, others, hothers, rfl⟩
        exact ⟨h, others, hh, hothers, rfl⟩
      · rintro ⟨h, others, hh, hothers, rfl⟩
        exact ⟨h, hh, others, hothers, rfl⟩

/-- One line without a colon spoils all headers. -/
theorem readHeaders?_eq_none_iff {ls : List (List Char)} :
    readHeaders? ls = none ↔ ∃ line ∈ headerLines ls, ':' ∉ line := by
  induction ls with
  | nil => simp [readHeaders?, headerLines]
  | cons line rest ih =>
    by_cases hline : line = []
    · subst hline
      simp [readHeaders?, headerLines]
    · have hne : ¬ line.isEmpty = true := by simp [hline]
      rw [readHeaders?, if_neg hne, headerLines_cons hline, List.exists_mem_cons_iff,
        ← ofLine?_eq_none_iff, ← ih]
      cases Header.ofLine? line <;> cases readHeaders? rest <;> simp

/-! ## Status lines -/

/-- A version, a code and a reason, with a space between them.  The reason may be missing. -/
inductive IsStatusLine : List Char → UInt16 → String → Prop where
  | bare {number numeral : List Char} {code : UInt16} (hversion : ' ' ∉ number)
    (hcode : IsDecimal numeral code.toNat) :
    IsStatusLine ("RTSP/".toList ++ number ++ ' ' :: numeral) code ""
  | worded {number numeral words : List Char} {code : UInt16} (hversion : ' ' ∉ number)
    (hcode : IsDecimal numeral code.toNat) :
    IsStatusLine ("RTSP/".toList ++ number ++ ' ' :: (numeral ++ ' ' :: words)) code
      (String.ofList (trim words))

/-- A status line is read from its texts and from no other. -/
theorem readStatus?_eq_some_iff {line : List Char} {code : UInt16} {reason : String} :
    readStatus? line = some (code, reason) ↔ IsStatusLine line code reason := by
  have hopening : ' ' ∉ "RTSP/".toList := by decide
  constructor
  · intro h
    obtain ⟨⟨version, rest⟩, hcut, h⟩ := Option.bind_eq_some_iff.1 h
    obtain ⟨number, hnumber, h⟩ := Option.bind_eq_some_iff.1 h
    obtain ⟨n, hcode, h⟩ := Option.bind_eq_some_iff.1 h
    cases h
    obtain ⟨rfl, hversion⟩ := cut?_eq_some hcut
    obtain rfl := eq_append_of_afterOpening? hnumber
    have hspace : ' ' ∉ number := fun hmem => hversion (List.mem_append_right _ hmem)
    rw [readUInt16?_eq_some_iff] at hcode
    cases hwords : cut? ' ' rest with
    | none =>
      rw [hwords] at hcode
      exact .bare hspace hcode
    | some parts =>
      obtain ⟨numeral, words⟩ := parts
      obtain ⟨rfl, -⟩ := cut?_eq_some hwords
      rw [hwords] at hcode
      exact .worded hspace hcode
  · intro h
    cases h with
    | @bare number numeral _ hversion hcode =>
      have hspace : ' ' ∉ "RTSP/".toList ++ number := List.not_mem_append hopening hversion
      have hnumeral : cut? ' ' numeral = none := cut?_eq_none.2 (hcode.not_mem rfl (by decide))
      rw [readStatus?, cut?_append hspace]
      simp only [Option.bind_eq_bind, Option.bind_some, afterOpening?_append, hnumeral,
        Option.getD_none, readUInt16?_eq_some_iff.2 hcode]
      rfl
    | @worded number numeral words _ hversion hcode =>
      have hspace : ' ' ∉ "RTSP/".toList ++ number := List.not_mem_append hopening hversion
      have hnumeral : ' ' ∉ numeral := hcode.not_mem rfl (by decide)
      rw [readStatus?, cut?_append hspace]
      simp only [Option.bind_eq_bind, Option.bind_some, afterOpening?_append,
        cut?_append hnumeral, Option.getD_some, readUInt16?_eq_some_iff.2 hcode]
      rfl

/-! ## Heads -/

/-- A response as the lines of its head say it. -/
inductive Response.IsReadFrom : Response → List (List Char) → Prop where
  | mk {status : List Char} {rest : List (List Char)} {code : UInt16} {reason : String}
    {headers : List Header} (hstatus : IsStatusLine status code reason)
    (hheaders : List.Forall₂ IsHeaderLine (headerLines rest) headers) :
    IsReadFrom { code, reason, headers } (status :: rest)

theorem Response.IsReadFrom.body {r : Response} {ls : List (List Char)} (h : r.IsReadFrom ls) :
    r.body = none := by
  cases h
  rfl

theorem Response.IsReadFrom.status {r : Response} {status : List Char} {rest : List (List Char)}
    (h : r.IsReadFrom (status :: rest)) : IsStatusLine status r.code r.reason := by
  cases h
  assumption

theorem Response.IsReadFrom.headers {r : Response} {status : List Char} {rest : List (List Char)}
    (h : r.IsReadFrom (status :: rest)) :
    List.Forall₂ IsHeaderLine (headerLines rest) r.headers := by
  cases h
  assumption

/-- A first line and further lines of which a response can be read. -/
structure CanBeRead (status : List Char) (rest : List (List Char)) : Prop where
  /-- The first line is not blank. -/
  solid : ∃ c ∈ status, isBlank c = false
  /-- It is a status line. -/
  status : ∃ code reason, IsStatusLine status code reason
  /-- Every line up to the first empty one has a colon. -/
  headers : ∀ line ∈ headerLines rest, ':' ∈ line

/-- A status line is never blank. -/
theorem IsStatusLine.solid {line : List Char} {code : UInt16} {reason : String}
    (h : IsStatusLine line code reason) : ∃ c ∈ line, isBlank c = false := by
  cases h <;> exact ⟨'R', List.mem_cons_self, by decide⟩

/-- Lines are read as the response that they spell. -/
theorem ofLines_eq_ok_iff {ls : List (List Char)} {r : Response} :
    Response.ofLines ls = .ok r ↔ r.IsReadFrom ls := by
  constructor
  · intro h
    unfold Response.ofLines at h
    split at h
    next => cases h
    next status rest =>
      split at h
      next => cases h
      next =>
        split at h
        next => cases h
        next code reason hstatus =>
          split at h
          next => cases h
          next headers hheaders =>
            cases h
            exact .mk (readStatus?_eq_some_iff.1 hstatus) (readHeaders?_eq_some_iff.1 hheaders)
  · rintro ⟨hstatus, hheaders⟩
    obtain ⟨c, hc, hsolid⟩ := hstatus.solid
    rw [Response.ofLines, isAllBlank_eq_false hc hsolid, if_neg Bool.false_ne_true,
      readStatus?_eq_some_iff.2 hstatus, readHeaders?_eq_some_iff.2 hheaders]

theorem exists_isReadFrom_iff {ls : List (List Char)} :
    (∃ r : Response, r.IsReadFrom ls) ↔
      ∃ status rest, ls = status :: rest ∧ CanBeRead status rest := by
  constructor
  · rintro ⟨_, ⟨hstatus, hheaders⟩⟩
    refine ⟨_, _, rfl, hstatus.solid, ⟨_, _, hstatus⟩, fun line hline => ?_⟩
    by_contra hcolon
    have hnone := readHeaders?_eq_none_iff.2 ⟨line, hline, hcolon⟩
    rw [readHeaders?_eq_some_iff.2 hheaders] at hnone
    cases hnone
  · rintro ⟨status, rest, rfl, -, ⟨code, reason, hstatus⟩, hcolons⟩
    cases hread : readHeaders? rest with
    | some headers => exact ⟨_, .mk hstatus (readHeaders?_eq_some_iff.1 hread)⟩
    | none =>
      obtain ⟨line, hline, hcolon⟩ := readHeaders?_eq_none_iff.1 hread
      exact absurd (hcolons line hline) hcolon

/-- What stands behind an empty line is not looked at. -/
theorem ofLines_append_nil (ls more : List (List Char)) :
    Response.ofLines (ls ++ [] :: more) = Response.ofLines (ls ++ [[]]) := by
  cases ls with
  | nil => rfl
  | cons status rest =>
    have hheaders : readHeaders? (rest ++ [] :: more) = readHeaders? (rest ++ [[]]) := by
      refine Option.ext fun headers => ?_
      rw [readHeaders?_eq_some_iff, readHeaders?_eq_some_iff, headerLines_append_nil,
        headerLines_append_nil]
    rw [List.cons_append, List.cons_append, Response.ofLines, Response.ofLines, hheaders]

theorem read_eq_ok_iff {text : String} {r : Response} :
    Response.read text = .ok r ↔ r.IsReadFrom (lines text.toList) :=
  ofLines_eq_ok_iff

/-- The same holds of a text, which is cut into lines first. -/
theorem parse_eq_ok_iff {text : String} {r : Response} :
    Response.parse text = .ok r ↔ r.IsReadFrom (lines text.toList) := by
  rw [← read_eq_ok_iff, Response.parse]
  cases Response.read text <;> simp [Except.mapError]

theorem parse_eq_error_iff {text : String} {e : Error} :
    Response.parse text = .error e ↔
      ∃ fault, Response.read text = .error fault ∧ .protocol fault = e := by
  rw [Response.parse]
  cases Response.read text <;> simp [Except.mapError]

/-! ## Looking up a header -/

/-- The first header of a name counts, in whatever case it is written. -/
theorem header?_eq_some_iff {r : Response} {name value : String} :
    r.header? name = some value ↔ ∃ before h after, r.headers = before ++ h :: after ∧
      (∀ other ∈ before, equalsIgnoringCase other.name.toList name.toList = false) ∧
      equalsIgnoringCase h.name.toList name.toList = true ∧ h.value = value := by
  rw [Response.header?, headerValue?, Option.map_eq_some_iff]
  simp only [List.find?_eq_some_iff_append, Bool.not_eq_eq_eq_not, Bool.not_true]
  constructor
  · rintro ⟨h, ⟨hname, before, after, heq, hbefore⟩, hvalue⟩
    exact ⟨before, h, after, heq, hbefore, hname, hvalue⟩
  · rintro ⟨before, h, after, heq, hbefore, hname, hvalue⟩
    exact ⟨h, ⟨hname, before, after, heq, hbefore⟩, hvalue⟩

theorem header?_eq_none_iff {r : Response} {name : String} :
    r.header? name = none ↔
      ∀ h ∈ r.headers, equalsIgnoringCase h.name.toList name.toList = false := by
  simp [Response.header?, headerValue?, List.find?_eq_none]

/-! ## The grammar -/

/-- A head is read just when it is in the grammar, and the response is what its lines say.  What
stands behind an empty line and the kinds of line ends make no difference, and a header is found
under its name in either case. -/
theorem Response.parse_headGrammar (text : String) :
    (∀ r, Response.parse text = .ok r ↔ r.IsReadFrom (lines text.toList)) ∧
    ((∃ r, Response.parse text = .ok r) ↔
      ∃ status rest, lines text.toList = status :: rest ∧ CanBeRead status rest) ∧
    (EndsInEmptyLine text.toList →
      ∀ rest, Response.parse (text ++ rest) = Response.parse text) ∧
    (∀ other : String, SameButEnds text.toList other.toList →
      Response.parse other = Response.parse text) ∧
    ∀ (r : Response) (name : String),
      (∀ value, r.header? name = some value ↔
        ∃ before h after, r.headers = before ++ h :: after ∧
          (∀ other ∈ before, equalsIgnoringCase other.name.toList name.toList = false) ∧
          equalsIgnoringCase h.name.toList name.toList = true ∧ h.value = value) ∧
      (r.header? name = none ↔
        ∀ h ∈ r.headers, equalsIgnoringCase h.name.toList name.toList = false) := by
  refine ⟨fun r => parse_eq_ok_iff, ?_, ?_, ?_, ?_⟩
  · simp only [parse_eq_ok_iff]
    exact exists_isReadFrom_iff
  · intro hends rest
    obtain ⟨ls, hls⟩ := hends.lines_append
    have hself : lines text.toList = ls ++ [[]] := by simpa using hls []
    rw [Response.parse, Response.parse, Response.read, Response.read, String.toList_append, hls,
      hself, ofLines_append_nil]
  · intro other hother
    rw [Response.parse, Response.parse, Response.read, Response.read, hother.lines_eq]
  · exact fun r name => ⟨fun value => header?_eq_some_iff, header?_eq_none_iff⟩

/-- A head with line ends of both kinds, and a length under another name with a sign. -/
def mixedHead : String := "RTSP/1.0 404\ncontent-length: +2\r\n\n"

/-- The mixed head with every line end of the other kind. -/
def swappedHead : String := "RTSP/1.0 404\r\ncontent-length: +2\n\r\n"

/-- What the mixed head says. -/
def mixed : Response := { code := 404, reason := "", headers := [⟨"content-length", "+2"⟩] }

theorem Response.parse_headGrammar_mixed :
    EndsInEmptyLine mixedHead.toList ∧ SameButEnds mixedHead.toList swappedHead.toList ∧
    Response.parse (mixedHead ++ "no header") = .ok mixed ∧
    Response.parse swappedHead = .ok mixed ∧ mixed.header? "Content-Length" = some "+2" := by
  have hread : Response.parse mixedHead = .ok mixed := rfl
  have hends : EndsInEmptyLine mixedHead.toList :=
    ⟨"RTSP/1.0 404\ncontent-length: +2\r\n".toList, ['\n'], .inr (by decide), .inl rfl, rfl⟩
  have hsame : SameButEnds
      ("RTSP/1.0 404".toList ++ '\n' :: ("content-length: +2".toList ++ ['\r', '\n', '\n']))
      ("RTSP/1.0 404".toList ++ '\r' :: '\n' ::
        ("content-length: +2".toList ++ ['\n', '\r', '\n'])) :=
    .append_left (by decide) (.added (.append_left (by decide) (.dropped (.added .nil))))
  obtain ⟨-, -, hbehind, hkinds, hheader⟩ := Response.parse_headGrammar mixedHead
  refine ⟨hends, hsame, ?_, ?_, ?_⟩
  · rw [hbehind hends, hread]
  · rw [hkinds swappedHead hsame, hread]
  · exact ((hheader mixed "Content-Length").1 "+2").2
      ⟨[], ⟨"content-length", "+2"⟩, [], rfl, List.forall_mem_nil _, by decide, rfl⟩

end MediaTransport.Rtsp
