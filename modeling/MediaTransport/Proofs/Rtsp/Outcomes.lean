import MediaTransport.Proofs.Rtsp.Framing
import MediaTransport.Proofs.Rtsp.Grammar

/-!
# What comes of the bytes of a response

Bytes that start neither with a line end nor with a frame are those of a response,
whole or not.  `Outcome` says what comes of them and what is left, one constructor for
each reason to give up and one for the response, and `takeMessage_outcome` that
there is always one outcome and that it is the one taken.

The head is found twice, by bytes when it is taken (`IsHead`) and by lines when it is
read (`headerLines`).  That both mean the same head rests on UTF-8 writing a
newline and a carriage return as single bytes that stand in no other character
(`exists_line_of_flatMap`), so the lines of the text are those of the bytes
(`IsHead.lines_eq`) and no header is left out.
-/

namespace MediaTransport.Rtsp

open Text

/-! ## The lines of a head -/

/-- The bytes of a line before its newline, and those of the lines behind it. -/
theorem exists_line_of_flatMap {text : List Char} {content rest : List UInt8}
    (hcontent : lineFeed ∉ content)
    (h : text.flatMap String.utf8EncodeChar = content ++ lineFeed :: rest) :
    ∃ line more, text = line ++ '\n' :: more ∧ '\n' ∉ line ∧
      line.flatMap String.utf8EncodeChar = content ∧
      more.flatMap String.utf8EncodeChar = rest := by
  have hmem : '\n' ∈ text := by
    by_contra hnot
    refine lineFeed_not_mem hnot ?_
    simp [h]
  obtain ⟨line, more, rfl, hline⟩ := List.eq_append_cons_of_mem hmem
  have hbytes : line.flatMap String.utf8EncodeChar
      ++ lineFeed :: more.flatMap String.utf8EncodeChar = content ++ lineFeed :: rest := by
    rw [← h, List.flatMap_append, List.flatMap_cons]
    rfl
  have hsplit := congrArg (List.splitOn lineFeed) hbytes
  rw [List.splitOn_append_cons_self_of_not_mem (lineFeed_not_mem hline),
    List.splitOn_append_cons_self_of_not_mem hcontent] at hsplit
  obtain ⟨hfirst, -⟩ := List.cons.inj hsplit
  rw [hfirst, List.append_cancel_left_eq] at hbytes
  exact ⟨line, more, rfl, hline, hfirst, (List.cons.inj hbytes).2⟩

/-- The lines of a head are not empty, up to the one that ends it. -/
theorem IsHead.lines_eq {head : List UInt8} (h : IsHead head) {text : List Char}
    (htext : text.flatMap String.utf8EncodeChar = head) :
    ∃ ls, lines text = ls ++ [[]] ∧ ∀ line ∈ ls, line ≠ [] := by
  induction h generalizing text with
  | @last content hempty =>
    have hcontent : lineFeed ∉ content := by
      rcases hempty with rfl | rfl <;> decide
    obtain ⟨line, more, rfl, hline, hfirst, hrest⟩ := exists_line_of_flatMap hcontent htext
    have hblank : withoutReturn line = [] := by
      rcases hempty with rfl | rfl
      · rw [Utf8.eq_of_flatMap_eq (b := []) hfirst]
        rfl
      · rw [Utf8.eq_of_flatMap_eq (b := ['\r']) hfirst]
        rfl
    refine ⟨[], ?_, List.forall_mem_nil _⟩
    rw [lines_newline hline, hblank, Utf8.eq_of_flatMap_eq (b := []) hrest]
    rfl
  | @line content _ hcontent hempty _ ih =>
    obtain ⟨line, more, rfl, hline, rfl, hrest⟩ := exists_line_of_flatMap hcontent htext
    obtain ⟨ls, hls, hne⟩ := ih hrest
    refine ⟨withoutReturn line :: ls, by rw [lines_newline hline, hls, List.cons_append], ?_⟩
    refine List.forall_mem_cons.2 ⟨fun hnil => hempty ?_, hne⟩
    rcases eq_of_withoutReturn_eq_nil hnil with rfl | rfl
    · exact .inl rfl
    · exact .inr rfl

/-! ## Responses -/

/-- The length that the first `Content-Length` header declares.  Without one it is nothing. -/
def Response.Declares (r : Response) (length : ℕ) : Prop :=
  match r.header? "Content-Length" with
  | none => length = 0
  | some value => IsDecimal value.toList length

/-- A length is read as it is declared, if it fits in a machine word. -/
theorem contentLength_eq_ok_iff {r : Response} {length : ℕ} :
    r.contentLength = .ok length ↔ r.Declares length ∧ length < UInt64.size := by
  unfold Response.contentLength Response.Declares
  cases r.header? "Content-Length" with
  | none =>
    simp only [Except.ok.injEq]
    constructor
    · rintro rfl
      exact ⟨rfl, by decide⟩
    · exact fun h => h.1.symm
  | some value =>
    simp only
    constructor
    · intro h
      split at h
      next n hread =>
        cases h
        exact ⟨readUInt64?_eq_some_iff.1 hread, n.toNat_lt_size⟩
      next => cases h
    · rintro ⟨hdecimal, hlt⟩
      have hnat : (UInt64.ofNat length).toNat = length := UInt64.toNat_ofNat_of_lt' hlt
      rw [readUInt64?_eq_some_iff.2 (hnat.symm ▸ hdecimal)]
      exact congrArg Except.ok hnat

theorem contentLength_eq_error {r : Response} {fault : ProtocolFault}
    (h : r.contentLength = .error fault) : fault = .invalidContentLength := by
  unfold Response.contentLength at h
  split at h
  next => cases h
  next =>
    split at h
    next => cases h
    next =>
      cases h
      rfl

/-! ## Outcomes -/

/-- What comes of bytes that start with a response, and what is left of them. -/
inductive Outcome (bytes : List UInt8) : Except ProtocolFault Response → List UInt8 → Prop where
  /-- The connection closes before the head ends. -/
  | cutOff (h : ¬∃ head rest, HasHead bytes head rest) (hlength : bytes.length < headLimit) :
    Outcome bytes (.error .connectionClosed) []
  /-- The head does not end within the limit. -/
  | tooLarge (h : ¬∃ head rest, HasHead bytes head rest) (hlength : headLimit ≤ bytes.length) :
    Outcome bytes (.error .headTooLarge) (bytes.drop headLimit)
  /-- The head is not the bytes of a text. -/
  | notText {head rest : List UInt8} (h : HasHead bytes head rest)
    (htext : ¬∃ text, Utf8.encode text = head) : Outcome bytes (.error .invalidEncoding) rest
  /-- The head cannot be read. -/
  | refused {text : String} {rest : List UInt8} {fault : ProtocolFault}
    (h : HasHead bytes (Utf8.encode text) rest)
    (hread : Response.parse text = .error (.protocol fault)) : Outcome bytes (.error fault) rest
  /-- The head declares no length within the limit. -/
  | badLength {text : String} {rest : List UInt8} {r : Response}
    (h : HasHead bytes (Utf8.encode text) rest) (hread : Response.parse text = .ok r)
    (hlength : ¬∃ length ≤ bodyLimit, r.Declares length) :
    Outcome bytes (.error .invalidContentLength) rest
  /-- The connection closes before the body ends. -/
  | cutBody {text : String} {rest : List UInt8} {r : Response} {length : ℕ}
    (h : HasHead bytes (Utf8.encode text) rest) (hread : Response.parse text = .ok r)
    (hlength : r.Declares length) (hlimit : length ≤ bodyLimit) (hrest : rest.length < length) :
    Outcome bytes (.error .connectionClosed) []
  /-- There is a response. -/
  | taken {text : String} {body rest : List UInt8} {r : Response}
    (h : HasHead bytes (Utf8.encode text) (body ++ rest)) (hread : Response.parse text = .ok r)
    (hlength : r.Declares body.length) (hlimit : body.length ≤ bodyLimit) :
    Outcome bytes
      (.ok { r with body := if body = [] then none else some (Utf8.decodeLossy body) }) rest

theorem read_of_parse {text : String} {r : Response} (h : Response.parse text = .ok r) :
    Response.read text = .ok r :=
  read_eq_ok_iff.2 (parse_eq_ok_iff.1 h)

theorem readHead_refused {text : String} {fault : ProtocolFault}
    (h : Response.parse text = .error (.protocol fault)) :
    readHead (Utf8.encode text) = .error fault := by
  obtain ⟨_, hread, hfault⟩ := parse_eq_error_iff.1 h
  cases hfault
  rw [readHead, Utf8.decode?_encode]
  simp only [bind, Except.bind, hread]

theorem readHead_of_declares {text : String} {r : Response} {length : ℕ}
    (hread : Response.parse text = .ok r) (hlength : r.Declares length)
    (hlimit : length ≤ bodyLimit) : readHead (Utf8.encode text) = .ok (r, length) := by
  have hsize : length < UInt64.size := Nat.lt_of_le_of_lt hlimit (by decide)
  rw [readHead, Utf8.decode?_encode]
  simp only [bind, Except.bind, read_of_parse hread, contentLength_eq_ok_iff.2 ⟨hlength, hsize⟩,
    if_neg (Nat.not_lt.2 hlimit)]
  rfl

/-- A length that cannot be read, or is above the limit, is refused. -/
theorem readHead_of_not_declares {text : String} {r : Response}
    (hread : Response.parse text = .ok r) (hlength : ¬∃ length ≤ bodyLimit, r.Declares length) :
    readHead (Utf8.encode text) = .error .invalidContentLength := by
  rw [readHead, Utf8.decode?_encode]
  simp only [bind, Except.bind, read_of_parse hread]
  cases hcontent : r.contentLength with
  | error fault => rw [contentLength_eq_error hcontent]
  | ok length =>
    have hlimit : length > bodyLimit := by
      by_contra hle
      exact hlength ⟨length, Nat.not_lt.1 hle, (contentLength_eq_ok_iff.1 hcontent).1⟩
    simp only [if_pos hlimit]
    rfl

theorem readHead_of_not_text {head : List UInt8} (h : ¬∃ text, Utf8.encode text = head) :
    readHead head = .error .invalidEncoding := by
  have hnone : Utf8.decode? head = none :=
    Option.eq_none_iff_forall_ne_some.2 fun text htext =>
      h ⟨text, Utf8.decode?_eq_some_iff.1 htext⟩
  rw [readHead, hnone]
  rfl

/-- Every outcome is the one taken. -/
theorem Outcome.takeResponse {bytes rest : List UInt8} {result : Except ProtocolFault Response}
    (h : Outcome bytes result rest) : takeResponse bytes = (result, rest) := by
  unfold Rtsp.takeResponse
  cases h with
  | cutOff h hlength => rw [takeHead_of_not_hasHead h, if_pos hlength]
  | tooLarge h hlength => rw [takeHead_of_not_hasHead h, if_neg (Nat.not_lt.2 hlength)]
  | notText h htext => simp only [h.takeHead, readHead_of_not_text htext]
  | refused h hread => simp only [h.takeHead, readHead_refused hread]
  | badLength h hread hlength => simp only [h.takeHead, readHead_of_not_declares hread hlength]
  | @cutBody text rest r length h hread hlength hlimit hrest =>
    obtain ⟨n, rfl⟩ : ∃ n, length = n + 1 := Nat.exists_eq_succ_of_ne_zero (by omega)
    simp only [h.takeHead, readHead_of_declares hread hlength hlimit, takeExactly, if_pos hrest]
  | @taken text body rest r h hread hlength hlimit =>
    have hhead := readHead_of_declares hread hlength hlimit
    cases body with
    | nil =>
      have hbody : { r with body := none } = r := by rw [← (parse_eq_ok_iff.1 hread).body]
      simp only [h.takeHead, hhead, List.length_nil, List.nil_append, if_pos, hbody]
    | cons b body =>
      have htake := takeExactly_append (b :: body) rest
      rw [List.length_cons] at hhead htake
      simp only [h.takeHead, hhead, htake, if_neg (List.cons_ne_nil b body)]

/-- There is an outcome for every stream. -/
theorem exists_outcome (bytes : List UInt8) : ∃ result rest, Outcome bytes result rest := by
  by_cases hhead : ∃ head rest, HasHead bytes head rest
  · obtain ⟨head, rest, hhead⟩ := hhead
    by_cases htext : ∃ text, Utf8.encode text = head
    · obtain ⟨text, rfl⟩ := htext
      cases hread : Response.parse text with
      | error e =>
        obtain ⟨_, -, rfl⟩ := parse_eq_error_iff.1 hread
        exact ⟨_, _, .refused hhead hread⟩
      | ok r =>
        by_cases hlength : ∃ length ≤ bodyLimit, r.Declares length
        · obtain ⟨length, hlimit, hlength⟩ := hlength
          by_cases hrest : rest.length < length
          · exact ⟨_, _, .cutBody hhead hread hlength hlimit hrest⟩
          · have hbody : (rest.take length).length = length :=
              List.length_take_of_le (Nat.not_lt.1 hrest)
            rw [← List.take_append_drop length rest] at hhead
            exact ⟨_, _, .taken hhead hread (hbody.symm ▸ hlength) (hbody.symm ▸ hlimit)⟩
        · exact ⟨_, _, .badLength hhead hread hlength⟩
    · exact ⟨_, _, .notText hhead htext⟩
  · by_cases hlength : bytes.length < headLimit
    · exact ⟨_, _, .cutOff hhead hlength⟩
    · exact ⟨_, _, .tooLarge hhead (Nat.not_lt.1 hlength)⟩

theorem takeMessage_of_head? {bytes : List UInt8}
    (hfirst : ∀ b ∈ bytes.head?, ¬IsLineEnd b ∧ b ≠ frameStart) :
    takeMessage bytes = ((takeResponse bytes).1.map .response, (takeResponse bytes).2) := by
  cases bytes with
  | nil => rfl
  | cons b rest =>
    obtain ⟨hend, hframe⟩ := hfirst b rfl
    have hskip : ¬(b = carriageReturn ∨ b = lineFeed) := hend
    rw [takeMessage, if_neg hskip, if_neg hframe]

/-- Bytes that start with a response have an outcome, and it is the one that is taken.  A head that
is read says a header in every line between its first one and its empty one. -/
theorem takeMessage_outcome {bytes : List UInt8}
    (hfirst : ∀ b ∈ bytes.head?, ¬IsLineEnd b ∧ b ≠ frameStart) :
    (∃ result rest, Outcome bytes result rest) ∧
    (∀ result rest, Outcome bytes result rest ↔
      takeMessage bytes = (result.map .response, rest)) ∧
    ∀ text rest r, HasHead bytes (Utf8.encode text) rest → Response.parse text = .ok r →
      ∃ status ls, lines text.toList = status :: ls ++ [[]] ∧ (∀ line ∈ ls, line ≠ []) ∧
        List.Forall₂ IsHeaderLine ls r.headers := by
  have hmessage := takeMessage_of_head? hfirst
  refine ⟨exists_outcome bytes, fun result rest => ⟨?_, ?_⟩, ?_⟩
  · intro h
    rw [hmessage, h.takeResponse]
  · intro h
    obtain ⟨result', rest', hout⟩ := exists_outcome bytes
    rw [hmessage, hout.takeResponse, Prod.mk.injEq] at h
    obtain ⟨hresult, rfl⟩ := h
    have hsame : result' = result := by
      cases result' <;> cases result <;> simp_all [Except.map]
    rwa [← hsame]
  · intro text rest r hhead hparse
    obtain ⟨ls, hls, hne⟩ := hhead.isHead.lines_eq (Utf8.encode_eq text).symm
    have hread := parse_eq_ok_iff.1 hparse
    rw [hls] at hread
    cases ls with
    | nil =>
      obtain ⟨c, hc, -⟩ := hread.status.solid
      cases hc
    | cons status ls =>
      have hrest := (List.forall_mem_cons.1 hne).2
      rw [List.cons_append] at hread
      have hheaders := hread.headers
      rw [headerLines_append_of_forall hrest] at hheaders
      exact ⟨status, ls, hls, hrest, hheaders⟩

/-- A response whose body is not a text, with a frame behind it. -/
theorem takeMessage_outcome_mixed :
    (∀ b ∈ (Utf8.encode mixedHead ++ [0xFF, 0x41, 0x24]).head?, ¬IsLineEnd b ∧ b ≠ frameStart) ∧
    takeMessage (Utf8.encode mixedHead ++ [0xFF, 0x41, 0x24])
      = (.ok (.response { mixed with body := some "\uFFFDA" }), [0x24]) := by
  have hfirst : ∀ b ∈ (Utf8.encode mixedHead ++ [0xFF, 0x41, 0x24]).head?,
      ¬IsLineEnd b ∧ b ≠ frameStart := by
    rintro b ⟨⟩
    decide
  have hhead : HasHead (Utf8.encode mixedHead ++ [0xFF, 0x41, 0x24]) (Utf8.encode mixedHead)
      ([0xFF, 0x41] ++ [0x24]) := ⟨rfl, by decide, by decide⟩
  have hdigits : IsDigits ['2'] 2 := ⟨by decide, by simp, rfl⟩
  have hlength : mixed.Declares 2 := .signed hdigits
  have htaken := Outcome.taken hhead rfl hlength (by decide)
  exact ⟨hfirst, ((takeMessage_outcome hfirst).2.1 _ _).1 htaken⟩

end MediaTransport.Rtsp
