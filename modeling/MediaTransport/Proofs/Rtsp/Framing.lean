import MediaTransport.Proofs.Bytes
import MediaTransport.Proofs.Rtsp.Head
import MediaTransport.Proofs.Text.Utf8

/-!
# Framing

Messages that are written one after another on a control connection, with line
ends strewn between them, are taken off one by one (`takeMessages_stream`).

Everything rests on taking exactly the bytes of one message.  For a frame its
length says how many there are.  A *head* (`IsHead`) goes up to its first empty
line, and the head that some bytes have (`HasHead`) is the one that is taken,
whatever follows.  Every line of a written head has at least two bytes before its
end, so what is written is a head (`isHead_lines`).  The body has as many bytes as
the head says.

A frame has sixteen bits for its length.  A longer payload is announced too short
(`Frame.announced`), and what is taken of it is its first bytes; the others are left
as if they were the next messages.  No other bytes would do: whatever is taken for a
frame has a length that fits (`length_le_of_takeMessage`).
-/

namespace MediaTransport.Rtsp

open Text

/-! ## The end of a head -/

/-- A line that is no longer empty goes on to the next newline. -/
theorem headLength?_text (count : ℕ) {content : List UInt8} (h : lineFeed ∉ content)
    (rest : List UInt8) : headLength? .text count (content ++ lineFeed :: rest)
      = headLength? .empty (count + content.length + 1) rest := by
  induction content generalizing count with
  | nil => rfl
  | cons b content ih =>
    obtain ⟨hb, hcontent⟩ := List.ne_and_not_mem_of_not_mem_cons h
    have hpush : LineState.push .text b = .text := rfl
    rw [List.cons_append, headLength?, if_neg (Ne.symm hb), hpush, ih (count + 1) hcontent,
      List.length_cons]
    congr 1
    omega

/-- A line of two bytes is not empty. -/
theorem headLength?_line (count : ℕ) {b c : UInt8} {content : List UInt8}
    (h : lineFeed ∉ b :: c :: content) (rest : List UInt8) :
    headLength? .empty count (b :: c :: content ++ lineFeed :: rest)
      = headLength? .empty (count + (b :: c :: content).length + 1) rest := by
  obtain ⟨hb, h⟩ := List.ne_and_not_mem_of_not_mem_cons h
  obtain ⟨hc, h⟩ := List.ne_and_not_mem_of_not_mem_cons h
  have hpush : (LineState.push .empty b).push c = .text := by
    by_cases hreturn : b = carriageReturn <;> simp [LineState.push, hreturn]
  rw [List.cons_append, List.cons_append, headLength?, if_neg (Ne.symm hb), headLength?,
    if_neg (Ne.symm hc), hpush, headLength?_text _ h]
  congr 1
  simp only [List.length_cons]
  omega

/-- Lines that are not empty, up to one that is.  A line ends in a newline, and nothing but a
carriage return may stand in an empty one. -/
inductive IsHead : List UInt8 → Prop where
  | last {content : List UInt8} (hempty : content = [] ∨ content = [carriageReturn]) :
    IsHead (content ++ [lineFeed])
  | line {content rest : List UInt8} (hcontent : lineFeed ∉ content)
    (hempty : ¬(content = [] ∨ content = [carriageReturn])) (hrest : IsHead rest) :
    IsHead (content ++ lineFeed :: rest)

theorem headLength?_last (count : ℕ) {content : List UInt8}
    (h : content = [] ∨ content = [carriageReturn]) (rest : List UInt8) :
    headLength? .empty count (content ++ lineFeed :: rest) = some (count + content.length + 1) := by
  rcases h with rfl | rfl <;> rfl

theorem headLength?_content (count : ℕ) {content : List UInt8} (h : lineFeed ∉ content)
    (hempty : ¬(content = [] ∨ content = [carriageReturn])) (rest : List UInt8) :
    headLength? .empty count (content ++ lineFeed :: rest)
      = headLength? .empty (count + content.length + 1) rest := by
  obtain ⟨hnil, hreturn⟩ := not_or.1 hempty
  match content with
  | [] => exact absurd rfl hnil
  | [b] =>
    have hb : b ≠ lineFeed := fun heq => h (heq ▸ List.mem_singleton_self b)
    have hpush : LineState.push .empty b = .text :=
      if_neg fun heq => hreturn (congrArg (fun c => [c]) heq)
    have hrest := headLength?_text (count + 1) (List.not_mem_nil (a := lineFeed)) rest
    rw [List.singleton_append, headLength?, if_neg hb, hpush]
    exact hrest
  | b :: c :: content => exact headLength?_line count h rest

theorem headLength?_of_not_mem (state : LineState) (count : ℕ) {bytes : List UInt8}
    (h : lineFeed ∉ bytes) : headLength? state count bytes = none := by
  induction bytes generalizing state count with
  | nil => rfl
  | cons b rest ih =>
    obtain ⟨hb, hrest⟩ := List.ne_and_not_mem_of_not_mem_cons h
    rw [headLength?, if_neg (Ne.symm hb), ih _ _ hrest]

/-- The end of a head is found whatever follows. -/
theorem IsHead.headLength? {head : List UInt8} (h : IsHead head) (count : ℕ)
    (rest : List UInt8) :
    Rtsp.headLength? .empty count (head ++ rest) = some (count + head.length) := by
  induction h generalizing count with
  | last hempty =>
    rw [List.append_assoc, List.singleton_append, headLength?_last _ hempty, List.length_append,
      List.length_singleton, Nat.add_assoc]
  | line hcontent hempty _ ih =>
    rw [List.append_assoc, List.cons_append, headLength?_content _ hcontent hempty, ih,
      List.length_append, List.length_cons]
    congr 1
    omega

theorem exists_isHead_of_headLength? {count n : ℕ} {bytes : List UInt8}
    (h : headLength? .empty count bytes = some n) :
    ∃ head rest, bytes = head ++ rest ∧ IsHead head ∧ n = count + head.length := by
  induction hsize : bytes.length using Nat.strongRecOn generalizing bytes count with
  | ind size ih =>
    by_cases hmem : lineFeed ∈ bytes
    · obtain ⟨content, rest, rfl, hcontent⟩ := List.eq_append_cons_of_mem hmem
      by_cases hempty : content = [] ∨ content = [carriageReturn]
      · rw [headLength?_last _ hempty] at h
        cases h
        exact ⟨content ++ [lineFeed], rest, by simp, .last hempty, by simp [Nat.add_assoc]⟩
      · rw [headLength?_content _ hcontent hempty] at h
        have hsmaller : rest.length < size := by
          rw [← hsize, List.length_append, List.length_cons]
          omega
        obtain ⟨head, rest, rfl, hhead, rfl⟩ := ih _ hsmaller h rfl
        refine ⟨content ++ lineFeed :: head, rest, by simp, .line hcontent hempty hhead, ?_⟩
        rw [List.length_append, List.length_cons]
        omega
    · rw [headLength?_of_not_mem _ _ hmem] at h
      cases h

theorem isHead_iff {bytes : List UInt8} :
    IsHead bytes ↔ headLength? .empty 0 bytes = some bytes.length := by
  constructor
  · intro h
    have hlength := h.headLength? 0 []
    rwa [List.append_nil, Nat.zero_add] at hlength
  · intro h
    obtain ⟨head, rest, rfl, hhead, hlength⟩ := exists_isHead_of_headLength? h
    have hrest : rest = [] := by
      rw [List.length_append] at hlength
      exact List.eq_nil_of_length_eq_zero (by omega)
    rwa [hrest, List.append_nil]

instance (bytes : List UInt8) : Decidable (IsHead bytes) :=
  decidable_of_iff _ isHead_iff.symm

/-- The head that some bytes start with, within the limit. -/
structure HasHead (bytes head rest : List UInt8) : Prop where
  /-- The head comes first. -/
  split : bytes = head ++ rest
  /-- It ends with its first empty line. -/
  isHead : IsHead head
  /-- It is within the limit. -/
  limit : head.length ≤ headLimit

theorem HasHead.takeHead {bytes head rest : List UInt8} (h : HasHead bytes head rest) :
    takeHead bytes = (.ok head, rest) := by
  rw [h.split, Rtsp.takeHead, List.take_append, List.take_of_length_le h.limit,
    h.isHead.headLength?, Nat.zero_add]
  simp

theorem takeHead_of_not_hasHead {bytes : List UInt8} (h : ¬∃ head rest, HasHead bytes head rest) :
    takeHead bytes = if bytes.length < headLimit then (.error .connectionClosed, [])
      else (.error .headTooLarge, bytes.drop headLimit) := by
  rw [takeHead]
  split
  next n hlength =>
    obtain ⟨head, rest, hsplit, hhead, -⟩ := exists_isHead_of_headLength? hlength
    refine absurd ⟨head, rest ++ bytes.drop headLimit, ?_, hhead, ?_⟩ h
    · rw [← List.append_assoc, ← hsplit, List.take_append_drop]
    · have htake := congrArg List.length hsplit
      rw [List.length_take, List.length_append] at htake
      omega
  next => rfl

/-! ## Written heads -/

/-- The bytes of a line with its end. -/
def lineBytes (line : List Char) : List UInt8 :=
  line.flatMap String.utf8EncodeChar ++ [carriageReturn, lineFeed]

theorem lineFeed_not_mem {line : List Char} (h : '\n' ∉ line) :
    lineFeed ∉ line.flatMap String.utf8EncodeChar := by
  intro hmem
  obtain ⟨c, hc, hbyte⟩ := List.mem_flatMap.mp hmem
  have hchar : c = '\n' := Utf8.eq_ofNat_of_mem (by decide) hbyte
  exact h (hchar ▸ hc)

/-- Lines that are not empty are a head when an empty one ends them. -/
theorem isHead_lines {ls : List (List Char)} (h : ∀ line ∈ ls, line ≠ [] ∧ '\n' ∉ line) :
    IsHead (ls.flatMap lineBytes ++ [carriageReturn, lineFeed]) := by
  induction ls with
  | nil => exact .last (.inr rfl)
  | cons line ls ih =>
    obtain ⟨hne, hline⟩ := h line List.mem_cons_self
    have hrest := ih fun other hother => h other (List.mem_cons_of_mem line hother)
    have hcontent : lineFeed ∉ line.flatMap String.utf8EncodeChar ++ [carriageReturn] :=
      List.not_mem_append (lineFeed_not_mem hline) (by decide)
    have hempty : ¬(line.flatMap String.utf8EncodeChar ++ [carriageReturn] = [] ∨
        line.flatMap String.utf8EncodeChar ++ [carriageReturn] = [carriageReturn]) := by
      rintro (hnil | hreturn)
      · exact List.append_ne_nil_of_right_ne_nil _ (List.cons_ne_nil _ _) hnil
      · exact hne (Utf8.eq_of_flatMap_eq (b := []) (List.append_left_eq_self.1 hreturn))
    have hbytes : (line :: ls).flatMap lineBytes ++ [carriageReturn, lineFeed]
        = line.flatMap String.utf8EncodeChar ++ [carriageReturn]
          ++ lineFeed :: (ls.flatMap lineBytes ++ [carriageReturn, lineFeed]) := by
      simp [lineBytes]
    rw [hbytes]
    exact .line hcontent hempty hrest

/-! ## Responses -/

theorem takeExactly_append (bytes rest : List UInt8) :
    takeExactly bytes.length (bytes ++ rest) = (.ok bytes, rest) := by
  simp [takeExactly]

theorem encode_head (r : Response) :
    Utf8.encode r.head = r.headLines.flatMap lineBytes ++ [carriageReturn, lineFeed] := by
  have hline : ∀ line : List Char,
      (line ++ ['\r', '\n']).flatMap String.utf8EncodeChar = lineBytes line := by
    intro line
    rw [List.flatMap_append]
    rfl
  rw [Utf8.encode_eq, toList_head, joinLines, List.flatMap_assoc]
  simp only [hline, List.flatMap_append, List.flatMap_cons, List.flatMap_nil]
  rfl

theorem headLines_ne_nil (r : Response) : ∀ line ∈ r.headLines, line ≠ [] := by
  intro line hline
  rcases List.mem_cons.mp hline with rfl | hline
  · exact List.cons_ne_nil _ _
  · obtain ⟨h, -, rfl⟩ := List.mem_map.mp hline
    simp [Header.line]

/-- The head that is taken is the head that was written. -/
theorem takeHead_head {r : Response} (hr : r.IsSendable) (rest : List UInt8) :
    takeHead (Utf8.encode r.head ++ rest) = (.ok (Utf8.encode r.head), rest) := by
  have hhead : IsHead (Utf8.encode r.head) := by
    rw [encode_head]
    exact isHead_lines fun line hline =>
      ⟨headLines_ne_nil r line hline, newline_not_mem_headLines hr line hline⟩
  have hlimit : (Utf8.encode r.head).length ≤ headLimit := by
    rw [Utf8.length_encode]
    exact hr.head
  exact HasHead.takeHead ⟨rfl, hhead, hlimit⟩

theorem readHead_head {r : Response} (hr : r.IsSendable) :
    readHead (Utf8.encode r.head)
      = .ok ({ code := r.code, reason := r.reason, headers := r.writtenHeaders },
        (r.body.map String.utf8ByteSize).getD 0) := by
  have hlimit : ¬(r.body.map String.utf8ByteSize).getD 0 > bodyLimit := by
    cases hbody : r.body with
    | none => exact Nat.not_lt_zero _
    | some body => exact Nat.not_lt.mpr (hr.body body hbody).2
  rw [readHead, Utf8.decode?_encode]
  simp only [bind, Except.bind, read_head hr, contentLength_written hr, if_neg hlimit]
  rfl

/-- A response starts neither like a frame nor like a line end. -/
theorem exists_encode_render (r : Response) : ∃ bytes, Utf8.encode r.render = 0x52 :: bytes := by
  rw [render_eq_head, Utf8.encode_append, encode_head]
  exact ⟨_, rfl⟩

/-- A response is taken off with its body. -/
theorem takeResponse_render {r : Response} (hr : r.IsSendable) (rest : List UInt8) :
    takeResponse (Utf8.encode r.render ++ rest)
      = (.ok { r with headers := r.writtenHeaders }, rest) := by
  have hread := readHead_head hr
  rw [render_eq_head, Utf8.encode_append, List.append_assoc]
  unfold takeResponse
  rw [takeHead_head hr]
  cases hbody : r.body with
  | none =>
    rw [hbody] at hread
    simp only [hread, Option.map_none, Option.getD_none]
    rfl
  | some body =>
    obtain ⟨n, hn⟩ : ∃ n, body.utf8ByteSize = n + 1 :=
      Nat.exists_eq_succ_of_ne_zero (Nat.ne_of_gt (hr.body body hbody).1)
    rw [hbody] at hread
    have htake := takeExactly_append (Utf8.encode body) rest
    rw [Utf8.length_encode, hn] at htake
    simp only [hread, Option.map_some, Option.getD_some, hn, htake, Utf8.decodeLossy_encode]

/-! ## Frames -/

/-- The length that a written frame announces in its sixteen bits. -/
def Frame.announced (f : Frame) : ℕ :=
  f.payload.length % 65536

/-- As many bytes of a frame are taken off as it announces. -/
theorem takeMessage_render_frame (f : Frame) (rest : List UInt8) :
    takeMessage (f.render ++ rest)
      = (.ok (.frame ⟨f.channel, f.payload.take f.announced⟩),
        f.payload.drop f.announced ++ rest) := by
  have hlength : (UInt16.ofNat f.payload.length).toNat = f.announced := UInt16.toNat_ofNat'
  have hle : f.announced ≤ f.payload.length := Nat.mod_le _ _
  have hrender : f.render ++ rest = frameStart :: f.channel
      :: (UInt16.ofNat f.payload.length >>> 8).toUInt8
      :: (UInt16.ofNat f.payload.length).toUInt8
      :: (f.payload.take f.announced ++ (f.payload.drop f.announced ++ rest)) := by
    rw [← List.append_assoc, List.take_append_drop]
    rfl
  have htake := takeExactly_append (f.payload.take f.announced) (f.payload.drop f.announced ++ rest)
  rw [List.length_take_of_le hle] at htake
  have hstart : ¬(frameStart = carriageReturn ∨ frameStart = lineFeed) := by decide
  rw [hrender, takeMessage, if_neg hstart, if_pos rfl, takeFrame, Bytes.toUInt16_ofUInt16, hlength,
    htake]
  rfl

theorem length_le_of_takeFrame {bytes rest : List UInt8} {f : Frame}
    (h : takeFrame bytes = (.ok f, rest)) : f.payload.length ≤ 65535 := by
  unfold takeFrame takeExactly at h
  split at h
  next channel high low more =>
    have hlength := (Bytes.toUInt16 high low).toNat_lt
    split at h
    next => cases h
    next hpayload =>
      split at hpayload
      next => cases hpayload
      next =>
        cases hpayload
        cases h
        have htake := List.length_take_le (Bytes.toUInt16 high low).toNat more
        exact htake.trans (Nat.le_of_lt_succ hlength)
  next => cases h

theorem length_le_of_takeMessage {bytes rest : List UInt8} {f : Frame}
    (h : takeMessage bytes = (.ok (.frame f), rest)) : f.payload.length ≤ 65535 := by
  induction bytes with
  | nil => cases h
  | cons b more ih =>
    rw [takeMessage] at h
    split at h
    next => exact ih h
    next =>
      split at h
      next =>
        cases htake : takeFrame (b :: more) with
        | mk taken left =>
          rw [htake] at h
          cases taken with
          | error fault => cases h
          | ok g =>
            cases h
            exact length_le_of_takeFrame htake
      next =>
        cases htake : takeResponse (b :: more) with
        | mk taken left =>
          rw [htake] at h
          cases taken <;> cases h

/-- A frame comes back as it was just when its length fits. -/
theorem takeMessage_render_frame_iff {f : Frame} {rest : List UInt8} :
    takeMessage (f.render ++ rest) = (.ok (.frame f), rest) ↔ f.payload.length ≤ 65535 := by
  constructor
  · exact length_le_of_takeMessage
  · intro h
    have hannounced : f.announced = f.payload.length := Nat.mod_eq_of_lt (Nat.lt_succ_of_le h)
    rw [takeMessage_render_frame, hannounced, List.take_length, List.drop_length, List.nil_append]

/-- As many bytes of a frame come back as it announces.  A frame comes back whole just when its
length fits, and no bytes at all are read as a longer one. -/
theorem takeMessage_frame (f : Frame) (rest : List UInt8) :
    takeMessage (f.render ++ rest)
        = (.ok (.frame ⟨f.channel, f.payload.take f.announced⟩),
          f.payload.drop f.announced ++ rest) ∧
      (takeMessage (f.render ++ rest) = (.ok (.frame f), rest) ↔ f.payload.length ≤ 65535) ∧
      ((∃ bytes left, takeMessage bytes = (.ok (.frame f), left)) ↔ f.payload.length ≤ 65535) := by
  refine ⟨takeMessage_render_frame f rest, takeMessage_render_frame_iff, ?_, ?_⟩
  · rintro ⟨bytes, left, h⟩
    exact length_le_of_takeMessage h
  · intro h
    exact ⟨f.render ++ rest, rest, takeMessage_render_frame_iff.2 h⟩

/-- A frame of 65536 newlines. -/
def overlong : Frame := ⟨5, List.replicate 65536 lineFeed⟩

theorem length_overlong : overlong.payload.length = 65536 :=
  List.length_replicate

/-- The overlong frame announces nothing, so an empty frame is taken off. -/
theorem takeMessage_overlong :
    takeMessage (overlong.render ++ []) = (.ok (.frame ⟨5, []⟩), overlong.payload) ∧
    takeMessage (overlong.render ++ []) ≠ (.ok (.frame overlong), []) := by
  constructor
  · have hnothing : overlong.announced = 0 := by rw [Frame.announced, length_overlong]
    rw [takeMessage_render_frame, hnothing, List.take_zero, List.drop_zero, List.append_nil]
    rfl
  · intro h
    have hlength := takeMessage_render_frame_iff.1 h
    rw [length_overlong] at hlength
    exact absurd hlength (by decide)

/-! ## Messages -/

/-- The bytes of a message. -/
def Message.render : Message → List UInt8
  | .response r => Utf8.encode r.render
  | .frame f => f.render

/-- A message as it is read: the length of a body stands among the headers. -/
def Message.received : Message → Message
  | .response r => .response { r with headers := r.writtenHeaders }
  | .frame f => .frame f

/-- A message that can be written so that it is found again. -/
def Message.IsSendable : Message → Prop
  | .response r => r.IsSendable
  | .frame f => f.payload.length ≤ 65535

/-- A byte of a line end. -/
def IsLineEnd (b : UInt8) : Prop :=
  b = carriageReturn ∨ b = lineFeed

instance (b : UInt8) : Decidable (IsLineEnd b) :=
  inferInstanceAs (Decidable (b = carriageReturn ∨ b = lineFeed))

/-- Line ends between messages are skipped. -/
theorem takeMessage_gap {gap : List UInt8} (h : ∀ b ∈ gap, IsLineEnd b) (rest : List UInt8) :
    takeMessage (gap ++ rest) = takeMessage rest := by
  induction gap with
  | nil => rfl
  | cons b gap ih =>
    have hb : b = carriageReturn ∨ b = lineFeed := h b List.mem_cons_self
    rw [List.cons_append, takeMessage, if_pos hb]
    exact ih fun c hc => h c (List.mem_cons_of_mem b hc)

/-- One message is taken off and nothing else. -/
theorem takeMessage_render {m : Message} (hm : m.IsSendable) (rest : List UInt8) :
    takeMessage (m.render ++ rest) = (.ok m.received, rest) := by
  cases m with
  | frame f => exact takeMessage_render_frame_iff.2 hm
  | response r =>
    have htake := takeResponse_render hm rest
    obtain ⟨bytes, hfirst⟩ := exists_encode_render r
    have hstart : ¬((0x52 : UInt8) = carriageReturn ∨ (0x52 : UInt8) = lineFeed) := by decide
    have hframe : (0x52 : UInt8) ≠ frameStart := by decide
    rw [hfirst] at htake
    rw [Message.render, hfirst, List.cons_append, takeMessage, if_neg hstart, if_neg hframe,
      ← List.cons_append, htake]
    rfl

/-! ## Streams -/

/-- Messages one after another, with line ends before each of them and a tail. -/
def stream (parts : List (List UInt8 × Message)) (tail : List UInt8) : List UInt8 :=
  parts.flatMap (fun part => part.1 ++ part.2.render) ++ tail

/-- Messages are taken off a stream one by one, and then it is found closed. -/
theorem takeMessages_stream {parts : List (List UInt8 × Message)} {tail : List UInt8}
    (hgaps : ∀ part ∈ parts, ∀ b ∈ part.1, IsLineEnd b)
    (hmessages : ∀ part ∈ parts, part.2.IsSendable) (htail : ∀ b ∈ tail, IsLineEnd b)
    {limit : ℕ} (hlimit : parts.length < limit) :
    takeMessages limit (stream parts tail)
      = parts.map (fun part => .ok part.2.received) ++ [.error .connectionClosed] := by
  induction parts generalizing limit with
  | nil =>
    have hclosed : takeMessage tail = (.error .connectionClosed, []) := by
      have hgap := takeMessage_gap htail []
      rwa [List.append_nil] at hgap
    cases limit with
    | zero => cases hlimit
    | succ limit =>
      rw [takeMessages, stream, List.flatMap_nil, List.nil_append, hclosed]
      rfl
  | cons part parts ih =>
    have hfirst : takeMessage (stream (part :: parts) tail)
        = (.ok part.2.received, stream parts tail) := by
      rw [stream, List.flatMap_cons, List.append_assoc, List.append_assoc,
        takeMessage_gap (hgaps part List.mem_cons_self),
        takeMessage_render (hmessages part List.mem_cons_self)]
      rfl
    cases limit with
    | zero => cases hlimit
    | succ limit =>
      have hrest := ih (fun other hother => hgaps other (List.mem_cons_of_mem part hother))
        (fun other hother => hmessages other (List.mem_cons_of_mem part hother))
        (Nat.lt_of_succ_lt_succ hlimit)
      simp only [takeMessages, hfirst, hrest]
      rfl

/-- A response whose body looks like the end of a head with a frame behind it. -/
def lookalike : Response :=
  { code := 404, reason := "", headers := [⟨"X", "a: b"⟩], body := some "\r\n\r\n$é" }

theorem takeMessages_stream_lookalike :
    takeMessages 3 (stream [([lineFeed], .response lookalike),
        ([], .frame ⟨13, [10, 13, 10]⟩)] [carriageReturn])
      = [.ok (.response { lookalike with
          headers := [⟨"X", "a: b"⟩, ⟨"Content-Length", "7"⟩] }),
        .ok (.frame ⟨13, [10, 13, 10]⟩), .error .connectionClosed] := by
  have hlookalike : lookalike.IsSendable := by
    have hreason : IsField "" := ⟨by decide, isTrimmed_of_trim_eq rfl⟩
    have hname : IsField "X" := ⟨by decide, isTrimmed_of_trim_eq (by decide)⟩
    have hvalue : IsField "a: b" := ⟨by decide, isTrimmed_of_trim_eq (by decide)⟩
    refine ⟨hreason, ?_, by decide, by decide, by decide⟩
    intro h hh
    rw [List.mem_singleton.mp hh]
    exact ⟨hname, by decide, hvalue⟩
  refine takeMessages_stream ?_ ?_ ?_ (by decide)
  · simp [IsLineEnd]
  · simp [Message.IsSendable, hlookalike]
  · simp [IsLineEnd]

end MediaTransport.Rtsp
