import MediaTransport.Proofs.Text.Lines
import MediaTransport.Rtsp.Reader

/-!
# What a reader of responses returns

A response is *readable* when a head reads as it, its body apart
(`Response.IsReadable`).  The responses that are taken from a connection are
(`isReadable_of_mem_takeMessages`), and their header values have one line each.
-/

namespace MediaTransport.Rtsp

open Text

/-! ## Heads -/

theorem newline_not_mem_of_ofLine? {line : List Char} {h : Header} (hline : '\n' ∉ line)
    (hread : Header.ofLine? line = some h) : '\n' ∉ h.value.toList := by
  obtain ⟨⟨name, value⟩, hcut, rfl⟩ := Option.map_eq_some_iff.1 hread
  rw [String.toList_ofList]
  intro hmem
  refine hline ?_
  rw [(cut?_eq_some hcut).1]
  exact List.mem_append_right name (List.mem_cons_of_mem ':' (mem_of_mem_trim hmem))

/-- Headers that are read from lines have no line breaks. -/
theorem newline_not_mem_of_readHeaders? {ls : List (List Char)} {headers : List Header}
    (hls : ∀ line ∈ ls, '\n' ∉ line) (hread : readHeaders? ls = some headers) :
    ∀ h ∈ headers, '\n' ∉ h.value.toList := by
  induction ls generalizing headers with
  | nil =>
    cases hread
    exact List.forall_mem_nil _
  | cons line rest ih =>
    obtain ⟨hline, hrest⟩ := List.forall_mem_cons.1 hls
    rw [readHeaders?] at hread
    split at hread
    next =>
      cases hread
      exact List.forall_mem_nil _
    next =>
      obtain ⟨first, hfirst, hread⟩ := Option.bind_eq_some_iff.1 hread
      obtain ⟨others, hothers, hread⟩ := Option.bind_eq_some_iff.1 hread
      cases hread
      exact List.forall_mem_cons.2 ⟨newline_not_mem_of_ofLine? hline hfirst, ih hrest hothers⟩

theorem exists_of_read {head : String} {r : Response} (h : Response.read head = .ok r) :
    ∃ status rest, lines head.toList = status :: rest ∧ readHeaders? rest = some r.headers ∧
      r.body = none := by
  unfold Response.read at h
  cases hlines : lines head.toList with
  | nil =>
    rw [hlines] at h
    cases h
  | cons status rest =>
    rw [hlines, Response.ofLines] at h
    split at h
    next => cases h
    next =>
      split at h
      next => cases h
      next =>
        split at h
        next => cases h
        next headers hread =>
          cases h
          exact ⟨status, rest, rfl, hread, rfl⟩

/-- A response as a reader returns it. -/
def Response.IsReadable (r : Response) : Prop :=
  ∃ head, Response.read head = .ok { r with body := none }

/-- Its headers have one line each. -/
theorem Response.IsReadable.newline_not_mem {r : Response} (hr : r.IsReadable) :
    ∀ header ∈ r.headers, '\n' ∉ header.value.toList := by
  obtain ⟨head, h⟩ := hr
  obtain ⟨status, rest, hlines, hread, -⟩ := exists_of_read h
  have hrest : ∀ line ∈ rest, line ∈ lines head.toList := by
    intro line hline
    rw [hlines]
    exact List.mem_cons_of_mem status hline
  exact newline_not_mem_of_readHeaders?
    (fun line hline => newline_not_mem_of_mem_lines (hrest line hline)) hread

/-! ## Connections -/

/-- A response is readable once its head has been read, with whatever body. -/
theorem isReadable_of_readHead {head : List UInt8} {r : Response} {length : ℕ}
    (h : readHead head = .ok (r, length)) (body : Option String) :
    Response.IsReadable { r with body } := by
  unfold readHead at h
  split at h
  next text _ =>
    simp only [bind, Except.bind] at h
    split at h
    next => cases h
    next response hread =>
      split at h
      next => cases h
      next =>
        split at h
        next => cases h
        next =>
          cases h
          refine ⟨text, ?_⟩
          obtain ⟨-, -, -, -, hbody⟩ := exists_of_read hread
          rw [hread, ← hbody]
  next => cases h

theorem isReadable_of_takeResponse {bytes rest : List UInt8} {r : Response}
    (h : takeResponse bytes = (.ok r, rest)) : r.IsReadable := by
  unfold takeResponse at h
  split at h
  next => cases h
  next =>
    split at h
    next => cases h
    next response _ hread =>
      cases h
      exact isReadable_of_readHead hread r.body
    next response _ hread =>
      split at h
      next => cases h
      next =>
        cases h
        exact isReadable_of_readHead hread _

/-- Every response that comes out of a stream is readable. -/
theorem isReadable_of_takeMessage {bytes rest : List UInt8} {r : Response}
    (h : takeMessage bytes = (.ok (.response r), rest)) : r.IsReadable := by
  induction bytes with
  | nil => cases h
  | cons b more ih =>
    rw [takeMessage] at h
    split at h
    next => exact ih h
    next =>
      split at h
      next =>
        cases hframe : (takeFrame (b :: more)).1 with
        | error fault => simp [hframe, Except.map] at h
        | ok frame => simp [hframe, Except.map] at h
      next =>
        rcases htaken : takeResponse (b :: more) with ⟨_ | response, left⟩
        next =>
          rw [htaken] at h
          cases h
        next =>
          rw [htaken] at h
          cases h
          exact isReadable_of_takeResponse htaken

/-- Every response that is taken from a connection is readable. -/
theorem isReadable_of_mem_takeMessages {limit : ℕ} {bytes : List UInt8} {r : Response}
    (h : .ok (.response r) ∈ takeMessages limit bytes) : r.IsReadable := by
  induction limit generalizing bytes with
  | zero => cases h
  | succ limit ih =>
    rw [takeMessages] at h
    split at h
    next => simp at h
    next message rest _ hmessage =>
      rcases List.mem_cons.1 h with hfirst | hlater
      · rw [← hfirst] at hmessage
        exact isReadable_of_takeMessage hmessage
      · exact ih hlater

end MediaTransport.Rtsp
