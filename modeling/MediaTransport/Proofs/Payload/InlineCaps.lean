import MediaTransport.Proofs.Payload.Conservation
import MediaTransport.Proofs.Varint

/-!
# Caps in front of a unit

A reader takes a frame off by the number in front of it (`unframe?_framed`).  The flag of
a sub-header says that caps stand in front of the unit, and not how many.

All caps that have come since the flush before stand there, also those from before a
reset, and the version in the sub-header is that of the last ones
(`performAll_inlineCaps`).  So what follows the first frame is the event or the buffer of
the flush just when there are no other caps.  Two caps before a buffer leave the second
ones in front of it (`performAll_twoCaps`).
-/

namespace MediaTransport.Payload

open Text

/-! ## Frames -/

/-- The frame at the start of some bytes, and what follows it. -/
def unframe? (bytes : List UInt8) : Option (List UInt8 × List UInt8) :=
  match Varint.decode? bytes with
  | none => none
  | some (length, used) =>
    let rest := bytes.drop used
    if length.toNat ≤ rest.length then some (rest.splitAt length.toNat) else none

/-- A number of frames at the start of some bytes, and what follows them. -/
def unframeAll? : ℕ → List UInt8 → Option (List (List UInt8) × List UInt8)
  | 0, bytes => some ([], bytes)
  | n + 1, bytes => do
    let (frame, rest) ← unframe? bytes
    let (frames, rest) ← unframeAll? n rest
    return (frame :: frames, rest)

/-- What is framed comes back, together with what stands behind it. -/
theorem unframe?_framed {bytes : List UInt8} (hshort : bytes.length < 2 ^ 64)
    (rest : List UInt8) : unframe? (framed bytes ++ rest) = some (bytes, rest) := by
  have hlength : (UInt64.ofNat bytes.length).toNat = bytes.length :=
    UInt64.toNat_ofNat_of_lt' hshort
  rw [framed, List.append_assoc, unframe?, Varint.decode?_encode]
  simp [hlength]

theorem framed_ne_nil (bytes : List UInt8) : framed bytes ≠ [] := by
  simp [framed, Varint.encode_ne_nil]

/-- So do several of them, if their number is known. -/
theorem unframeAll?_flatMap_framed {frames : List (List UInt8)}
    (hshort : ∀ frame ∈ frames, frame.length < 2 ^ 64) (rest : List UInt8) :
    unframeAll? frames.length (frames.flatMap framed ++ rest) = some (frames, rest) := by
  induction frames with
  | nil => rfl
  | cons frame more ih =>
    obtain ⟨hframe, hmore⟩ := List.forall_mem_cons.1 hshort
    rw [List.flatMap_cons, List.append_assoc, List.length_cons, unframeAll?,
      unframe?_framed hframe]
    change (unframeAll? more.length (more.flatMap framed ++ rest)).bind _ = _
    rw [ih hmore]
    rfl

/-- Only where there are no frames does nothing stand in front of the rest. -/
theorem flatMap_framed_append_eq_self {frames : List (List UInt8)} {rest : List UInt8} :
    frames.flatMap framed ++ rest = rest ↔ frames = [] := by
  rw [List.append_left_eq_self]
  cases frames with
  | nil => simp
  | cons frame more => simp [framed_ne_nil]

/-! ## The caps of a run -/

/-- The caps that a call gives. -/
def Call.caps : Call → List String
  | .setCaps caps => [caps]
  | _ => []

/-- The caps that some calls give, in order. -/
def capsOf (calls : List Call) : List String :=
  calls.flatMap Call.caps

/-- The same, each with the version that the payloader has when it has taken them. -/
def capsGiven (p : Payloader) : List Call → List (String × UInt8)
  | [] => []
  | call :: rest =>
    let after := (call.perform.run p).2
    call.caps.map (·, after.capsVersion) ++ capsGiven after rest

/-- Caps with their versions, which count them modulo eight. -/
def versioned (names : List String) (count : ℕ) : List (String × UInt8) :=
  (names.zipIdx count).map fun (caps, i) => (caps, UInt8.ofNat (i % 8))

/-- New caps get the next version. -/
theorem setCaps_capsVersion {p : Payloader} {l : Ledger} (h : Tracks p l) (caps : String) :
    ((Call.setCaps caps).perform.run p).2.capsVersion = UInt8.ofNat (l.count % 8) := by
  obtain ⟨-, -, hversion⟩ := (h.accept caps).sendEvents p.held
  exact hversion.trans h.nextVersion

/-- The ledger counts the caps that were set. -/
theorem count_step (l : Ledger) (c : Call) :
    (l.step c).2.count = l.count + c.caps.length := by
  cases c with
  | setCaps caps =>
    change ({ l with hasCaps := true, held := [] }.sendEvents l.held).2.count + 1 = l.count + 1
    rw [Ledger.count_sendEvents]
  | event e =>
    rw [Ledger.step]
    split
    · exact Ledger.count_sendEvents l [e]
    · rfl
  | _ => rfl

/-- The versions are counted up from the caps before. -/
theorem capsGiven_eq {p : Payloader} {l : Ledger} (h : Tracks p l) (calls : List Call) :
    capsGiven p calls = versioned (capsOf calls) l.count := by
  induction calls generalizing p l with
  | nil => rfl
  | cons call rest ih =>
    rw [capsGiven, ih (h.perform call).2, count_step]
    cases call with
    | setCaps caps =>
      rw [setCaps_capsVersion h]
      rfl
    | _ => rfl

/-! ## The caps of a flush -/

/-- A flush after some caps sends the last ones of them. -/
structure Flush.IsAfter (f : Flush) (past : List String) : Prop where
  /-- It knows how many there are. -/
  count : f.count = past.length
  /-- Those that it sends are the last ones. -/
  caps : f.caps <:+ past

/-- A ledger after some caps: the last ones may still wait. -/
structure Ledger.IsAfter (l : Ledger) (past : List String) : Prop where
  /-- It knows how many there are. -/
  count : l.count = past.length
  /-- Those that wait are the last ones. -/
  waiting : l.waiting <:+ past

namespace Ledger.IsAfter

variable {l : Ledger} {past : List String}

theorem flush (h : l.IsAfter past) (c : Cargo) :
    (l.flush c).IsAfter past ∧ l.cleared.IsAfter past :=
  ⟨⟨h.count, h.waiting⟩, ⟨h.count, List.nil_suffix⟩⟩

theorem sendEvent (h : l.IsAfter past) (e : Event) :
    (∀ f ∈ (l.sendEvent e).1, f.IsAfter past) ∧ (l.sendEvent e).2.IsAfter past := by
  obtain hnone | ⟨code, hsent⟩ := l.sendEvent_cases e
  · rw [hnone]
    exact ⟨nofun, h⟩
  · obtain ⟨hflush, hcleared⟩ := h.flush (.event code e.text)
    rw [hsent]
    exact ⟨List.forall_mem_singleton.2 hflush, hcleared⟩

theorem sendEvents (h : l.IsAfter past) (es : List Event) :
    (∀ f ∈ (l.sendEvents es).1, f.IsAfter past) ∧ (l.sendEvents es).2.IsAfter past := by
  induction es generalizing l with
  | nil => exact ⟨by simp [Ledger.sendEvents], h⟩
  | cons e rest ih =>
    obtain ⟨hfirst, hl⟩ := h.sendEvent e
    obtain ⟨hothers, hlast⟩ := ih hl
    exact ⟨List.forall_mem_append.2 ⟨hfirst, hothers⟩, hlast⟩

/-- New caps come last, and the events that they let out go before them. -/
theorem step (h : l.IsAfter past) (c : Call) :
    (∀ f ∈ (l.step c).1, f.IsAfter past) ∧ (l.step c).2.IsAfter (past ++ c.caps) := by
  cases c with
  | setCaps caps =>
    have hopened : Ledger.IsAfter { l with hasCaps := true, held := [] } past :=
      ⟨h.count, h.waiting⟩
    obtain ⟨hsent, hlast⟩ := hopened.sendEvents l.held
    refine ⟨hsent, ?_, ?_⟩
    · simp [Ledger.step, Ledger.queueCaps, hlast.count, Call.caps]
    · obtain ⟨earlier, hwaiting⟩ := hlast.waiting
      refine ⟨earlier, ?_⟩
      rw [← hwaiting, List.append_assoc]
      rfl
  | setMtu | reset =>
    simp only [Call.caps, List.append_nil]
    exact ⟨by simp [Ledger.step], h.count, h.waiting⟩
  | event e =>
    simp only [Call.caps, List.append_nil, Ledger.step]
    split
    · exact h.sendEvent e
    · exact ⟨by simp, h.count, h.waiting⟩
  | buffer b =>
    simp only [Call.caps, List.append_nil]
    obtain ⟨hflush, hcleared⟩ := h.flush (.buffer b)
    exact ⟨by simpa [Ledger.step] using hflush, hcleared⟩
  | flush =>
    simp only [Call.caps, List.append_nil]
    obtain ⟨hflush, hcleared⟩ := h.flush .nothing
    exact ⟨by simpa [Ledger.step] using hflush, hcleared⟩

/-- Every flush of a run knows the caps that were set before it. -/
theorem flushes (h : l.IsAfter past) (calls : List Call) :
    ∀ f ∈ l.flushes calls, f.IsAfter ((past ++ capsOf calls).take f.count) := by
  induction calls generalizing l past with
  | nil => simp [Ledger.flushes]
  | cons call rest ih =>
    have hcaps : past ++ capsOf (call :: rest) = past ++ call.caps ++ capsOf rest := by
      rw [List.append_assoc]
      cases call <;> rfl
    obtain ⟨hfirst, hl⟩ := h.step call
    intro f hf
    rw [hcaps]
    obtain hf | hf := List.mem_append.1 hf
    · rw [(hfirst f hf).count, List.append_assoc, List.take_left]
      exact hfirst f hf
    · exact ih hl f hf

end Ledger.IsAfter

/-! ## Units with caps -/

/-- A unit with the caps of its flush in front. -/
structure Announces (given : List (String × UInt8)) (unit : List Piece) (f : Flush) : Prop where
  /-- The flag says whether there are any. -/
  flagged : ∀ piece ∈ unit, piece.header.capsInline = true ↔ f.caps ≠ []
  /-- They are the last ones that were given before the flush. -/
  recent : f.caps <:+ (given.take f.count).map Prod.fst
  /-- The version is that of the last ones. -/
  named : f.caps ≠ [] → ∀ piece ∈ unit,
    (given.take f.count).getLast?.map Prod.snd = some piece.header.capsVersion
  /-- Frame by frame they can be taken off, and leave the event or the buffer. -/
  frames : unframeAll? f.caps.length (unit.flatMap (·.body))
    = some (f.caps.map capsBytes, f.cargo.bytes)
  /-- Taking off one frame leaves that just when there are no others. -/
  single : f.caps ≠ [] → ∃ first rest, f.caps.head? = some first ∧
    unframe? (unit.flatMap (·.body)) = some (capsBytes first, rest) ∧
    (rest = f.cargo.bytes ↔ f.caps.length = 1)

theorem Carries.header_mem {unit : List Piece} {f : Flush} (h : Carries unit f) {piece : Piece}
    (hpiece : piece ∈ unit) : ∃ offset, piece.header = f.header offset := by
  obtain ⟨i, hi⟩ := List.getElem?_of_mem hpiece
  exact ⟨_, h.headers i piece hi⟩

/-- The caps stand in front of the cargo, each in a frame. -/
theorem bytes_eq (f : Flush) :
    f.bytes = (f.caps.map capsBytes).flatMap framed ++ f.cargo.bytes := by
  rw [Flush.bytes, List.flatMap_map]
  simp only [framed_capsBytes]

theorem map_fst_versioned (names : List String) (count : ℕ) :
    (versioned names count).map Prod.fst = names := by
  rw [versioned, List.map_map]
  exact List.zipIdx_map_fst count names

/-- The last of the first caps has the version that their number gives. -/
theorem getLast?_take_versioned {names : List String} {count : ℕ} (hpos : 0 < count)
    (hcount : count ≤ names.length) :
    ((versioned names 0).take count).getLast?.map Prod.snd
      = some (UInt8.ofNat (versionOf count)) := by
  have hlast : (versioned names 0)[count - 1]?.map Prod.snd
      = some (UInt8.ofNat (versionOf count)) := by
    have hindex : names[count - 1]? = some names[count - 1] := List.getElem?_eq_getElem (by omega)
    simp [versioned, List.getElem?_zipIdx, hindex, versionOf]
  obtain ⟨caps, hcaps, hversion⟩ := Option.map_eq_some_iff.1 hlast
  rw [List.getLast?_take, if_neg (by omega), hcaps]
  simp [hversion]

/-- A unit that carries such a flush announces the caps as it should. -/
theorem Carries.announces {names : List String} {unit : List Piece} {f : Flush}
    (h : Carries unit f) (hf : f.IsAfter (names.take f.count))
    (hshort : ∀ caps ∈ names, caps.utf8ByteSize + 1 < 2 ^ 64) :
    Announces (versioned names 0) unit f := by
  have hframes : ∀ frame ∈ f.caps.map capsBytes, frame.length < 2 ^ 64 := by
    intro frame hframe
    obtain ⟨caps, hcaps, rfl⟩ := List.mem_map.1 hframe
    have hmem := List.mem_of_mem_take (hf.caps.subset hcaps)
    simpa [capsBytes, Utf8.length_encode] using hshort caps hmem
  refine ⟨?_, ?_, ?_, ?_, ?_⟩
  · intro piece hpiece
    obtain ⟨offset, hheader⟩ := h.header_mem hpiece
    simp [hheader, Flush.header]
  · rw [List.map_take, map_fst_versioned]
    exact hf.caps
  · intro hcaps piece hpiece
    obtain ⟨offset, hheader⟩ := h.header_mem hpiece
    have hcount : f.count = min f.count names.length := by
      rw [← List.length_take]
      exact hf.count
    have hpos : 0 < f.count := by
      rw [hf.count]
      exact Nat.lt_of_lt_of_le (List.length_pos_iff.2 hcaps) hf.caps.length_le
    rw [hheader, getLast?_take_versioned hpos (by omega)]
    rfl
  · have hall := unframeAll?_flatMap_framed hframes f.cargo.bytes
    rwa [List.length_map, ← bytes_eq, ← h.bytes] at hall
  · intro hcaps
    obtain ⟨first, others, hfirst⟩ := List.exists_cons_of_ne_nil hcaps
    refine ⟨first, (others.map capsBytes).flatMap framed ++ f.cargo.bytes, ?_, ?_, ?_⟩
    · rw [hfirst]
      rfl
    · rw [h.bytes, bytes_eq, hfirst, List.map_cons, List.flatMap_cons, List.append_assoc]
      exact unframe?_framed (hframes _ (by simp [hfirst])) _
    · rw [flatMap_framed_append_eq_self, hfirst]
      simp

/-- Whatever the calls on a new payloader are, a unit with the flag set has in front all
caps that came since the flush before, and nothing else, and behind them the event or the
buffer of the flush.  The version is that of the last ones. -/
theorem performAll_inlineCaps (payloadType : UInt8) (ssrc : UInt32) (sequence : UInt16)
    (timestamp : UInt32) (calls : List Call)
    (hshort : ∀ caps ∈ capsOf calls, caps.utf8ByteSize + 1 < 2 ^ 64) :
    ∃ pieces : List Piece,
      ((Call.performAll calls).run (.start payloadType ssrc sequence timestamp)).1.mapM Piece.read
        = .ok pieces ∧
      List.Forall₂
        (fun unit f => Carries unit f ∧
          Announces (capsGiven (.start payloadType ssrc sequence timestamp) calls) unit f)
        (cutAtMarkers pieces) ((Ledger.flushes {} calls).filter fun f => f.bytes ≠ []) := by
  have htracks := tracks_start payloadType ssrc sequence timestamp
  obtain ⟨us, hread, hcarries⟩ := performAll_emits htracks calls
  have hstart : Ledger.IsAfter {} [] := ⟨rfl, List.nil_suffix⟩
  have hafter : ∀ f ∈ (Ledger.flushes {} calls).filter fun f => f.bytes ≠ [],
      f.IsAfter ((capsOf calls).take f.count) :=
    fun f hf => hstart.flushes calls f (List.mem_of_mem_filter hf)
  have hboth := (List.forall₂_and_left _ _).2 ⟨hafter, hcarries.flip⟩
  refine ⟨us.flatten, hread, ?_⟩
  rw [cutAtMarkers_flatten hcarries, capsGiven_eq htracks]
  exact hboth.flip.imp fun unit f h => ⟨h.2, h.2.announces h.1 hshort⟩

/-- Caps before and after a reset, and once more before an event. -/
def restarted : List Call :=
  [.setCaps "a", .reset, .setCaps "b", .buffer { data := [7] }, .setCaps "c", .event ⟨.tag, "t"⟩]

theorem performAll_inlineCaps_restarted :
    (∀ caps ∈ capsOf restarted, caps.utf8ByteSize + 1 < 2 ^ 64) ∧
    Ledger.flushes {} restarted
      = [⟨["a", "b"], 2, .buffer { data := [7] }⟩, ⟨["c"], 3, .event 1 "t"⟩] ∧
    ∃ pieces : List Piece,
      ((Call.performAll restarted).run (.start 96 1 0 0)).1.mapM Piece.read = .ok pieces ∧
      List.Forall₂
        (fun unit f => Carries unit f ∧ Announces [("a", 0), ("b", 1), ("c", 2)] unit f)
        (cutAtMarkers pieces) ((Ledger.flushes {} restarted).filter fun f => f.bytes ≠ []) := by
  have hshort : ∀ caps ∈ capsOf restarted, caps.utf8ByteSize + 1 < 2 ^ 64 := by decide
  have hgiven : capsGiven (.start 96 1 0 0) restarted = [("a", 0), ("b", 1), ("c", 2)] := by
    decide +kernel
  refine ⟨hshort, rfl, ?_⟩
  rw [← hgiven]
  exact performAll_inlineCaps 96 1 0 0 restarted hshort

/-- A buffer after two caps. -/
def twoCaps : List Call := [.setCaps "a", .setCaps "b", .buffer { data := [7] }]

/-- The version is that of the second caps, and the first frame holds the first ones.  The
second ones are in front of the buffer. -/
theorem performAll_twoCaps :
    capsGiven (.start 96 1 0 0) twoCaps = [("a", 0), ("b", 1)] ∧
    ∃ piece : Piece,
      ((Call.performAll twoCaps).run (.start 96 1 0 0)).1.mapM Piece.read = .ok [piece] ∧
      piece.isLast = true ∧ piece.header.capsInline = true ∧ piece.header.capsVersion = 1 ∧
      unframe? piece.body = some (capsBytes "a", framed (capsBytes "b") ++ [7]) ∧
      framed (capsBytes "b") ++ [7] ≠ [7] := by
  have hpackets : ((Call.performAll twoCaps).run (.start 96 1 0 0)).1
      = [[128, 224, 0, 0, 0, 0, 0, 0, 0, 0, 0, 1, 144, 0, 0, 0, 0, 0, 0, 0,
        2, 97, 0, 2, 98, 0, 7]] := by decide +kernel
  refine ⟨by decide +kernel, ⟨true, ⟨true, 1, false, false, false, false, 0, 0⟩,
    [2, 97, 0, 2, 98, 0, 7]⟩, ?_, rfl, rfl, rfl, ?_, ?_⟩
  · rw [hpackets]
    rfl
  · decide +kernel
  · decide +kernel

end MediaTransport.Payload
