import MediaTransport.Payload.Payloader
import MediaTransport.Proofs.Rtp.Header

/-!
# Pieces

A flush sends its queue as one unit of packets (`flush_run`).  A receiver takes such a
packet apart into the marker, the sub-header and the body (`Piece.read`), and what it
reads in the packets of a unit are the fragments of the queue (`readAll_packetsFrom`).

The bodies of the fragments concatenate to the queue (`flatMap_body_fragments`), every
fragment starts where the ones before it end (`offset_fragments`), and only the last one
is marked (`isLast_fragments`).
-/

namespace MediaTransport.Payload

open Bytes

/-! ## Packets of a flush -/

/-- The packets of some fragments.  Each uses up one sequence number. -/
def packetsFrom (flags eventType : UInt8) : Rtp.Sender → List Fragment → List (List UInt8)
  | _, [] => []
  | s, f :: rest =>
    (s.header f.isLast ++ subHeader flags eventType (UInt32.ofNat f.offset) ++ f.body)
      :: packetsFrom flags eventType s.next rest

/-- The sender after the packets of some fragments. -/
def passed (s : Rtp.Sender) (fs : List Fragment) : Rtp.Sender :=
  fs.foldl (fun s _ => s.next) s

@[simp] theorem passed_payloadType (s : Rtp.Sender) (fs : List Fragment) :
    (passed s fs).payloadType = s.payloadType := by
  induction fs generalizing s with
  | nil => rfl
  | cons f rest ih => exact ih s.next

/-- Fragments go out one by one, each with the flags and the type of the flush. -/
theorem sendAll_run (p : Payloader) (fs : List Fragment) :
    (fs.mapM Payloader.send).run p
      = (packetsFrom p.flags p.eventType p.sender fs, { p with sender := passed p.sender fs }) := by
  induction fs generalizing p with
  | nil => rfl
  | cons f rest ih =>
    rw [List.mapM_cons, StateT.run_bind]
    change (rest.mapM Payloader.send >>= _).run { p with sender := p.sender.next } = _
    rw [StateT.run_bind, ih]
    rfl

namespace Payloader

/-- The fragments that the next flush sends. -/
def fragments (p : Payloader) : List Fragment :=
  Payload.fragments (p.mtu - overhead) p.queue

/-- The packets that the next flush sends. -/
def packets (p : Payloader) : List (List UInt8) :=
  packetsFrom p.flags p.eventType p.sender p.fragments

/-- The payloader after the next flush. -/
def flushed (p : Payloader) : Payloader :=
  { p.cleared with sender := passed p.sender p.fragments }

/-- A flush sends its packets and leaves the state of `flushed`. -/
theorem flush_run (p : Payloader) : flush.run p = (p.packets, p.flushed) := by
  have hsend := sendAll_run p p.fragments
  unfold flush
  rw [StateT.run_bind]
  change (p.fragments.mapM send >>= _).run p = _
  rw [StateT.run_bind, hsend]
  rfl

end Payloader

/-! ## Fragments -/

theorem map_body_fragments (size : ℕ) (unit : List UInt8) :
    (fragments size unit).map (·.body) = chunks size unit := by
  unfold fragments
  rw [List.map_map]
  exact List.zipIdx_map_fst 0 (chunks size unit)

theorem length_fragments (size : ℕ) (unit : List UInt8) :
    (fragments size unit).length = (chunks size unit).length := by
  rw [← map_body_fragments, List.length_map]

/-- Nothing of the queue is lost or repeated. -/
theorem flatMap_body_fragments {size : ℕ} (hsize : 0 < size) (unit : List UInt8) :
    (fragments size unit).flatMap (·.body) = unit := by
  rw [List.flatMap_def, map_body_fragments, chunks_flatten hsize]

/-- Only an empty unit makes no packet. -/
theorem fragments_eq_nil {size : ℕ} (hsize : 0 < size) {unit : List UInt8} :
    fragments size unit = [] ↔ unit = [] := by
  constructor
  · intro h
    rw [← flatMap_body_fragments hsize unit, h]
    rfl
  · rintro rfl
    simp [fragments]

/-- The marker is on the last fragment and on no other. -/
theorem isLast_fragments {size : ℕ} {unit : List UInt8} {i : ℕ} {f : Fragment}
    (h : (fragments size unit)[i]? = some f) :
    f.isLast = decide (i + 1 = (fragments size unit).length) := by
  rw [length_fragments]
  simp only [fragments, List.getElem?_map, List.getElem?_zipIdx, Option.map_eq_some_iff] at h
  obtain ⟨_, ⟨_, _, rfl⟩, rfl⟩ := h
  simp [beq_eq_decide]

/-- A fragment says how many bytes of the unit have gone before it. -/
theorem offset_fragments {size : ℕ} (hsize : 0 < size) {unit : List UInt8} {i : ℕ} {f : Fragment}
    (h : (fragments size unit)[i]? = some f) :
    f.offset = (((fragments size unit).take i).flatMap (·.body)).length := by
  have hi : i < (chunks size unit).length := by
    rw [← length_fragments]
    exact (List.getElem?_eq_some_iff.mp h).1
  rw [List.flatMap_def, List.map_take, map_body_fragments, length_flatten_take_chunks hsize hi]
  simp only [fragments, List.getElem?_map, List.getElem?_zipIdx, Option.map_eq_some_iff] at h
  obtain ⟨_, ⟨_, _, rfl⟩, rfl⟩ := h
  simp

/-! ## Reading -/

/-- What a receiver reads in a packet. -/
structure Piece where
  /-- The marker. -/
  isLast : Bool
  /-- The sub-header. -/
  header : SubHeader
  /-- What follows it. -/
  body : List UInt8

/-- Reads a packet. -/
def Piece.read (packet : List UInt8) : Except Error Piece := do
  let p ← Rtp.Packet.parse packet
  let header ← SubHeader.parse p.payload
  return ⟨p.marker, header, p.payload.drop subHeaderLength⟩

/-- The sub-header with given flags. -/
def SubHeader.ofFlags (flags eventType : UInt8) (offset : UInt32) : SubHeader where
  capsInline := flags &&& capsFlag ≠ 0
  capsVersion := (flags &&& versionMask) >>> 4
  deltaUnit := flags &&& deltaUnitFlag ≠ 0
  media1 := flags &&& media1Flag ≠ 0
  media2 := flags &&& media2Flag ≠ 0
  media3 := flags &&& media3Flag ≠ 0
  eventType
  offset

/-- A fragment as a receiver reads it. -/
def Fragment.piece (flags eventType : UInt8) (f : Fragment) : Piece :=
  ⟨f.isLast, .ofFlags flags eventType (UInt32.ofNat f.offset), f.body⟩

/-- A sub-header reads back in front of any body. -/
theorem parse_subHeader (flags eventType : UInt8) (offset : UInt32) (body : List UInt8) :
    SubHeader.parse (subHeader flags eventType offset ++ body)
      = .ok (.ofFlags flags eventType offset) := by
  simp [subHeader, ofUInt32, SubHeader.parse, SubHeader.ofFlags]

/-- A receiver reads from a packet the piece that was put in. -/
theorem read_packet {s : Rtp.Sender} (hs : s.payloadType < 128) (flags eventType : UInt8)
    (f : Fragment) :
    Piece.read (s.header f.isLast ++ subHeader flags eventType (UInt32.ofNat f.offset) ++ f.body)
      = .ok (f.piece flags eventType) := by
  unfold Piece.read
  rw [List.append_assoc, Rtp.parse_header hs]
  simp only [bind, Except.bind, parse_subHeader]
  rfl

/-- And it reads all of them. -/
theorem readAll_packetsFrom {s : Rtp.Sender} (hs : s.payloadType < 128) (flags eventType : UInt8)
    (fs : List Fragment) :
    (packetsFrom flags eventType s fs).mapM Piece.read
      = .ok (fs.map (·.piece flags eventType)) := by
  induction fs generalizing s with
  | nil => rfl
  | cons f rest ih =>
    rw [packetsFrom, List.mapM_cons, read_packet hs, ih (s := s.next) hs]
    rfl

end MediaTransport.Payload
