import MediaTransport.Audio.PayloadMap
import MediaTransport.Proofs.Activity
import Mathlib.Order.Basic

/-!
# Well-formed payload-type maps

Every map that can be built has its entries in strictly increasing order of their
payload types, and each entry passed the check of `PayloadMap.insert`.  The
invariant is `PayloadMap.WellFormed`; the ways to build a map are the rules of
`PayloadMap.Built`; `Built.wellFormed` ties the two.  A map can also be built in place by
calls of which some are refused (`PayloadMap.IsLoaded`).  A refused insertion writes
nothing (`insertInPlace_run`), so this builds no other maps (`Built.afterAll`).

The order makes a payload type stand for one sampling, so the two directions of a
map agree: a payload type found for a sampling stands for that sampling
(`WellFormed.get?_of_find?`).
-/

namespace MediaTransport.Audio

/-- What `PayloadMap.insert` asks of an entry. -/
def IsAdmissible (e : UInt8 × Sampling) : Prop :=
  e.1 ≤ 127 ∧ e.2.rate ≠ 0 ∧ e.2.channels ≠ 0

instance (e : UInt8 × Sampling) : Decidable (IsAdmissible e) :=
  inferInstanceAs (Decidable (_ ∧ _ ∧ _))

namespace PayloadMap

/-- The invariant of maps. -/
structure WellFormed (m : PayloadMap) : Prop where
  /-- The entries stand in increasing order, and no payload type has two. -/
  sorted : m.entries.Pairwise fun a b => a.1 < b.1
  /-- Every entry could have been inserted. -/
  admissible : ∀ e ∈ m.entries, IsAdmissible e

/-- The maps that can be built. -/
inductive Built : PayloadMap → Prop
  /-- The map without entries. -/
  | empty : Built .empty
  /-- A map after an insertion that was not refused. -/
  | insert {m m' : PayloadMap} {payloadType : UInt8} {s : Sampling} :
    Built m → m.insert payloadType s = .ok m' → Built m'
  /-- A map that was read from a text. -/
  | parse {text : String} {m : PayloadMap} : PayloadMap.parse text = .ok m → Built m
  /-- A map that was collected from a session description. -/
  | ofDescription (d : Sdp.Description) : Built (.ofDescription d)

/-! ## Insertion -/

/-- Insertion adds no entry but its own. -/
theorem mem_insertEntry {payloadType : UInt8} {s : Sampling} {entries : List (UInt8 × Sampling)}
    {e : UInt8 × Sampling} (h : e ∈ insertEntry payloadType s entries) :
    e = (payloadType, s) ∨ e ∈ entries := by
  induction entries with
  | nil => exact .inl (List.mem_singleton.mp h)
  | cons first rest ih =>
    simp only [insertEntry] at h
    split at h
    next => exact List.mem_cons.mp h
    next =>
      split at h
      next => exact (List.mem_cons.mp h).imp_right (List.mem_cons_of_mem first)
      next =>
        rcases List.mem_cons.mp h with rfl | h
        · exact .inr List.mem_cons_self
        · exact (ih h).imp_right (List.mem_cons_of_mem first)

/-- An entry goes in where it belongs by its payload type. -/
theorem insertEntry_sorted {payloadType : UInt8} {s : Sampling}
    {entries : List (UInt8 × Sampling)} (h : entries.Pairwise fun a b => a.1 < b.1) :
    (insertEntry payloadType s entries).Pairwise fun a b => a.1 < b.1 := by
  induction entries with
  | nil => exact List.pairwise_singleton _ _
  | cons first rest ih =>
    obtain ⟨hfirst, hrest⟩ := List.pairwise_cons.mp h
    simp only [insertEntry]
    split
    next hlt =>
      refine List.pairwise_cons.mpr ⟨?_, h⟩
      intro e he
      rcases List.mem_cons.mp he with rfl | he
      · exact hlt
      · exact UInt8.lt_trans hlt (hfirst e he)
    next hnlt =>
      split
      next heq =>
        refine List.pairwise_cons.mpr ⟨?_, hrest⟩
        intro e he
        rw [heq]
        exact hfirst e he
      next hne =>
        have hlt : first.1 < payloadType :=
          UInt8.lt_of_le_of_ne (UInt8.not_lt.mp hnlt) (Ne.symm hne)
        refine List.pairwise_cons.mpr ⟨?_, ih hrest⟩
        intro e he
        rcases mem_insertEntry he with rfl | he
        · exact hlt
        · exact hfirst e he

/-- An insertion that succeeds has passed all three checks. -/
theorem insert_eq_ok {m m' : PayloadMap} {payloadType : UInt8} {s : Sampling}
    (h : m.insert payloadType s = .ok m') :
    IsAdmissible (payloadType, s) ∧ m' = ⟨insertEntry payloadType s m.entries⟩ := by
  unfold PayloadMap.insert at h
  split at h
  next => cases h
  next hnarrow =>
    unfold Sampling.check at h
    split at h
    next => cases h
    next hoccupied =>
      cases h
      exact ⟨⟨UInt8.not_lt.mp hnarrow, not_or.mp hoccupied⟩, rfl⟩

theorem WellFormed.empty : (PayloadMap.empty).WellFormed :=
  ⟨List.Pairwise.nil, fun _ h => nomatch h⟩

/-- Insertions keep a map in order and its entries admissible. -/
theorem WellFormed.insert {m m' : PayloadMap} {payloadType : UInt8} {s : Sampling}
    (hm : m.WellFormed) (h : m.insert payloadType s = .ok m') : m'.WellFormed := by
  obtain ⟨hentry, rfl⟩ := insert_eq_ok h
  refine ⟨insertEntry_sorted hm.sorted, ?_⟩
  intro e he
  rcases mem_insertEntry he with rfl | he
  · exact hentry
  · exact hm.admissible e he

/-! ## Reading -/

/-- So does reading an entry, which inserts one at most. -/
theorem WellFormed.addText {m m' : PayloadMap} {text : List Char} (hm : m.WellFormed)
    (h : m.addText text = .ok m') : m'.WellFormed := by
  unfold PayloadMap.addText at h
  split at h
  next => cases h
  next =>
    cases h
    exact hm
  next => exact hm.insert h

theorem WellFormed.addTexts {m m' : PayloadMap} {texts : List (List Char)} (hm : m.WellFormed)
    (h : texts.foldlM PayloadMap.addText m = .ok m') : m'.WellFormed := by
  induction texts generalizing m with
  | nil =>
    cases h
    exact hm
  | cons text rest ih =>
    rw [List.foldlM_cons] at h
    cases hadd : m.addText text with
    | error e =>
      rw [hadd] at h
      cases h
    | ok next =>
      rw [hadd] at h
      exact ih (hm.addText hadd) h

/-- A mapping of a session description is checked like any entry, and left out if it is refused. -/
theorem WellFormed.addRtpMap {m : PayloadMap} (hm : m.WellFormed) (r : Sdp.RtpMap) :
    (m.addRtpMap r).WellFormed := by
  unfold PayloadMap.addRtpMap
  split
  next =>
    split
    next m' h => exact hm.insert h
    next => exact hm
  next => exact hm

theorem WellFormed.addRtpMaps {m : PayloadMap} (hm : m.WellFormed) (rs : List Sdp.RtpMap) :
    (rs.foldl PayloadMap.addRtpMap m).WellFormed := by
  induction rs generalizing m with
  | nil => exact hm
  | cons r rest ih => exact ih (hm.addRtpMap r)

/-- Every way to build a map keeps the invariant. -/
theorem Built.wellFormed {m : PayloadMap} (h : m.Built) : m.WellFormed := by
  induction h with
  | empty => exact .empty
  | insert _ hinsert ih => exact ih.insert hinsert
  | parse hparse => exact WellFormed.empty.addTexts hparse
  | ofDescription d => exact WellFormed.empty.addRtpMaps _

/-! ## Building in place -/

/-- Inserts an entry.  It is written when both checks have been passed. -/
def insertInPlace (payloadType : UInt8) (s : Sampling) :
    ExceptT Error (StateM PayloadMap) Unit := do
  if payloadType > 127 then throw (.invalidConfig (.payloadTypeRange payloadType))
  s.check
  modify fun m => ⟨insertEntry payloadType s m.entries⟩

/-- A call that builds a map, or builds on one. -/
inductive Call where
  /-- Insert an entry. -/
  | insert (payloadType : UInt8) (s : Sampling)
  /-- Read a map from a text. -/
  | parse (text : String)
  /-- Collect a map from a session description. -/
  | ofDescription (d : Sdp.Description)

/-- Makes a call. -/
def Call.perform : Call → ExceptT Error (StateM PayloadMap) Unit
  | .insert payloadType s => insertInPlace payloadType s
  | .parse text => do
    let m ← PayloadMap.parse text
    set m
  | .ofDescription d => set (PayloadMap.ofDescription d)

/-- A map after some calls.  Any of them may have been refused. -/
def afterAll (m : PayloadMap) (calls : List Call) : PayloadMap :=
  calls.foldl (fun m call => (call.perform.run.run m).2) m

/-- A map that some calls have built. -/
def IsLoaded (m : PayloadMap) : Prop :=
  ∃ calls, afterAll .empty calls = m

/-- A refused insertion writes nothing. -/
theorem insertInPlace_run (payloadType : UInt8) (s : Sampling) (m : PayloadMap) :
    (insertInPlace payloadType s).run.run m = match m.insert payloadType s with
      | .ok m' => (.ok (), m')
      | .error e => (.error e, m) := by
  unfold insertInPlace PayloadMap.insert
  split
  next => rfl
  next => cases s.check <;> rfl

/-- Every call leaves a map that can be built, also when it is refused half way. -/
theorem keeps_built (call : Call) : Keeps Built call.perform fun _ => True := by
  cases call with
  | insert payloadType s =>
    intro m hm
    rw [Call.perform, insertInPlace_run]
    cases hinsert : m.insert payloadType s with
    | error e => exact ⟨hm, nofun⟩
    | ok m' => exact ⟨.insert hm hinsert, fun _ _ => trivial⟩
  | parse text => exact (keeps_liftM _).bind fun m hm => keeps_set (.parse hm)
  | ofDescription d => exact keeps_set (.ofDescription d)

theorem Built.afterAll {m : PayloadMap} (h : m.Built) (calls : List Call) :
    (m.afterAll calls).Built := by
  induction calls generalizing m with
  | nil => exact h
  | cons call rest ih => exact ih (keeps_built call m h).1

theorem IsLoaded.wellFormed {m : PayloadMap} (h : m.IsLoaded) : m.WellFormed := by
  obtain ⟨calls, rfl⟩ := h
  exact (Built.empty.afterAll calls).wellFormed

/-! ## Look-up -/

/-- A payload type is found only if its entry stands in the map. -/
theorem mem_of_find? {m : PayloadMap} {s : Sampling} {payloadType : UInt8}
    (h : m.find? s = some payloadType) : (payloadType, s) ∈ m.entries := by
  obtain ⟨e, he, rfl⟩ := Option.map_eq_some_iff.mp h
  have hs := List.find?_some he
  rw [← eq_of_beq hs]
  exact List.mem_of_find?_eq_some he

theorem mem_of_get? {m : PayloadMap} {payloadType : UInt8} {s : Sampling}
    (h : m.get? payloadType = some s) : (payloadType, s) ∈ m.entries := by
  obtain ⟨e, he, rfl⟩ := Option.map_eq_some_iff.mp h
  have htype := List.find?_some he
  rw [← eq_of_beq htype]
  exact List.mem_of_find?_eq_some he

/-- Where payload types increase, an entry is the first of its payload type. -/
theorem find?_eq_of_mem {entries : List (UInt8 × Sampling)} {e : UInt8 × Sampling}
    (hsorted : entries.Pairwise fun a b => a.1 < b.1) (he : e ∈ entries) :
    entries.find? (·.1 == e.1) = some e := by
  induction entries with
  | nil => cases he
  | cons first rest ih =>
    obtain ⟨hfirst, hrest⟩ := List.pairwise_cons.mp hsorted
    rcases List.mem_cons.mp he with rfl | he
    · exact List.find?_cons_of_pos (beq_self_eq_true _)
    · have hne : (first.1 == e.1) = false :=
        beq_eq_false_iff_ne.mpr (UInt8.ne_of_lt (hfirst e he))
      simp only [List.find?_cons, hne]
      exact ih hrest he

/-- A payload type found for a sampling stands for it. -/
theorem WellFormed.get?_of_find? {m : PayloadMap} (hm : m.WellFormed) {s : Sampling}
    {payloadType : UInt8} (h : m.find? s = some payloadType) : m.get? payloadType = some s := by
  have hget := find?_eq_of_mem hm.sorted (mem_of_find? h)
  rw [PayloadMap.get?, hget]
  rfl

end PayloadMap

/-! ## Selection -/

/-- A selected payload type is one of the two fixed ones, or it is in the map. -/
theorem selectPayloadType_cases {m : PayloadMap} {s : Sampling} {payloadType : UInt8}
    (h : selectPayloadType s m = .ok payloadType) :
    (s = mono ∧ payloadType = monoPayloadType) ∨
      (s = stereo ∧ payloadType = stereoPayloadType) ∨ m.find? s = some payloadType := by
  unfold selectPayloadType at h
  split at h
  next hs =>
    cases h
    exact .inl ⟨hs, rfl⟩
  next =>
    split at h
    next hs =>
      cases h
      exact .inr (.inl ⟨hs, rfl⟩)
    next =>
      split at h
      next found hfind =>
        cases h
        exact .inr (.inr hfind)
      next => cases h

/-- A selected payload type fits in the seven bits of the header. -/
theorem selectPayloadType_lt {m : PayloadMap} (hm : m.WellFormed) {s : Sampling}
    {payloadType : UInt8} (h : selectPayloadType s m = .ok payloadType) : payloadType < 128 := by
  rcases selectPayloadType_cases h with ⟨-, rfl⟩ | ⟨-, rfl⟩ | hfind
  · decide
  · decide
  · have hle : payloadType ≤ 127 := (hm.admissible _ (PayloadMap.mem_of_find? hfind)).1
    rw [UInt8.le_iff_toNat_le] at hle
    rw [UInt8.lt_iff_toNat_lt]
    exact Nat.lt_succ_of_le hle

/-- A selected payload type stands for its sampling, when the map leaves the two
fixed payload types alone. -/
theorem samplingOf?_of_select {m : PayloadMap} (hm : m.WellFormed)
    (hstereo : m.get? stereoPayloadType = none) (hmono : m.get? monoPayloadType = none)
    {s : Sampling} {payloadType : UInt8} (h : selectPayloadType s m = .ok payloadType) :
    samplingOf? payloadType m = some s := by
  rcases selectPayloadType_cases h with ⟨rfl, rfl⟩ | ⟨rfl, rfl⟩ | hfind
  · rfl
  · rfl
  · have hget := hm.get?_of_find? hfind
    have hnotMono : payloadType ≠ monoPayloadType := by
      rintro rfl
      rw [hmono] at hget
      cases hget
    have hnotStereo : payloadType ≠ stereoPayloadType := by
      rintro rfl
      rw [hstereo] at hget
      cases hget
    rw [samplingOf?, if_neg hnotMono, if_neg hnotStereo, hget]

end MediaTransport.Audio
