import Mathlib.Data.List.Basic
import MediaTransport.Proofs.Text.Hexadecimal
import MediaTransport.Proofs.Text.Separators
import MediaTransport.Rtsp.Delivery

/-!
# Reading a written delivery

A delivery whose profile is one parameter (`Delivery.IsPlain`) is read back from its header
value (`Delivery.parse?_render`): its parameters are trimmed and without semicolons, so they
come apart again, and each of them puts back what it was written for.
-/

namespace MediaTransport.Rtsp

open Text

/-- A profile that is one field of a header value. -/
structure Delivery.IsPlain (d : Delivery) : Prop where
  /-- It has no separator. -/
  semicolon : ';' ∉ d.profile.toList
  /-- There is no blank at its ends. -/
  trimmed : IsTrimmed d.profile.toList

/-! ## Channels -/

/-- The two channels, as they are written. -/
def Delivery.range (d : Delivery) : List Char :=
  (toString d.mediaChannel).toList ++ '-' :: (toString d.reportChannel).toList

/-- Both channels read back from their range. -/
theorem readChannels?_range (d : Delivery) :
    readChannels? d.range = some (d.mediaChannel, d.reportChannel) := by
  have hdash : '-' ∉ (toString d.mediaChannel).toList := by
    intro h
    exact absurd (isDigit_of_mem_toString (n := d.mediaChannel.toNat) h) (by decide)
  rw [readChannels?, Delivery.range, cut?_append hdash]
  simp only [readUInt8?_toString]
  rfl

/-- No semicolon stands inside the range, so it is one parameter. -/
theorem semicolon_not_mem_range (d : Delivery) : ';' ∉ d.range := by
  intro h
  rcases List.mem_append.mp h with h | h
  · exact absurd (isDigit_of_mem_toString (n := d.mediaChannel.toNat) h) (by decide)
  · rcases List.mem_cons.mp h with h | h
    · exact absurd h (by decide)
    · exact absurd (isDigit_of_mem_toString (n := d.reportChannel.toNat) h) (by decide)

theorem solid_range {d : Delivery} : ∀ c ∈ d.range, isBlank c = false := by
  rw [Delivery.range, List.forall_mem_append, List.forall_mem_cons]
  refine ⟨fun c hc => ?_, by decide, fun c hc => ?_⟩
  · exact isBlank_of_isDigit (isDigit_of_mem_toString (n := d.mediaChannel.toNat) hc)
  · exact isBlank_of_isDigit (isDigit_of_mem_toString (n := d.reportChannel.toNat) hc)

/-! ## Parameters -/

/-- The parameters of a delivery, as they are written behind the profile. -/
def Delivery.parameters (d : Delivery) : List (List Char) :=
  (if d.unicast then ["unicast".toList] else []) ++ ["interleaved=".toList ++ d.range]
    ++ (d.ssrc.map fun ssrc => "ssrc=".toList ++ hexUpper 8 ssrc.toNat).toList

/-- A delivery is its profile and its parameters, between semicolons. -/
theorem Delivery.toList_render (d : Delivery) :
    d.render.toList = [';'].intercalate (d.profile.toList :: d.parameters) := by
  obtain ⟨profile, unicast, media, report, ssrc⟩ := d
  cases unicast <;> cases ssrc <;>
    simp [Delivery.render, Delivery.parameters, Delivery.range, List.intercalate_cons_cons]

/-- There are three parameters at most. -/
theorem Delivery.mem_parameters {d : Delivery} {p : List Char} (h : p ∈ d.parameters) :
    p = "unicast".toList ∨ p = "interleaved=".toList ++ d.range ∨
      ∃ ssrc : UInt32, p = "ssrc=".toList ++ hexUpper 8 ssrc.toNat := by
  simp only [Delivery.parameters, List.mem_append, List.mem_singleton, Option.mem_toList,
    Option.map_eq_some_iff] at h
  rcases h with (hunicast | hchannels) | ⟨ssrc, -, hssrc⟩
  · split at hunicast
    next => exact .inl (List.mem_singleton.1 hunicast)
    next => cases hunicast
  · exact .inr (.inl hchannels)
  · exact .inr (.inr ⟨ssrc, hssrc.symm⟩)

theorem Delivery.semicolon_not_mem_parameters {d : Delivery} :
    ∀ p ∈ d.parameters, ';' ∉ p := by
  intro p hp
  rcases Delivery.mem_parameters hp with rfl | rfl | ⟨ssrc, rfl⟩
  · decide
  · rw [List.mem_append, not_or]
    exact ⟨by decide, semicolon_not_mem_range d⟩
  · rw [List.mem_append, not_or]
    exact ⟨by decide, (isHexDigits_hexUpper 8 ssrc.toNat).not_mem rfl⟩

theorem Delivery.isTrimmed_parameters {d : Delivery} : ∀ p ∈ d.parameters, IsTrimmed p := by
  intro p hp
  apply isTrimmed_of_forall
  rcases Delivery.mem_parameters hp with rfl | rfl | ⟨ssrc, rfl⟩
  · simp [isBlank]
  · rw [List.forall_mem_append]
    exact ⟨by simp [isBlank], solid_range⟩
  · rw [List.forall_mem_append]
    exact ⟨by simp [isBlank], (isHexDigits_hexUpper 8 ssrc.toNat).isBlank_eq_false⟩

theorem put?_unicast (p : Parameters) :
    p.put? "unicast".toList = some { p with unicast := true } :=
  rfl

theorem put?_channels (p : Parameters) (d : Delivery) :
    p.put? ("interleaved=".toList ++ d.range)
      = some { p with channels := some (d.mediaChannel, d.reportChannel) } := by
  have hother : equalsIgnoringCase ("interleaved=".toList ++ d.range) "unicast".toList = false := by
    simp [equalsIgnoringCase]
  rw [Parameters.put?, hother, if_neg Bool.false_ne_true, afterOpening?_append]
  simp [readChannels?_range]

/-- The sender reads back from its eight hexadecimal digits. -/
theorem put?_sender (p : Parameters) (ssrc : UInt32) :
    p.put? ("ssrc=".toList ++ hexUpper 8 ssrc.toNat) = some { p with ssrc := some ssrc } := by
  have hother : equalsIgnoringCase ("ssrc=".toList ++ hexUpper 8 ssrc.toNat) "unicast".toList
      = false := by
    simp [equalsIgnoringCase]
  have hrange : afterOpening? "interleaved=".toList ("ssrc=".toList ++ hexUpper 8 ssrc.toNat)
      = none := rfl
  rw [Parameters.put?, hother, if_neg Bool.false_ne_true, hrange, afterOpening?_append]
  simp

/-- The parameters of a delivery say what it is. -/
theorem foldlM_parameters (d : Delivery) :
    d.parameters.foldlM Parameters.put? {}
      = some ⟨d.unicast, some (d.mediaChannel, d.reportChannel), d.ssrc⟩ := by
  unfold Delivery.parameters
  cases d.unicast <;> cases d.ssrc <;>
    simp only [if_true, if_false, Bool.false_eq_true, List.nil_append, List.append_nil,
      List.cons_append, Option.map_none, Option.map_some, Option.toList_none, Option.toList_some,
      List.foldlM_cons, List.foldlM_nil, put?_unicast, put?_channels, put?_sender, Option.bind_eq_bind,
      Option.bind_some, Option.pure_def]

/-- A delivery reads back. -/
theorem Delivery.parse?_render {d : Delivery} (h : d.IsPlain) :
    Delivery.parse? d.render = some d := by
  have hpieces : d.render.toList.splitOn ';' = d.profile.toList :: d.parameters := by
    refine splitOn_eq_iff.2 ⟨List.cons_ne_nil _ _, ?_, d.toList_render.symm⟩
    exact List.forall_mem_cons.2 ⟨h.semicolon, semicolon_not_mem_parameters⟩
  have htrim : d.parameters.map trim = d.parameters := by
    rw [List.map_congr_left fun p hp => (isTrimmed_parameters p hp).trim_eq, List.map_id']
  rw [Delivery.parse?, hpieces, List.map_cons, htrim, h.trimmed.trim_eq]
  simp [foldlM_parameters]

end MediaTransport.Rtsp
