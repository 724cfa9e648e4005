import MediaTransport.Proofs.Audio.Packets
import MediaTransport.Proofs.Sdp.RoundTrip

/-!
# Announcements

A sender of audio announces itself by a section with one `rtpmap` attribute.  A receiver that
is handed a description with this section finds the payload type, the rate and the channels
in it, and nothing else.

Two round trips are put together.  The section is well formed, so it is read back from the
text of the description (`announcement_wellFormed`); its attribute is read back from its
value (`ofText?_value`).  What is left is that the entry is not refused.  It is not, since
every packetizer that can be reached is valid (`Packetizer.Reachable.valid`).
-/

namespace MediaTransport.Audio

open Text Sdp

/-! ## The attribute -/

theorem isTrimmed_between {first last : List Char} (hfirst : IsWord first) (hlast : IsWord last)
    (middle : List Char) : IsTrimmed (first ++ (middle ++ last)) where
  head := by
    intro c hc
    rw [List.head?_append_of_ne_nil _ hfirst.ne_nil] at hc
    exact hfirst.isTrimmed.head c hc
  last := by
    intro c hc
    rw [← List.append_assoc, List.getLast?_append_of_ne_nil _ hlast.ne_nil] at hc
    exact hlast.isTrimmed.last c hc

/-- There are only digits in a number. -/
theorem not_mem_toString {c : Char} (hc : c.isDigit = false) (n : ℕ) :
    c ∉ (toString n).toList := by
  intro hmem
  rw [isDigit_of_mem_toString hmem] at hc
  cases hc

/-- The value of the attribute for a payload type. -/
def rtpMapValue (payloadType : UInt8) (encoding : List Char) (s : Sampling) : List Char :=
  (toString payloadType).toList ++ ' ' :: (encoding ++ '/' :: ((toString s.rate).toList
    ++ '/' :: (toString s.channels).toList))

/-- A payload type, an encoding, a rate and channels are read back from the value that they
are written to. -/
theorem ofText?_value {encoding : List Char} (hword : IsWord encoding) (hslash : '/' ∉ encoding)
    (payloadType : UInt8) (s : Sampling) :
    RtpMap.ofText? (rtpMapValue payloadType encoding s)
      = some ⟨payloadType, String.ofList encoding, s.rate, some s.channels⟩ := by
  have htype : IsWord (toString payloadType).toList := isWord_toString payloadType.toNat
  have hchannels : IsWord (toString s.channels).toList := isWord_toString s.channels.toNat
  have hvalue : trim (rtpMapValue payloadType encoding s) = rtpMapValue payloadType encoding s := by
    have htrimmed := isTrimmed_between htype hchannels
      (' ' :: (encoding ++ '/' :: ((toString s.rate).toList ++ ['/'])))
    simpa [rtpMapValue] using htrimmed.trim_eq
  have hrest : trim (encoding ++ '/' :: ((toString s.rate).toList
      ++ '/' :: (toString s.channels).toList))
        = encoding ++ '/' :: ((toString s.rate).toList ++ '/' :: (toString s.channels).toList) := by
    have htrimmed := isTrimmed_between hword hchannels ('/' :: ((toString s.rate).toList ++ ['/']))
    simpa using htrimmed.trim_eq
  have hblank : ' ' ∉ (toString payloadType).toList := not_mem_toString rfl payloadType.toNat
  have hcut : cut? ' ' (rtpMapValue payloadType encoding s)
      = some ((toString payloadType).toList, encoding ++ '/' :: ((toString s.rate).toList
        ++ '/' :: (toString s.channels).toList)) := cut?_append hblank _
  have hpieces : (encoding ++ '/' :: ((toString s.rate).toList
      ++ '/' :: (toString s.channels).toList)).splitOn '/'
        = [encoding, (toString s.rate).toList, (toString s.channels).toList] :=
    splitOn_three hslash (not_mem_toString rfl s.rate.toNat)
      (not_mem_toString rfl s.channels.toNat)
  simp [RtpMap.ofText?, hvalue, hcut, hrest, hpieces]

/-! ## The section -/

variable {p : Packetizer}

/-- A packetizer announces one mapping, of its payload type to its sampling. -/
theorem attributes_eq (p : Packetizer) : p.attributes = [⟨"rtpmap", some (String.ofList
    (rtpMapValue p.sender.payloadType encodingName.toList p.format.toSampling))⟩] := by
  have hvalue : toString p.sender.payloadType ++ " " ++ encodingName ++ "/" ++ p.format.render
      = String.ofList
        (rtpMapValue p.sender.payloadType encodingName.toList p.format.toSampling) := by
    apply String.toList_injective
    simp [rtpMapValue, Sampling.render]
  rw [Packetizer.attributes, hvalue]

/-- The value ends its line, since it is made of words with marks between them. -/
theorem endsLine_rtpMapValue {encoding : List Char} (hword : IsWord encoding)
    (payloadType : UInt8) (s : Sampling) : EndsLine (rtpMapValue payloadType encoding s) := by
  have hnumber : ∀ n : ℕ, EndsLine (toString n).toList := fun n => (isWord_toString n).endsLine
  have hblank : EndsLine [' '] := .of_getLast? (by decide) rfl (by decide)
  have hslash : EndsLine ['/'] := .of_getLast? (by decide) rfl (by decide)
  have hrate := hslash.append ((hnumber s.rate.toNat).append
    (hslash.append (hnumber s.channels.toNat)))
  exact (hnumber payloadType.toNat).append (hblank.append (hword.endsLine.append hrate))

theorem isWord_encodingName : IsWord encodingName.toList := by decide

/-- The announcement can stand in a session description. -/
theorem announcement_wellFormed (p : Packetizer) {media : String} (hmedia : IsWord media.toList)
    (port : UInt16) : (p.announcement media port).WellFormed := by
  refine Section.ofStream_wellFormed hmedia port p.sender.payloadType ?_
  have hends := endsLine_rtpMapValue isWord_encodingName p.sender.payloadType p.format.toSampling
  rw [attributes_eq, List.forall_mem_singleton]
  exact ⟨by simp, by simp, nofun, by simpa using hends⟩

/-! ## Reachable packetizers -/

/-- The packetizers that come up.  A call that is refused changes nothing, so it is left out. -/
inductive Packetizer.Reachable : Packetizer → Prop
  /-- A new packetizer for a map that can be built. -/
  | build {format : Format} {map : PayloadMap} {ssrc : UInt32} {sequence : UInt16}
    {timestamp : UInt32} {p : Packetizer} (hmap : map.Built)
    (h : Packetizer.build format map ssrc sequence timestamp = .ok p) : Reachable p
  /-- Another size of packets. -/
  | withMtu {p p' : Packetizer} {mtu : ℕ} (hp : Reachable p) (h : p.withMtu mtu = .ok p') :
    Reachable p'
  /-- Another format. -/
  | withFormat {p p' : Packetizer} {format : Format} (hp : Reachable p)
    (h : p.withFormat format = .ok p') : Reachable p'
  /-- A buffer that was sent. -/
  | packetize {p : Packetizer} (hp : Reachable p) (buffer : Buffer) :
    Reachable ((Packetizer.packetize buffer).run p).2
  /-- A break in the timeline. -/
  | discontinuity {p : Packetizer} (hp : Reachable p) : Reachable p.discontinuity

theorem Packetizer.Valid.withFormat (h : p.Valid) {format : Format} {p' : Packetizer}
    (hformat : p.withFormat format = .ok p') : p'.Valid := by
  unfold Packetizer.withFormat at hformat
  cases hselect : payloadTypeFor format p.map p.mtu with
  | error e =>
    rw [hselect] at hformat
    cases hformat
  | ok payloadType =>
    rw [hselect] at hformat
    cases hformat
    obtain ⟨hoccupied, hroom, hpayloadType⟩ := payloadTypeFor_eq_ok hselect
    have hcut := Rtp.and_low_eq (selectPayloadType_lt h.map hpayloadType)
    exact ⟨h.map, hoccupied, hroom, by rw [hpayloadType, Rtp.Sender.withPayloadType, hcut]⟩

/-- All packetizers that come up are valid. -/
theorem Packetizer.Reachable.valid (h : p.Reachable) : p.Valid := by
  induction h with
  | build hmap h => exact (build_eq_ok hmap.wellFormed h).1
  | withMtu _ h ih => exact (ih.withMtu h).1
  | withFormat _ h ih => exact ih.withFormat h
  | packetize _ buffer ih =>
    rw [packetize_run]
    exact ih.withSender (foldl_pass_payloadType _ _ _)
  | discontinuity _ ih => exact ih.withSender rfl

/-! ## Reading the announcement -/

/-- The mapping is found again in the announcement. -/
theorem rtpMaps_announcement (p : Packetizer) (media : String) (port : UInt16) :
    (p.announcement media port).rtpMaps
      = [⟨p.sender.payloadType, encodingName, p.format.rate, some p.format.channels⟩] := by
  have hread := ofText?_value isWord_encodingName (by decide) p.sender.payloadType
    p.format.toSampling
  rw [String.ofList_toList] at hread
  rw [Section.rtpMaps, Packetizer.announcement, Section.ofStream, attributes_eq]
  simp [hread]

/-- The entry of a valid packetizer is not refused. -/
theorem Packetizer.Valid.addRtpMap (h : p.Valid) :
    PayloadMap.empty.addRtpMap
        ⟨p.sender.payloadType, encodingName, p.format.rate, some p.format.channels⟩
      = ⟨[(p.sender.payloadType, p.format.toSampling)]⟩ := by
  have hlow : ¬p.sender.payloadType > 127 := by
    have hlt := UInt8.lt_iff_toNat_lt.1 h.payloadType_lt
    rw [gt_iff_lt, UInt8.lt_iff_toNat_lt]
    exact Nat.not_lt.2 (Nat.le_of_lt_succ hlt)
  have hcheck : p.format.check = .ok () := if_neg (not_or.2 h.occupied)
  have hinsert : PayloadMap.empty.insert p.sender.payloadType p.format.toSampling
      = .ok ⟨[(p.sender.payloadType, p.format.toSampling)]⟩ := by
    rw [PayloadMap.insert, if_neg hlow, hcheck]
    rfl
  have hname : isL16 encodingName.toList = true := by decide
  rw [PayloadMap.addRtpMap, if_pos hname, Option.getD_some, hinsert]

/-- A description with the announcement of a packetizer is read back from its text, and a map
that is collected from it has the payload type of the packetizer for its rate and channels, and
no other entry. -/
theorem announcement_understood (hp : p.Reachable) {media name : String}
    (hmedia : IsWord media.toList) (hname : '\n' ∉ name.toList) (port : UInt16) :
    ∃ d, Description.parse
        (Description.render { name, media := [p.announcement media port] }) = .ok d ∧
      d.media = [p.announcement media port] ∧
      (PayloadMap.ofDescription d).entries = [(p.sender.payloadType, p.format.toSampling)] := by
  have hwell := description_wellFormed (announcement_wellFormed p hmedia port)
  refine ⟨_, Description.parse_render_named hwell hname, rfl, ?_⟩
  simp [PayloadMap.ofDescription, Description.withOrigin, rtpMaps_announcement, hp.valid.addRtpMap]

/-- A packetizer that was built for stereo and then set to six channels, in a session whose
name ends in a carriage return. -/
theorem announcement_understood_surround :
    ∃ p : Packetizer, p.Reachable ∧ IsWord "audio".toList ∧ '\n' ∉ "v=0 a:b\r".toList ∧
      ∃ d, Description.parse
          (Description.render { name := "v=0 a:b\r", media := [p.announcement "audio" 5004] })
            = .ok d ∧
        d.media = [p.announcement "audio" 5004] ∧
        (PayloadMap.ofDescription d).entries = [(96, ⟨48000, 6⟩)] := by
  have hinsert : PayloadMap.empty.insert 96 ⟨48000, 6⟩ = .ok ⟨[(96, ⟨48000, 6⟩)]⟩ := rfl
  have hmap : PayloadMap.Built ⟨[(96, ⟨48000, 6⟩)]⟩ := .insert .empty hinsert
  have hbuild : Packetizer.build .initial ⟨[(96, ⟨48000, 6⟩)]⟩ 7 1 2
      = .ok ⟨⟨10, 7, 1, 2⟩, .initial, ⟨[(96, ⟨48000, 6⟩)]⟩, 1400⟩ := rfl
  have hmtu : Packetizer.withMtu ⟨⟨10, 7, 1, 2⟩, .initial, ⟨[(96, ⟨48000, 6⟩)]⟩, 1400⟩ 24
      = .ok ⟨⟨10, 7, 1, 2⟩, .initial, ⟨[(96, ⟨48000, 6⟩)]⟩, 24⟩ := rfl
  have hformat : Packetizer.withFormat ⟨⟨10, 7, 1, 2⟩, .initial, ⟨[(96, ⟨48000, 6⟩)]⟩, 24⟩
      ⟨⟨48000, 6⟩, .little⟩
        = .ok ⟨⟨96, 7, 1, 2⟩, ⟨⟨48000, 6⟩, .little⟩, ⟨[(96, ⟨48000, 6⟩)]⟩, 24⟩ := rfl
  have hreachable := ((Packetizer.Reachable.build hmap hbuild).withMtu hmtu).withFormat hformat
  have hmedia : IsWord "audio".toList := by decide
  exact ⟨_, hreachable, hmedia, by decide,
    announcement_understood hreachable hmedia (by decide) 5004⟩

end MediaTransport.Audio
