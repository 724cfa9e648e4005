import MediaTransport.Proofs.Payload.InlineCaps
import MediaTransport.Proofs.Sdp.RoundTrip
import MediaTransport.Proofs.Text.Base64

/-!
# Announcements of caps

A payloader announces the last caps that it was given and their version.  Nothing but new caps
changes them: a flush and a restart leave what is announced as it is (`perform_told`).  So it can be
told from the caps of a run alone (`performAll_told`).

The caps stand in a line of a description, and may have any characters in them, also those that end
a line or a value.  They are written in Base64, which has none of these, so the section is read back
and the bytes of the caps come out again.
-/

namespace MediaTransport.Payload

open Text Sdp

/-! ## The caps that are announced -/

/-- What is announced: the caps and their version. -/
def Payloader.told (p : Payloader) : Option String × UInt8 :=
  (p.caps, p.capsVersion)

/-- What is to be announced after some caps: the last of them, and the version that they have. -/
def toldOf (past : List String) : Option String × UInt8 :=
  (past.getLast?, UInt8.ofNat (versionOf past.length))

/-- Events do not change what is announced. -/
theorem sendEvent_told (p : Payloader) (e : Event) :
    ((Payloader.sendEvent e).run p).2.told = p.told := by
  cases hcode : e.kind.code? with
  | none =>
    rw [Payloader.sendEvent, hcode]
    rfl
  | some code =>
    rw [Tracks.sendEvent_run p hcode, Payloader.flush_run]
    rfl

theorem sendEvents_told (p : Payloader) (es : List Event) :
    ((es.mapM Payloader.sendEvent).run p).2.told = p.told := by
  induction es generalizing p with
  | nil => rfl
  | cons e rest ih =>
    rw [List.mapM_cons]
    exact (ih ((Payloader.sendEvent e).run p).2).trans (sendEvent_told p e)

theorem atTime_told (p : Payloader) (time : Option ℕ) : (p.atTime time).told = p.told := by
  rw [Tracks.atTime_flags p p.flags time]
  rfl

/-- Only new caps change what is announced. -/
theorem perform_told {call : Call} (h : call.caps = []) (p : Payloader) :
    (call.perform.run p).2.told = p.told := by
  cases call with
  | setMtu mtu =>
    change ((p.withMtu mtu).toOption.getD p).told = p.told
    unfold Payloader.withMtu
    split <;> rfl
  | setCaps caps => cases h
  | event e =>
    rw [Call.perform, Tracks.handleEvent_run]
    split
    · exact sendEvent_told p e
    · rfl
  | buffer b =>
    change (Payloader.flush.run _).2.told = _
    rw [Payloader.flush_run]
    exact atTime_told { p with flags := p.flags ||| flagBits b.flags } b.time
  | flush =>
    rw [Call.perform, Payloader.flush_run]
    rfl
  | reset => rfl

/-- New caps are announced under the next version. -/
theorem setCaps_told {p : Payloader} {l : Ledger} (h : Tracks p l) (caps : String) :
    ((Call.setCaps caps).perform.run p).2.told = (some caps, UInt8.ofNat (l.count % 8)) := by
  rw [← h.nextVersion]
  exact sendEvents_told { p with
    capsVersion := p.nextVersion, hasCaps := true, caps := some caps, held := [] } p.held

theorem Call.caps_cases (call : Call) : call.caps = [] ∨ ∃ caps, call = .setCaps caps := by
  cases call with
  | setCaps caps => exact .inr ⟨caps, rfl⟩
  | _ => exact .inl rfl

/-- After a call the caps that are announced are still the last ones. -/
theorem perform_toldOf {p : Payloader} {l : Ledger} {past : List String} (h : Tracks p l)
    (hcount : l.count = past.length) (htold : p.told = toldOf past) (call : Call) :
    (call.perform.run p).2.told = toldOf (past ++ call.caps) := by
  obtain hnone | ⟨caps, rfl⟩ := call.caps_cases
  · rw [perform_told hnone, htold, hnone, List.append_nil]
  · have hversion : versionOf (past ++ [caps]).length = l.count % 8 := by
      rw [List.length_append, List.length_singleton, hcount]
      rfl
    refine (setCaps_told h caps).trans ?_
    rw [Call.caps, toldOf, List.getLast?_concat, hversion]

/-- After a run the announcement tells the caps set last, under their version. -/
theorem performAll_told {p : Payloader} {l : Ledger} {past : List String} (h : Tracks p l)
    (hcount : l.count = past.length) (htold : p.told = toldOf past) (calls : List Call) :
    ((Call.performAll calls).run p).2.told = toldOf (past ++ capsOf calls) := by
  induction calls generalizing p l past with
  | nil =>
    rw [capsOf, List.flatMap_nil, List.append_nil]
    exact htold
  | cons call rest ih =>
    have hnext : (l.step call).2.count = (past ++ call.caps).length := by
      rw [count_step, hcount, List.length_append]
    have hrest := ih (h.perform call).2 hnext (perform_toldOf h hcount htold call)
    rw [List.append_assoc] at hrest
    exact hrest

/-! ## The section -/

/-- The value that announces caps: their bytes in Base64, and their version. -/
def capsValue (payloadType : UInt8) (caps : String) (version : UInt8) : String :=
  toString payloadType ++ " caps=" ++ String.ofList (Base64.encode (Utf8.encode caps))
    ++ ";capsversion=" ++ toString version

theorem endsLine_toString (n : ℕ) : EndsLine (toString n).toList :=
  (isWord_toString n).endsLine

/-- The caps stand in Base64, so they can hold line breaks without ending the line. -/
theorem endsLine_capsValue (payloadType : UInt8) (caps : String) (version : UInt8) :
    EndsLine (capsValue payloadType caps version).toList := by
  have hcaps : EndsLine " caps=".toList := .of_getLast? (by decide) rfl (by decide)
  have hversion : EndsLine ";capsversion=".toList := .of_getLast? (by decide) rfl (by decide)
  have hdigits : EndsLine (Base64.encode (Utf8.encode caps)) :=
    endsLine_of_forall fun c hc => Base64.isBlank_of_mem_encode hc
  simp only [capsValue, String.toList_append, String.toList_ofList]
  exact ((((endsLine_toString payloadType.toNat).append hcaps).append hdigits).append
    hversion).append (endsLine_toString version.toNat)

/-- The value that announces the format itself. -/
def formatValue (payloadType : UInt8) : String :=
  toString payloadType ++ " " ++ encodingName ++ "/" ++ toString clockRate

theorem endsLine_formatValue (payloadType : UInt8) :
    EndsLine (formatValue payloadType).toList := by
  have hblank : EndsLine " ".toList := .of_getLast? (by decide) rfl (by decide)
  have hname : EndsLine encodingName.toList := .of_getLast? (by decide) rfl (by decide)
  have hslash : EndsLine "/".toList := .of_getLast? (by decide) rfl (by decide)
  simp only [formatValue, String.toList_append]
  exact ((((endsLine_toString payloadType.toNat).append hblank).append hname).append hslash).append
    (endsLine_toString clockRate)

/-- There is one mapping and, once caps are set, one format line. -/
theorem attributes_eq {p : Payloader} {caps : String} (h : p.caps = some caps) :
    p.attributes = [⟨"rtpmap", some (formatValue p.sender.payloadType)⟩,
      ⟨"fmtp", some (capsValue p.sender.payloadType caps p.capsVersion)⟩] := by
  rw [Payloader.attributes, h]
  rfl

/-- The announcement can stand in a session description. -/
theorem announcement_wellFormed {p : Payloader} {caps : String} (h : p.caps = some caps)
    {media : String} (hmedia : IsWord media.toList) (port : UInt16) :
    (p.announcement media port).WellFormed := by
  refine Section.ofStream_wellFormed hmedia port p.sender.payloadType ?_
  rw [attributes_eq h, List.forall_mem_cons, List.forall_mem_singleton]
  refine ⟨⟨by simp, by simp, nofun, ?_⟩, ⟨by simp, by simp, nofun, ?_⟩⟩
  · rintro value ⟨⟩
    exact endsLine_formatValue p.sender.payloadType
  · rintro value ⟨⟩
    exact endsLine_capsValue p.sender.payloadType caps p.capsVersion

/-- Whatever the calls on a new payloader are, once caps were given its section is read back from
the text of a description.  The section names the payload type, the version of the last caps, which
counts the caps modulo eight, and a text between them that stands for the bytes of these caps. -/
theorem announcement_afterCaps (payloadType : UInt8) (ssrc : UInt32) (sequence : UInt16)
    (timestamp : UInt32) (calls : List Call) {caps : String}
    (hcaps : (capsOf calls).getLast? = some caps) {p : Payloader}
    (hp : ((Call.performAll calls).run (.start payloadType ssrc sequence timestamp)).2 = p)
    {media name : String} (hmedia : IsWord media.toList) (hname : '\n' ∉ name.toList)
    (port : UInt16) :
    ∃ d, Description.parse
        (Description.render { name, media := [p.announcement media port] }) = .ok d ∧
      d.media = [p.announcement media port] ∧
      p.capsVersion.toNat = ((capsOf calls).length - 1) % 8 ∧
      ∃ text : String, ';' ∉ text.toList ∧
        Base64.decode? text.toList = some (Utf8.encode caps) ∧
        (p.announcement media port).attributes.filter (fun a => a.name = "fmtp")
          = [⟨"fmtp", some (toString p.sender.payloadType ++ " caps=" ++ text ++ ";capsversion="
            ++ toString p.capsVersion)⟩] := by
  have htracks := tracks_start payloadType ssrc sequence timestamp
  have htold : ((Call.performAll calls).run (.start payloadType ssrc sequence timestamp)).2.told
      = toldOf ([] ++ capsOf calls) := performAll_told htracks rfl rfl calls
  rw [hp, List.nil_append, toldOf, hcaps] at htold
  have hlast : p.caps = some caps := congrArg Prod.fst htold
  have hversion : p.capsVersion = UInt8.ofNat (versionOf (capsOf calls).length) :=
    congrArg Prod.snd htold
  have hwell := description_wellFormed (announcement_wellFormed hlast hmedia port)
  refine ⟨_, Description.parse_render_named hwell hname, rfl, ?_,
    String.ofList (Base64.encode (Utf8.encode caps)), ?_, ?_, ?_⟩
  · have hlt := versionOf_lt (capsOf calls).length
    rw [hversion, UInt8.toNat_ofNat', Nat.mod_eq_of_lt (by omega)]
    rfl
  · rw [String.toList_ofList]
    have hall : ';' ∉ '=' :: Base64.alphabet := by decide
    exact fun hmem => hall (Base64.mem_encode hmem)
  · rw [String.toList_ofList, Base64.decode?_encode]
  · change p.attributes.filter _ = _
    rw [attributes_eq hlast]
    rfl

/-- Caps that end a line and a value, given after nine others and before a restart. -/
def manyCaps : List Call :=
  List.replicate 9 (.setCaps "a") ++ [.setCaps "x:y;\r\nm=é", .flush, .reset]

theorem announcement_afterCaps_restarted :
    (capsOf manyCaps).getLast? = some "x:y;\r\nm=é" ∧ IsWord "audio".toList ∧
    '\n' ∉ "s".toList ∧
    ∃ p d, ((Call.performAll manyCaps).run (.start 96 1 0 0)).2 = p ∧
      Description.parse
        (Description.render { name := "s", media := [p.announcement "audio" 5004] }) = .ok d ∧
      d.media = [p.announcement "audio" 5004] ∧ p.capsVersion.toNat = 1 := by
  have hcaps : (capsOf manyCaps).getLast? = some "x:y;\r\nm=é" := by decide +kernel
  have hmedia : IsWord "audio".toList := by decide
  have hname : '\n' ∉ "s".toList := by decide
  obtain ⟨d, hparse, hsection, hversion, -⟩ :=
    announcement_afterCaps 96 1 0 0 manyCaps hcaps rfl hmedia hname 5004
  exact ⟨hcaps, hmedia, hname, _, d, rfl, hparse, hsection, hversion⟩

end MediaTransport.Payload
