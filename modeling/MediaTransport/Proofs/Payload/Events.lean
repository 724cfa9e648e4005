import MediaTransport.Proofs.Payload.Fragmentation
import MediaTransport.Proofs.Varint

/-!
# Events that are sent

An event that is handed in while caps are set goes out at once.  Without caps it waits for the
next call that sets or forgets them: new caps let it out, and a restart drops it.  So what becomes
of an event can be told from the calls before it and the calls after it (`fateBetween`).  The flag
and the queue of the payloader follow these fates: a call flushes the events that it decides to
send (`Ledger.Follows.step_events`), and hence a run flushes and holds what it should
(`Ledger.Follows.fates`).

A unit with an event in it is known by its event type (`Carries.isEventUnit_iff`).  Of all the units
of a run these are the events that are sent, in the order in which they were handed in and each of
them once (`performAll_events`).  Events that still wait when the run ends are not among them
(`performAll_heldEvent`).
-/

namespace MediaTransport.Payload

open Text

/-! ## Handing in -/

/-- Whether a call sets caps or forgets them.  Most calls do neither. -/
def Call.setting? : Call → Option Bool
  | .setCaps _ => some true
  | .reset => some false
  | _ => none

/-- The event that a call hands in. -/
def Call.event? : Call → Option Event
  | .event e => some e
  | _ => none

/-- Whether caps are set after some calls on a new payloader. -/
def capsSet (past : List Call) : Bool :=
  past.reverse.findSome? Call.setting? == some true

/-- Whether caps or a restart come first in some calls. -/
def nextSetting? (calls : List Call) : Option Bool :=
  calls.findSome? Call.setting?

/-- An event that is handed in. -/
structure Handover where
  /-- The calls before. -/
  past : List Call
  /-- The event. -/
  event : Event
  /-- The calls after. -/
  future : List Call

/-- What becomes of an event. -/
inductive Fate where
  /-- It is sent, if its kind is carried. -/
  | sent
  /-- A restart drops it. -/
  | dropped
  /-- It still waits for caps. -/
  | held
  deriving DecidableEq

/-- With caps set an event is sent, and without them the next caps or the next restart decide. -/
def fateBetween (past future : List Call) : Fate :=
  if capsSet past then .sent
  else
    match nextSetting? future with
    | some true => .sent
    | some false => .dropped
    | none => .held

/-- The events that are handed in by the rest of some calls. -/
def handoversFrom (past : List Call) : List Call → List Handover
  | [] => []
  | call :: future =>
    (call.event?.map fun e => ⟨past, e, future⟩).toList ++ handoversFrom (past ++ [call]) future

/-- The events that are handed in by some calls. -/
def handovers (calls : List Call) : List Handover := handoversFrom [] calls

/-- The format carries an event: tags, and custom events of both kinds. -/
def Event.isCarried (e : Event) : Bool :=
  match e.kind with
  | .tag | .customDownstream | .customBoth => true
  | .other => false

/-- Those of the events that have certain fates and that the format carries, in order. -/
def carried (p : Fate → Bool) (hs : List Handover) : List Event :=
  ((hs.filter fun h => p (fateBetween h.past h.future)).map (·.event)).filter Event.isCarried

/-! ## Units of events -/

/-- A flush for an event, under the event type of its kind. -/
def Flush.IsFor (f : Flush) (e : Event) : Prop :=
  ∃ code, e.kind.HasType code ∧ f.cargo = .event code e.text

/-- A unit with an event in it. -/
def CarriesEvent (unit : List Piece) (e : Event) : Prop :=
  ∃ f : Flush, Carries unit f ∧ f.IsFor e

/-- A sub-header tells that there is an event in a unit. -/
def isEventUnit (unit : List Piece) : Bool :=
  unit.any fun piece => piece.header.eventType != 0

/-- Some packets are the units of some events, one for each. -/
def Sends (packets : List (List UInt8)) (es : List Event) : Prop :=
  ∃ pieces : List Piece, packets.mapM Piece.read = .ok pieces ∧
    List.Forall₂ CarriesEvent (cutAtMarkers pieces) es

/-- No event goes out under the type that buffers have. -/
theorem Flush.IsFor.eventType_ne_zero {f : Flush} {e : Event} (h : f.IsFor e) :
    f.cargo.eventType ≠ 0 := by
  obtain ⟨code, hcode, hcargo⟩ := h
  rw [hcargo]
  exact hcode.ne_zero

/-- A flush for an event is never empty, even if its text is. -/
theorem Flush.bytes_ne_nil_of_eventType {f : Flush} (h : f.cargo.eventType ≠ 0) :
    f.bytes ≠ [] := by
  rw [Flush.bytes]
  cases hcargo : f.cargo with
  | event code text => simp [Cargo.bytes, Varint.encode_ne_nil]
  | buffer b => exact absurd (congrArg Cargo.eventType hcargo) h
  | nothing => exact absurd (congrArg Cargo.eventType hcargo) h

/-- The sub-headers of a unit have the event type of its flush. -/
theorem Carries.isEventUnit_iff {unit : List Piece} {f : Flush} (h : Carries unit f) :
    isEventUnit unit = true ↔ f.cargo.eventType ≠ 0 := by
  rw [isEventUnit, List.any_eq_true]
  constructor
  · rintro ⟨piece, hpiece, htype⟩
    obtain ⟨i, hi⟩ := List.getElem?_of_mem hpiece
    rw [h.headers i piece hi] at htype
    simpa [Flush.header] using htype
  · intro htype
    obtain ⟨piece, rest, rfl⟩ := List.exists_cons_of_ne_nil h.occupied
    refine ⟨piece, List.mem_cons_self, ?_⟩
    rw [h.headers 0 piece rfl]
    simpa [Flush.header] using htype

theorem eventType_ne_zero_of_mem {fs : List Flush} {es : List Event}
    (hes : List.Forall₂ Flush.IsFor fs es) : ∀ f ∈ fs, f.cargo.eventType ≠ 0 := by
  intro f hf
  obtain ⟨i, hi, rfl⟩ := List.getElem_of_mem hf
  exact (hes.get hi (by rw [← hes.length_eq]; exact hi)).eventType_ne_zero

/-- If the flushes are for some events, the units carry them. -/
theorem carriesEvents {us : List (List Piece)} {fs : List Flush} {es : List Event}
    (h : List.Forall₂ Carries us fs) (hes : List.Forall₂ Flush.IsFor fs es) :
    List.Forall₂ CarriesEvent us es := by
  induction h generalizing es with
  | nil =>
    cases hes
    exact .nil
  | cons hunit hrest ih =>
    cases hes with
    | cons hfirst hmore => exact .cons ⟨_, hunit, hfirst⟩ (ih hmore)

/-- The units of a run with events in them are those of the flushes for events. -/
theorem Emits.eventUnits {packets : List (List UInt8)} {fs : List Flush} {es : List Event}
    (h : Emits packets fs)
    (hes : List.Forall₂ Flush.IsFor (fs.filter fun f => f.cargo.eventType != 0) es) :
    ∃ pieces : List Piece, packets.mapM Piece.read = .ok pieces ∧
      List.Forall₂ CarriesEvent ((cutAtMarkers pieces).filter isEventUnit) es := by
  obtain ⟨us, hread, hcarries⟩ := h
  have hevents : (fs.filter fun f => f.bytes ≠ []).filter (fun f => f.cargo.eventType != 0)
      = fs.filter fun f => f.cargo.eventType != 0 := by
    rw [List.filter_filter]
    refine List.filter_congr fun f _ => ?_
    by_cases htype : f.cargo.eventType = 0
    · simp [htype]
    · simp [Flush.bytes_ne_nil_of_eventType htype]
  have hunits := List.rel_filter (p := isEventUnit) (q := fun f => f.cargo.eventType != 0)
    (R := Carries) (fun unit f hunit => by simpa using hunit.isEventUnit_iff) hcarries
  rw [hevents] at hunits
  refine ⟨us.flatten, hread, ?_⟩
  rw [cutAtMarkers_flatten hcarries]
  exact carriesEvents hunits hes

/-- What is sent for flushes is sent for their events. -/
theorem Emits.sends {packets : List (List UInt8)} {fs : List Flush} {es : List Event}
    (h : Emits packets fs) (hes : List.Forall₂ Flush.IsFor fs es) : Sends packets es := by
  obtain ⟨us, hread, hcarries⟩ := h
  have hall : ∀ f ∈ fs, decide (f.bytes ≠ []) = true := fun f hf =>
    decide_eq_true (Flush.bytes_ne_nil_of_eventType (eventType_ne_zero_of_mem hes f hf))
  rw [List.filter_eq_self.2 hall] at hcarries
  refine ⟨us.flatten, hread, ?_⟩
  rw [cutAtMarkers_flatten hcarries]
  exact carriesEvents hcarries hes

/-! ## The flushes of a ledger -/

namespace Ledger

/-- An event makes one flush if it is carried and none otherwise. -/
theorem sendEvent_isFor (l : Ledger) (e : Event) :
    List.Forall₂ Flush.IsFor (l.sendEvent e).1 ([e].filter Event.isCarried) := by
  obtain ⟨kind, text⟩ := e
  cases kind with
  | tag => exact .cons ⟨1, .tag, rfl⟩ .nil
  | customDownstream => exact .cons ⟨2, .customDownstream, rfl⟩ .nil
  | customBoth => exact .cons ⟨2, .customBoth, rfl⟩ .nil
  | other => exact .nil

/-- Events go out one after another, each in a flush of its own. -/
theorem sendEvents_isFor (l : Ledger) (es : List Event) :
    List.Forall₂ Flush.IsFor (l.sendEvents es).1 (es.filter Event.isCarried) := by
  induction es generalizing l with
  | nil => exact .nil
  | cons e rest ih =>
    rw [← List.singleton_append, List.filter_append]
    exact List.rel_append (l.sendEvent_isFor e) (ih (l.sendEvent e).2)

/-- Sending an event takes the caps that wait along, and leaves the rest. -/
theorem sendEvent_snd (l : Ledger) (e : Event) :
    ∃ waiting, (l.sendEvent e).2 = { l with waiting } := by
  obtain hnone | ⟨code, hsent⟩ := l.sendEvent_cases e
  · exact ⟨l.waiting, by rw [hnone]⟩
  · exact ⟨[], by rw [hsent]; rfl⟩

theorem sendEvents_snd (l : Ledger) (es : List Event) :
    ∃ waiting, (l.sendEvents es).2 = { l with waiting } := by
  induction es generalizing l with
  | nil => exact ⟨l.waiting, rfl⟩
  | cons e rest ih =>
    obtain ⟨first, hfirst⟩ := l.sendEvent_snd e
    obtain ⟨waiting, hrest⟩ := ih (l.sendEvent e).2
    exact ⟨waiting, by rw [sendEvents, hrest, hfirst]⟩

/-- New caps let the held events out. -/
theorem step_setCaps (l : Ledger) (caps : String) :
    ∃ waiting, (l.step (.setCaps caps)).2
      = { l with hasCaps := true, held := [], waiting, count := l.count + 1 } := by
  obtain ⟨waiting, hsent⟩ := sendEvents_snd { l with hasCaps := true, held := [] } l.held
  refine ⟨waiting ++ [caps], ?_⟩
  change queueCaps (sendEvents { l with hasCaps := true, held := [] } l.held).2 caps = _
  rw [hsent]
  rfl

end Ledger

/-! ## What becomes of events -/

/-- A call that sets or forgets caps hands no event in. -/
theorem Call.event?_of_setting {call : Call} {caps : Bool} (h : call.setting? = some caps) :
    call.event? = none := by
  cases call with
  | event e => cases h
  | _ => rfl

/-- The call that set or unset the caps last decides. -/
theorem capsSet_concat (past : List Call) (call : Call) :
    capsSet (past ++ [call]) = call.setting?.getD (capsSet past) := by
  rw [capsSet, List.reverse_append, List.reverse_singleton, List.singleton_append,
    List.findSome?_cons]
  cases call.setting? with
  | none => rfl
  | some caps => cases caps <;> rfl

/-- The first one of the future is the next. -/
theorem nextSetting?_cons (call : Call) (future : List Call) :
    nextSetting? (call :: future) = call.setting?.or (nextSetting? future) := by
  rw [nextSetting?, List.findSome?_cons]
  cases call.setting? <;> rfl

theorem carried_handoversFrom_cons (p : Fate → Bool) (past : List Call) (call : Call)
    (future : List Call) :
    carried p (handoversFrom past (call :: future))
      = (if p (fateBetween past future) then call.event?.toList.filter Event.isCarried else [])
        ++ carried p (handoversFrom (past ++ [call]) future) := by
  rw [carried, handoversFrom, List.filter_append, List.map_append, List.filter_append, ← carried]
  congr 1
  cases call.event? with
  | none => simp [carried]
  | some e => cases hfate : p (fateBetween past future) <;> simp [carried, hfate]

/-- A ledger after some calls: without caps it may hold events. -/
structure Ledger.Follows (l : Ledger) (past : List Call) : Prop where
  /-- It knows whether caps are set. -/
  hasCaps : l.hasCaps = capsSet past
  /-- With caps set nothing is held. -/
  held : capsSet past = true → l.held = []

namespace Ledger.Follows

variable {l : Ledger} {past : List Call}

/-- The ledger knows after each call whether caps are set. -/
theorem step (h : l.Follows past) (call : Call) : (l.step call).2.Follows (past ++ [call]) := by
  have hset := capsSet_concat past call
  cases call with
  | setCaps caps =>
    obtain ⟨waiting, hstep⟩ := l.step_setCaps caps
    rw [hstep]
    exact ⟨hset.symm, fun _ => rfl⟩
  | event e =>
    rw [Ledger.step]
    split
    next hcaps =>
      obtain ⟨waiting, hsent⟩ := l.sendEvent_snd e
      rw [hsent]
      exact ⟨h.hasCaps.trans hset.symm, fun hcaps => h.held (hset.symm.trans hcaps)⟩
    next hcaps =>
      refine ⟨h.hasCaps.trans hset.symm, fun hafter => absurd ?_ hcaps⟩
      exact h.hasCaps.trans (hset.symm.trans hafter)
  | reset => exact ⟨hset.symm, fun _ => rfl⟩
  | setMtu | buffer | flush =>
    exact ⟨h.hasCaps.trans hset.symm, fun hcaps => h.held (hset.symm.trans hcaps)⟩

/-- What a call does to events.  Caps let the held ones out, a restart drops them, and other calls
send their own event with caps set and hold it without. -/
theorem step_events (h : l.Follows past) (call : Call) :
    List.Forall₂ Flush.IsFor ((l.step call).1.filter fun f => f.cargo.eventType != 0)
      (match call.setting? with
        | some true => l.held.filter Event.isCarried
        | some false => []
        | none => if capsSet past then call.event?.toList.filter Event.isCarried else []) ∧
    (l.step call).2.held.filter Event.isCarried =
      match call.setting? with
      | some _ => []
      | none =>
        if capsSet past then []
        else l.held.filter Event.isCarried ++ call.event?.toList.filter Event.isCarried := by
  have hkeep : ∀ {fs : List Flush} {es : List Event}, List.Forall₂ Flush.IsFor fs es →
      List.Forall₂ Flush.IsFor (fs.filter fun f => f.cargo.eventType != 0) es := by
    intro fs es hes
    rwa [List.filter_eq_self.2 fun f hf => by simpa using eventType_ne_zero_of_mem hes f hf]
  cases call with
  | setCaps caps =>
    obtain ⟨waiting, hstep⟩ := l.step_setCaps caps
    rw [hstep]
    exact ⟨hkeep (Ledger.sendEvents_isFor _ l.held), rfl⟩
  | event e =>
    rw [Ledger.step]
    split
    next hcaps =>
      obtain ⟨waiting, hsent⟩ := l.sendEvent_snd e
      have hset := h.hasCaps.symm.trans hcaps
      rw [hsent]
      simp only [Call.setting?, hset, if_true, h.held hset]
      exact ⟨hkeep (l.sendEvent_isFor e), rfl⟩
    next hcaps =>
      rw [h.hasCaps] at hcaps
      simp only [Call.setting?, hcaps, Call.event?, Option.toList_some]
      exact ⟨.nil, List.filter_append ..⟩
  | reset => exact ⟨.nil, rfl⟩
  | setMtu | buffer | flush =>
    by_cases hset : capsSet past = true
    · simp only [Call.setting?, hset, if_true, Call.event?, Option.toList_none, List.filter_nil]
      exact ⟨.nil, congrArg (List.filter Event.isCarried) (h.held hset)⟩
    · simp only [Call.setting?, hset, Call.event?, Option.toList_none, List.filter_nil,
        List.append_nil]
      exact ⟨.nil, rfl⟩

/-- The events that are sent are those that are held when caps come first, and those that are handed
in and sent.  What is held afterwards is told in the same way. -/
theorem fates (h : l.Follows past) (calls : List Call) :
    List.Forall₂ Flush.IsFor ((l.flushes calls).filter fun f => f.cargo.eventType != 0)
      ((if nextSetting? calls = some true then l.held.filter Event.isCarried else [])
        ++ carried (· == .sent) (handoversFrom past calls)) ∧
    (l.after calls).held.filter Event.isCarried
      = (if nextSetting? calls = none then l.held.filter Event.isCarried else [])
        ++ carried (· == .held) (handoversFrom past calls) := by
  induction calls generalizing l past with
  | nil => exact ⟨.nil, (List.append_nil _).symm⟩
  | cons call rest ih =>
    obtain ⟨hsent, hheld⟩ := ih (h.step call)
    obtain ⟨hout, hleft⟩ := h.step_events call
    have hafter : l.after (call :: rest) = (l.step call).2.after rest := rfl
    have hboth := List.rel_append hout hsent
    rw [hafter, hheld, Ledger.flushes, List.filter_append, nextSetting?_cons,
      carried_handoversFrom_cons, carried_handoversFrom_cons, hleft]
    rw [hleft] at hboth
    cases hset : call.setting? with
    | some caps =>
      cases caps <;> simpa [hset, Call.event?_of_setting hset] using hboth
    | none =>
      by_cases hcaps : capsSet past = true
      · simpa [hset, hcaps, fateBetween, h.held hcaps] using hboth
      · cases hnext : nextSetting? rest with
        | none => simpa [hset, hcaps, fateBetween, hnext] using hboth
        | some caps => cases caps <;> simpa [hset, hcaps, fateBetween, hnext] using hboth

end Ledger.Follows

theorem follows_start : Ledger.Follows {} [] := ⟨rfl, nofun⟩

theorem follows_after (calls : List Call) : (Ledger.after {} calls).Follows calls := by
  induction calls using List.reverseRecOn with
  | nil => exact follows_start
  | append_singleton calls call ih =>
    rw [Ledger.after, List.foldl_append]
    exact ih.step call

/-- A new payloader holds nothing, so calls on it send and hold only what they hand in. -/
theorem fates_start (calls : List Call) :
    List.Forall₂ Flush.IsFor ((Ledger.flushes {} calls).filter fun f => f.cargo.eventType != 0)
      (carried (· == .sent) (handovers calls)) ∧
    (Ledger.after {} calls).held.filter Event.isCarried
      = carried (· == .held) (handovers calls) := by
  simpa [handovers] using follows_start.fates calls

/-! ## Runs -/

/-- Of all the units that the calls on a new payloader send, those with events in them are the
events that are handed in while caps are set, or without caps and let out by the next caps before a
restart, in order and each once.  With caps set an event goes out in the call that hands it in, and
new caps send all events that are held, each in a unit of its own. -/
theorem performAll_events (payloadType : UInt8) (ssrc : UInt32) (sequence : UInt16)
    (timestamp : UInt32) (calls : List Call) :
    let run := (Call.performAll calls).run (.start payloadType ssrc sequence timestamp)
    (∃ pieces : List Piece, run.1.mapM Piece.read = .ok pieces ∧
      List.Forall₂ CarriesEvent ((cutAtMarkers pieces).filter isEventUnit)
        (carried (· == .sent) (handovers calls))) ∧
    (∀ e : Event, Sends ((Call.event e).perform.run run.2).1
      (if capsSet calls then [e].filter Event.isCarried else [])) ∧
    (∀ caps : String, Sends ((Call.setCaps caps).perform.run run.2).1
      (carried (· == .held) (handovers calls))) := by
  intro run
  have htracks := tracks_start payloadType ssrc sequence timestamp
  have hnumbered := numbered_start payloadType ssrc sequence timestamp
  obtain ⟨-, hafter⟩ := hnumbered.performAll htracks calls
  obtain ⟨hsent, hheld⟩ := fates_start calls
  refine ⟨(performAll_emits htracks calls).eventUnits hsent, ?_, ?_⟩
  · intro e
    have hfor : List.Forall₂ Flush.IsFor ((Ledger.after {} calls).step (.event e)).1
        (if capsSet calls then [e].filter Event.isCarried else []) := by
      rw [Ledger.step, (follows_after calls).hasCaps]
      split
      next => exact Ledger.sendEvent_isFor _ e
      next => exact .nil
    exact (hafter.perform (.event e)).1.sends hfor
  · intro caps
    have hfor := Ledger.sendEvents_isFor
      { Ledger.after {} calls with hasCaps := true, held := [] } (Ledger.after {} calls).held
    rw [hheld] at hfor
    exact (hafter.perform (.setCaps caps)).1.sends hfor

/-- An event that still waits when the run ends has not been sent, though no restart dropped it. -/
theorem performAll_heldEvent :
    ¬ ∃ pieces : List Piece,
      ((Call.performAll [.event ⟨.tag, "t"⟩]).run (.start 96 1 0 0)).1.mapM Piece.read
        = .ok pieces ∧
      List.Forall₂ CarriesEvent ((cutAtMarkers pieces).filter isEventUnit)
        (carried (· != .dropped) (handovers [.event ⟨.tag, "t"⟩])) := by
  rintro ⟨pieces, hread, hunits⟩
  have hpieces : pieces = [] := by
    cases hread
    rfl
  have hpromised : carried (· != .dropped) (handovers [.event ⟨.tag, "t"⟩])
      = [⟨.tag, "t"⟩] := by decide
  rw [hpieces, hpromised] at hunits
  cases hunits

end MediaTransport.Payload
