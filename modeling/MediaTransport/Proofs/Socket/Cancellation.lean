import MediaTransport.Proofs.Socket.Deliveries

/-!
# Cancellations

Someone asks to stop at any time, and whoever calls for the next item is told so once for
each request, before anything else.  So cancellations are conserved: each is pending or has
been handed on, also over the closing and the opening of the sockets (`transcript_counts`).

A turn of the receive loop spends one cancellation and nothing else, or none (`Spends`).  No
other operation looks at them.  So when operations run one at a time, a run without its
cancellations has the results that are left (`transcript_kept`): an operation is one that is
left out, or it does the same to the source without cancellations (`perform_quiet`).
-/

namespace MediaTransport.Socket

open Address

/-! ## Operations -/

/-- What can be done with a source, active or not. -/
inductive Operation where
  /-- What can happen to an active source. -/
  | move (m : Move)
  /-- The sockets are closed. -/
  | deactivate

/-- What comes of an operation. -/
abbrev Outcome := Except Error (Option Item)

/-- The outcome of an operation and the source after it.  The receive loop takes turns while
the source is active. -/
def Operation.perform : Operation → Source → Outcome × Source
  | .move (.arrive port d), s => (.ok none, s.arrive port d)
  | .move (.senders hosts), s => (.ok none, s.withSenders hosts)
  | .move (.includeSender wanted), s => (.ok none, { s with includeSender := wanted })
  | .move .cancel, s => (.ok none, s.cancel)
  | .move (.activate n taken), s =>
    (((activate n taken).run.run s).1.map fun _ => none, ((activate n taken).run.run s).2)
  | .move (.turn lookup), s =>
    if s.isActive then (.ok (s.turn lookup).1, (s.turn lookup).2) else (.error .notActive, s)
  | .move (.call lookup), s => (nextItem lookup).run.run s
  | .deactivate, s => (.ok none, s.deactivate)

/-- The source after some operations. -/
def Source.afterAll (s : Source) (operations : List Operation) : Source :=
  operations.foldl (fun s o => (o.perform s).2) s

theorem afterAll_cons (s : Source) (o : Operation) (rest : List Operation) :
    s.afterAll (o :: rest) = (o.perform s).2.afterAll rest :=
  rfl

/-- Some operations with their outcomes. -/
def Source.transcript : Source → List Operation → List (Operation × Outcome)
  | _, [] => []
  | s, o :: rest => (o, (o.perform s).1) :: (o.perform s).2.transcript rest

/-- Someone asks to stop. -/
def Operation.isCancel : Operation → Bool
  | .move .cancel => true
  | _ => false

/-- The receive loop takes a turn, and something else may happen before the call returns. -/
def Operation.isTurn : Operation → Bool
  | .move (.turn _) => true
  | _ => false

/-- Someone is told to stop. -/
def isCanceled : Outcome → Bool
  | .ok (some .canceled) => true
  | _ => false

/-- Someone asks to stop, or is told to. -/
def isCancellation (entry : Operation × Outcome) : Bool :=
  entry.1.isCancel || isCanceled entry.2

/-- What is left without the cancellations. -/
def kept (entries : List (Operation × Outcome)) : List (Operation × Outcome) :=
  entries.filter fun entry => !isCancellation entry

/-- The source without its cancellations. -/
def Source.quiet (s : Source) : Source :=
  { s with cancellations := 0 }

/-! ## Counting -/

/-- A cancellation is spent when it is handed on, and none is held back. -/
structure Spends (s : Source) (outcome : Outcome) (s' : Source) : Prop where
  spent : (isCanceled outcome).toNat + s'.cancellations = s.cancellations
  held : s'.held ≠ some .canceled

section

variable {s s' : Source}

theorem isCanceled_of_ne {item : Item} (h : item ≠ .canceled) :
    isCanceled (.ok (some item)) = false := by
  cases item with
  | canceled => exact absurd rfl h
  | discontinuity | data | control => rfl

/-- What is accepted is no cancellation, and neither is the discontinuity before it. -/
theorem spends_accept (hs : s.held ≠ some .canceled) {item : Item} (hitem : item ≠ .canceled) :
    Spends s (.ok (s.accept item).1) (s.accept item).2 := by
  unfold Source.accept
  split
  next => exact ⟨Nat.zero_add _, fun h => hitem (Option.some.inj h)⟩
  next =>
    refine ⟨?_, hs⟩
    rw [isCanceled_of_ne hitem]
    exact Nat.zero_add _

theorem spends_turns (lookup : Lookup) (n : ℕ) (hs : s.held ≠ some .canceled) :
    Spends s (.ok (s.turns lookup n).1) (s.turns lookup n).2 := by
  induction n generalizing s with
  | zero => exact ⟨Nat.zero_add _, hs⟩
  | succ n ih =>
    obtain ⟨item, s', hturn, hturns⟩ := turn_turnsTo lookup s
    rw [Source.turns, hturn]
    cases hturns with
    | canceled hcancel => exact ⟨Nat.add_sub_cancel' hcancel, hs⟩
    | @held item hcancel hheld =>
      have hitem : item ≠ .canceled := fun heq => hs (by rw [hheld, heq])
      constructor
      · rw [isCanceled_of_ne hitem]
        exact Nat.zero_add _
      · rintro ⟨⟩
    | idle => exact ih hs
    | @accepted port d _ _ hcancel hheld hfirst hadmits haccept =>
      have hrest : (s.afterReading lookup port).held ≠ some .canceled := by
        rwa [afterReading_held]
      have hitem : port.item (s.deliver d) ≠ .canceled := by cases port <;> rintro ⟨⟩
      obtain ⟨hspent, hheld'⟩ := spends_accept hrest hitem
      rw [haccept, afterReading_cancellations] at hspent
      rw [haccept] at hheld'
      exact ⟨hspent, hheld'⟩
    | @dropped port d hcancel hheld hfirst hadmits =>
      have hrest : (s.afterReading lookup port).held ≠ some .canceled := by
        rwa [afterReading_held]
      obtain ⟨hspent, hheld'⟩ := ih hrest
      rw [afterReading_cancellations] at hspent
      exact ⟨hspent, hheld'⟩

/-- What a source has of cancellations, none of which is held back. -/
def HasPending (k : ℕ) (s : Source) : Prop :=
  s.cancellations = k ∧ s.held ≠ some .canceled

theorem keeps_resolvedLocal (lookup : Lookup) (k : ℕ) :
    Keeps (HasPending k) (resolvedLocal lookup) fun _ => True := by
  unfold resolvedLocal
  refine keeps_get.bind fun s hs => ?_
  rcases Pool.resolved (Host.resolve lookup) s.localAddress with ⟨outcome, localAddress⟩
  refine Keeps.bind (keeps_set hs) fun _ _ => (keeps_liftM outcome).bind fun r _ => ?_
  cases r with
  | nil => exact keeps_throw _
  | cons r _ => exact keeps_pure trivial

/-- An activation uses up no cancellation. -/
theorem keeps_activate (n : Network) (taken : List SocketAddress) (k : ℕ) :
    Keeps (HasPending k) (activate n taken) fun _ => True := by
  unfold activate
  refine keeps_get.bind fun s _ => ?_
  split
  next => exact keeps_pure trivial
  next =>
    refine (keeps_resolvedLocal n.lookup k).bind fun r _ => keeps_get.bind fun s hs => ?_
    exact (keeps_liftM _).bind fun sockets _ => keeps_set ⟨hs.1, nofun⟩

theorem nextItem_inactive (lookup : Lookup) (h : s.isActive = false) :
    (nextItem lookup).run.run s = (.error .notActive, s) := by
  have hclosed : s.sockets = none := Option.isSome_eq_false_iff.1 h |> Option.isNone_iff_eq_none.1
  rw [nextItem, run_get_bind, hclosed]
  rfl

/-- A pending cancellation is handed on before anything is read. -/
theorem nextItem_canceled (lookup : Lookup) (hactive : s.isActive = true)
    (hcancel : 0 < s.cancellations) : (nextItem lookup).run.run s
      = (.ok (some .canceled), { s with cancellations := s.cancellations - 1 }) := by
  rw [nextItem_eq_turns lookup hactive (Nat.lt_succ_self s.waiting), Source.turns,
    turn_canceled lookup hcancel]

/-- Every operation but a request to stop spends a cancellation or none. -/
theorem perform_spends {o : Operation} (ho : o.isCancel = false) (hs : s.held ≠ some .canceled) :
    Spends s (o.perform s).1 (o.perform s).2 := by
  cases o with
  | move m =>
    cases m with
    | arrive port d => cases port <;> exact ⟨Nat.zero_add _, hs⟩
    | senders hosts => exact ⟨Nat.zero_add _, hs⟩
    | includeSender wanted => exact ⟨Nat.zero_add _, hs⟩
    | cancel => cases ho
    | activate n taken =>
      obtain ⟨⟨hcancel, hheld⟩, -⟩ := keeps_activate n taken s.cancellations s ⟨rfl, hs⟩
      refine ⟨?_, hheld⟩
      rw [Operation.perform]
      cases ((activate n taken).run.run s).1 <;> exact (Nat.zero_add _).trans hcancel
    | turn lookup =>
      rw [Operation.perform, ← turns_one]
      split
      next => exact spends_turns lookup 1 hs
      next => exact ⟨Nat.zero_add _, hs⟩
    | call lookup =>
      rw [Operation.perform]
      cases hactive : s.isActive with
      | true =>
        rw [nextItem_eq_turns lookup hactive (Nat.lt_succ_self s.waiting)]
        exact spends_turns lookup _ hs
      | false =>
        rw [nextItem_inactive lookup hactive]
        exact ⟨Nat.zero_add _, hs⟩
  | deactivate => exact ⟨Nat.zero_add _, nofun⟩

theorem eq_cancel {o : Operation} (h : o.isCancel = true) : o = .move .cancel := by
  unfold Operation.isCancel at h
  split at h
  next => rfl
  next => cases h

/-- The requests to stop are pending or have been answered, and none is held back. -/
theorem perform_counts (o : Operation) (hs : s.held ≠ some .canceled) :
    (isCanceled (o.perform s).1).toNat + (o.perform s).2.cancellations
        = o.isCancel.toNat + s.cancellations ∧
      (o.perform s).2.held ≠ some .canceled := by
  cases ho : o.isCancel with
  | true =>
    obtain rfl := eq_cancel ho
    have hasked : 0 + (s.cancellations + 1) = 1 + s.cancellations := by omega
    exact ⟨hasked, hs⟩
  | false =>
    obtain ⟨hspent, hheld⟩ := perform_spends ho hs
    exact ⟨hspent.trans (Nat.zero_add _).symm, hheld⟩

theorem countP_cons_eq_toNat {α : Type} (p : α → Bool) (a : α) (rest : List α) :
    (a :: rest).countP p = (p a).toNat + rest.countP p := by
  rw [List.countP_cons, Nat.add_comm]
  cases p a <;> rfl

theorem transcript_counts (operations : List Operation) (hs : s.held ≠ some .canceled) :
    (s.transcript operations).countP (fun entry => isCanceled entry.2)
        + (s.afterAll operations).cancellations
      = operations.countP Operation.isCancel + s.cancellations := by
  induction operations generalizing s with
  | nil => rfl
  | cons o rest ih =>
    obtain ⟨hnow, hheld⟩ := perform_counts o hs
    have hrest := ih hheld
    rw [Source.transcript, countP_cons_eq_toNat, countP_cons_eq_toNat, afterAll_cons]
    dsimp only
    omega

/-! ## Leaving cancellations out -/

/-- Two sources that differ in their cancellations only. -/
def Recounted (k : ℕ) (s t : Source) : Prop :=
  t = { s with cancellations := k }

theorem agrees_resolvedLocal (lookup : Lookup) {k : ℕ} {t : Source} (h : Recounted k s t) :
    Agrees (Recounted k) (resolvedLocal lookup) (resolvedLocal lookup) s t := by
  obtain rfl := h
  unfold resolvedLocal
  refine agrees_get_bind ?_
  dsimp only
  rcases Pool.resolved (Host.resolve lookup) s.localAddress with ⟨outcome, localAddress⟩
  have hset : Recounted k { s with localAddress } { s with localAddress, cancellations := k } := rfl
  refine (agrees_set hset).bind fun _ _ _ h => (agrees_liftM h outcome).bind fun r _ _ h => ?_
  cases r with
  | nil => exact agrees_throw h _
  | cons r _ => exact agrees_pure h r

/-- The sockets are opened without a look at the cancellations. -/
theorem agrees_activate (n : Network) (taken : List SocketAddress) {k : ℕ} {t : Source}
    (h : Recounted k s t) :
    Agrees (Recounted k) (activate n taken) (activate n taken) s t := by
  have hactive : t.isActive = s.isActive := by rw [h]; rfl
  unfold activate
  refine agrees_get_bind ?_
  rw [hactive]
  split
  next => exact agrees_pure h ()
  next =>
    refine (agrees_resolvedLocal n.lookup h).bind fun r s t h => ?_
    refine agrees_get_bind ?_
    have hports : openSockets n taken r t.dataPort t.controlPort
        = openSockets n taken r s.dataPort s.controlPort := by rw [h]
    rw [hports]
    refine (agrees_liftM h _).bind fun sockets _ _ _ => agrees_set ?_
    rw [h]
    rfl

theorem quiet_eq_self (h : s.cancellations = 0) : s.quiet = s := by
  rw [Source.quiet, ← h]

/-- A call that finds no cancellation hands on none, and does not look for one. -/
theorem nextItem_quiet (lookup : Lookup) (hs : s.held ≠ some .canceled)
    (h : s.isActive = true → s.cancellations = 0) :
    isCanceled ((nextItem lookup).run.run s).1 = false ∧ (nextItem lookup).run.run s.quiet
      = (((nextItem lookup).run.run s).1, ((nextItem lookup).run.run s).2.quiet) := by
  cases hactive : s.isActive with
  | false =>
    have hquiet : s.quiet.isActive = false := hactive
    rw [nextItem_inactive lookup hactive, nextItem_inactive lookup hquiet]
    exact ⟨rfl, rfl⟩
  | true =>
    have hnone := h hactive
    obtain ⟨hspent, -⟩ := spends_turns lookup (s.waiting + 1) hs
    have hafter : (s.turns lookup (s.waiting + 1)).2.cancellations = 0 := by omega
    rw [quiet_eq_self hnone, nextItem_eq_turns lookup hactive (Nat.lt_add_one s.waiting)]
    rw [quiet_eq_self hafter]
    have hcount : (isCanceled (.ok (s.turns lookup (s.waiting + 1)).1)).toNat = 0 := by omega
    exact ⟨Bool.toNat_eq_zero.1 hcount, rfl⟩

/-- An operation is a cancellation and leaves the source as it was but for these, or it does
the same without them. -/
theorem perform_quiet {o : Operation} (hs : s.held ≠ some .canceled) (hturn : o.isTurn = false) :
    (isCancellation (o, (o.perform s).1) = true ∧ (o.perform s).2.quiet = s.quiet) ∨
    (isCancellation (o, (o.perform s).1) = false ∧
      o.perform s.quiet = ((o.perform s).1, (o.perform s).2.quiet)) := by
  cases o with
  | move m =>
    cases m with
    | arrive port d => cases port <;> exact .inr ⟨rfl, rfl⟩
    | senders hosts => exact .inr ⟨rfl, rfl⟩
    | includeSender wanted => exact .inr ⟨rfl, rfl⟩
    | cancel => exact .inl ⟨rfl, rfl⟩
    | activate n taken =>
      have hagrees : Agrees (Recounted 0) (activate n taken) (activate n taken) s s.quiet :=
        agrees_activate n taken rfl
      refine .inr ⟨?_, ?_⟩
      · rw [Operation.perform]
        cases ((activate n taken).run.run s).1 <;> rfl
      · exact Prod.ext (congrArg (Except.map fun _ => none) hagrees.1.symm) hagrees.2
    | turn lookup => cases hturn
    | call lookup =>
      by_cases hcancel : s.isActive = true ∧ 0 < s.cancellations
      · rw [Operation.perform, nextItem_canceled lookup hcancel.1 hcancel.2]
        exact .inl ⟨rfl, rfl⟩
      · have hnone : s.isActive = true → s.cancellations = 0 := fun hactive =>
          Nat.eq_zero_of_not_pos fun hpos => hcancel ⟨hactive, hpos⟩
        exact .inr (nextItem_quiet lookup hs hnone)
  | deactivate => exact .inr ⟨rfl, rfl⟩

/-- Deleting the cancellations from a run leaves its other results. -/
theorem transcript_kept (operations : List Operation) (hs : s.held ≠ some .canceled)
    (hturns : ∀ o ∈ operations, o.isTurn = false) :
    s.quiet.transcript ((kept (s.transcript operations)).map (·.1))
        = kept (s.transcript operations) ∧
      s.quiet.afterAll ((kept (s.transcript operations)).map (·.1))
        = (s.afterAll operations).quiet := by
  induction operations generalizing s with
  | nil => exact ⟨rfl, rfl⟩
  | cons o rest ih =>
    obtain ⟨hturn, hlater⟩ := List.forall_mem_cons.1 hturns
    have hrest := ih (perform_counts o hs).2 hlater
    -- Either way the run without cancellations goes on from the quiet source after the operation.
    obtain ⟨hleft, hquiet⟩ | ⟨hstays, hquiet⟩ := perform_quiet hs hturn
    · have hkept : kept (s.transcript (o :: rest)) = kept ((o.perform s).2.transcript rest) :=
        List.filter_cons_of_neg (by simp [hleft])
      rw [hquiet] at hrest
      rw [hkept]
      exact hrest
    · have hkept : kept (s.transcript (o :: rest))
          = (o, (o.perform s).1) :: kept ((o.perform s).2.transcript rest) :=
        List.filter_cons_of_pos (by simp [hstays])
      rw [hkept, List.map_cons, Source.transcript, afterAll_cons, hquiet, hrest.1]
      exact ⟨rfl, hrest.2⟩

end

/-! ## Runs -/

/-- What becomes of the cancellations when some operations are performed. -/
structure CancellationsConsumed (s : Source) (operations : List Operation) : Prop where
  /-- Each is pending or has been handed on, once. -/
  counted : (s.transcript operations).countP (fun entry => isCanceled entry.2)
    + (s.afterAll operations).cancellations = operations.countP Operation.isCancel
  /-- One that is pending is handed on next, and nothing else changes. -/
  first : ∀ lookup, (s.afterAll operations).isActive = true →
    0 < (s.afterAll operations).cancellations →
    (nextItem lookup).run.run (s.afterAll operations) = (.ok (some .canceled),
      { s.afterAll operations with cancellations := (s.afterAll operations).cancellations - 1 })
  /-- When operations run one at a time, the others have the same outcomes without them. -/
  unchanged : (∀ o ∈ operations, o.isTurn = false) →
    s.transcript ((kept (s.transcript operations)).map (·.1)) = kept (s.transcript operations) ∧
      s.afterAll ((kept (s.transcript operations)).map (·.1)) = (s.afterAll operations).quiet

/-- Every cancellation of a source is handed on exactly once and before anything else. -/
theorem cancellationsConsumed_new (localAddress : Host) (dataPort controlPort : UInt16)
    (includeSender : Bool) (senders : List Host) (receivers : List Endpoint)
    (operations : List Operation) : CancellationsConsumed
      (Source.new localAddress dataPort controlPort includeSender senders receivers)
      operations := by
  have hheld : (Source.new localAddress dataPort controlPort includeSender senders receivers).held
      ≠ some .canceled := nofun
  refine ⟨transcript_counts operations hheld, ?_, ?_⟩
  · exact fun lookup hactive hcancel => nextItem_canceled lookup hactive hcancel
  · intro hturns
    have hkept := transcript_kept operations hheld hturns
    exact hkept

/-- Cancellations before a call on closed sockets, over another activation, and between the
discontinuity and its datagram. -/
def canceledRun : List Operation :=
  [.move .cancel, .move (.call .numeric), .move (.activate .loopback []), .deactivate,
    .move (.activate .loopback []), .move (.arrive .data (spoken 1 1)), .move (.call .numeric),
    .move (.call .numeric), .move .cancel, .move (.call .numeric), .move (.call .numeric),
    .move .cancel]

theorem cancellationsConsumed_new_rehearsed :
    (rehearsed.transcript canceledRun).map (·.2) = [.ok none, .error .notActive, .ok none, .ok none,
      .ok none, .ok none, .ok (some .canceled), .ok (some .discontinuity), .ok none,
      .ok (some .canceled), .ok (some (.data ⟨[1], none⟩)), .ok none] ∧
    (rehearsed.afterAll canceledRun).isActive = true ∧
    (rehearsed.afterAll canceledRun).cancellations = 1 ∧
    (∀ o ∈ canceledRun, o.isTurn = false) ∧
    CancellationsConsumed rehearsed canceledRun :=
  ⟨by decide +kernel, by decide +kernel, by decide +kernel, by decide +kernel,
    cancellationsConsumed_new _ _ _ _ _ _ canceledRun⟩

end MediaTransport.Socket
