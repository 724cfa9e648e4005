import MediaTransport.Proofs.Activity
import MediaTransport.Proofs.Address.Pool
import MediaTransport.Socket.Source
import Mathlib.Data.Nat.Notation

/-!
# The turns of a receive loop

A call for the next item goes around a loop.  Each *turn* of the loop looks for a
cancellation, then for a datagram that was held back, and then reads one datagram, from
the control socket if one is there.  A turn that drops what it reads, or finds nothing to
read, is followed by another one; in between, datagrams may arrive and someone may ask to
stop.

A call that is not disturbed is as many turns as there are datagrams to read, and one more
(`nextItem_eq_turns`): a turn that drops a datagram leaves a state from which the call goes
on as if it had started there (`receive_first`).  What one turn can do is said once
(`turn_turnsTo`).
-/

namespace MediaTransport.Socket

open Address

/-- The two sockets of a source. -/
inductive Port where
  /-- The socket for control messages. -/
  | control
  /-- The socket for media. -/
  | data
  deriving DecidableEq, Repr

/-- A datagram of a socket, as it is handed on. -/
def Port.item : Port → Delivered → Item
  | .control, d => .control d
  | .data, d => .data d

/-- What waits at a socket. -/
def Source.queue (s : Source) : Port → List Datagram
  | .control => (s.sockets.map fun k => k.control.queue).getD []
  | .data => (s.sockets.map fun k => k.data.queue).getD []

/-- The number of datagrams that wait. -/
def Source.waiting (s : Source) : ℕ :=
  (s.queue .control).length + (s.queue .data).length

/-- The datagram that is read next, with its socket. -/
def Source.first? (s : Source) : Option (Port × Datagram) :=
  match s.queue .control with
  | d :: _ => some (.control, d)
  | [] => (s.queue .data).head?.map (.data, ·)

/-- The source after the first datagram of a socket has been read. -/
def Source.withoutFirst (s : Source) : Port → Source
  | .control => { s with sockets := s.sockets.map fun k =>
      { k with control := { k.control with queue := k.control.queue.tail } } }
  | .data => { s with sockets := s.sockets.map fun k =>
      { k with data := { k.data with queue := k.data.queue.tail } } }

/-- Hands an item on, behind a discontinuity when that is due. -/
def Source.accept (s : Source) (item : Item) : Option Item × Source :=
  if s.awaitsFirst then (some .discontinuity, { s with awaitsFirst := false, held := some item })
  else (some item, s)

/-- One turn of the receive loop. -/
def Source.turn (lookup : Lookup) (s : Source) : Option Item × Source :=
  if s.cancellations > 0 then
    (some .canceled, { s with cancellations := s.cancellations - 1 })
  else
    match s.held with
    | some item => (some item, { s with held := none })
    | none =>
      match s.first? with
      | none => (none, s)
      | some (port, d) =>
        let (authorized, senders) := (isAuthorized lookup d.sender).run s.senders
        let rest := { s.withoutFirst port with senders }
        if authorized then rest.accept (port.item (s.deliver d)) else (none, rest)

/-- Turns of the receive loop, until one hands something on. -/
def Source.turns (lookup : Lookup) : ℕ → Source → Option Item × Source
  | 0, s => (none, s)
  | n + 1, s =>
    match s.turn lookup with
    | (some item, s') => (some item, s')
    | (none, s') => turns lookup n s'

/-! ## Queues -/

section

variable {s : Source} {k : Sockets}

theorem queue_withoutFirst (s : Source) (port : Port) :
    (s.withoutFirst port).queue port = (s.queue port).tail := by
  cases port <;> cases hs : s.sockets <;> simp [Source.withoutFirst, Source.queue, hs]

/-- Taking a datagram from one port leaves the other one alone. -/
theorem queue_withoutFirst_other (s : Source) {port other : Port} (h : other ≠ port) :
    (s.withoutFirst port).queue other = s.queue other := by
  cases port <;> cases other <;> cases hs : s.sockets <;>
    simp [Source.withoutFirst, Source.queue, hs] at h ⊢

/-- Data is read when no control message waits. -/
theorem first?_eq_some {port : Port} {d : Datagram} (h : s.first? = some (port, d)) :
    (∃ rest, s.queue port = d :: rest) ∧ (port = .data → s.queue .control = []) := by
  unfold Source.first? at h
  split at h
  next first rest hqueue =>
    cases h
    exact ⟨⟨rest, hqueue⟩, fun hport => nomatch hport⟩
  next hqueue =>
    obtain ⟨first, hfirst, heq⟩ := Option.map_eq_some_iff.1 h
    cases heq
    obtain ⟨rest, hrest⟩ := List.head?_eq_some_iff.1 hfirst
    exact ⟨⟨rest, hrest⟩, fun _ => hqueue⟩

/-- If there is no first datagram, both ports are empty. -/
theorem first?_eq_none (h : s.first? = none) (port : Port) : s.queue port = [] := by
  unfold Source.first? at h
  split at h
  next => cases h
  next hqueue =>
    have hdata : s.queue .data = [] := by simpa using h
    cases port with
    | control => exact hqueue
    | data => exact hdata

theorem waiting_withoutFirst {port : Port} {d : Datagram} (h : s.first? = some (port, d)) :
    (s.withoutFirst port).waiting + 1 = s.waiting := by
  obtain ⟨⟨rest, hqueue⟩, -⟩ := first?_eq_some h
  have hsame := queue_withoutFirst s port
  rw [hqueue, List.tail_cons] at hsame
  cases port with
  | control =>
    have hother : (s.withoutFirst .control).queue .data = s.queue .data :=
      queue_withoutFirst_other s (by decide)
    rw [Source.waiting, Source.waiting, hsame, hother, hqueue, List.length_cons]
    omega
  | data =>
    have hother : (s.withoutFirst .data).queue .control = s.queue .control :=
      queue_withoutFirst_other s (by decide)
    rw [Source.waiting, Source.waiting, hsame, hother, hqueue, List.length_cons]
    omega

/-! ## Authorization -/

/-- Asking for a sender settles the pool of the senders. -/
theorem isAuthorized_run (lookup : Lookup) (sender : SocketAddress) (p : Pool Host Resolved) :
    (isAuthorized lookup sender).run p
      = (p.admits lookup sender.ip, p.settled (Host.resolve lookup)) := by
  have hrun : StateT.run (Pool.authorizes lookup sender.ip) p = _ :=
    Pool.authorizes_run lookup sender.ip p
  unfold isAuthorized Pool.admits
  rw [StateT.run_bind, hrun]
  cases p.standing (Host.resolve lookup) <;> rfl

theorem takeAuthorized_cons (lookup : Lookup) (d : Datagram) (rest : List Datagram)
    (p : Pool Host Resolved) :
    takeAuthorized lookup (d :: rest) p
      = if p.admits lookup d.sender.ip then
          ((some d, rest), p.settled (Host.resolve lookup))
        else takeAuthorized lookup rest (p.settled (Host.resolve lookup)) := by
  change (takeAuthorized lookup (d :: rest)).run p = _
  rw [takeAuthorized, StateT.run_bind, isAuthorized_run]
  cases p.admits lookup d.sender.ip <;> rfl

/-! ## Calls -/

/-- A cancellation is handed on before anything else. -/
theorem turn_canceled (lookup : Lookup) (hcancel : s.cancellations > 0) :
    s.turn lookup = (some .canceled, { s with cancellations := s.cancellations - 1 }) :=
  if_pos hcancel

/-- What is held comes next. -/
theorem turn_held (lookup : Lookup) (hcancel : s.cancellations = 0) {item : Item}
    (hheld : s.held = some item) : s.turn lookup = (some item, { s with held := none }) := by
  rw [Source.turn, hcancel, if_neg (Nat.lt_irrefl 0), hheld]

/-- With nothing held and nothing waiting, a turn does nothing. -/
theorem turn_idle (lookup : Lookup) (hcancel : s.cancellations = 0) (hheld : s.held = none)
    (hfirst : s.first? = none) : s.turn lookup = (none, s) := by
  rw [Source.turn, hcancel, if_neg (Nat.lt_irrefl 0), hheld, hfirst]

/-- The source after a turn that reads a datagram. -/
def Source.afterReading (lookup : Lookup) (s : Source) (port : Port) : Source :=
  { s.withoutFirst port with senders := s.senders.settled (Host.resolve lookup) }

@[simp] theorem afterReading_cancellations (lookup : Lookup) (s : Source) (port : Port) :
    (s.afterReading lookup port).cancellations = s.cancellations := by
  cases port <;> rfl

@[simp] theorem afterReading_held (lookup : Lookup) (s : Source) (port : Port) :
    (s.afterReading lookup port).held = s.held := by
  cases port <;> rfl

@[simp] theorem afterReading_awaitsFirst (lookup : Lookup) (s : Source) (port : Port) :
    (s.afterReading lookup port).awaitsFirst = s.awaitsFirst := by
  cases port <;> rfl

@[simp] theorem afterReading_includeSender (lookup : Lookup) (s : Source) (port : Port) :
    (s.afterReading lookup port).includeSender = s.includeSender := by
  cases port <;> rfl

@[simp] theorem afterReading_senders (lookup : Lookup) (s : Source) (port : Port) :
    (s.afterReading lookup port).senders = s.senders.settled (Host.resolve lookup) :=
  rfl

@[simp] theorem afterReading_isActive (lookup : Lookup) (s : Source) (port : Port) :
    (s.afterReading lookup port).isActive = s.isActive := by
  cases port <;> simp [Source.afterReading, Source.withoutFirst, Source.isActive]

theorem queue_afterReading (lookup : Lookup) (s : Source) (port other : Port) :
    (s.afterReading lookup port).queue other = (s.withoutFirst port).queue other :=
  rfl

/-- The datagram that is read comes before the rest of its queue. -/
theorem queue_eq_afterReading (lookup : Lookup) {port : Port} {d : Datagram}
    (h : s.first? = some (port, d)) (other : Port) :
    s.queue other
      = (if other = port then [d] else []) ++ (s.afterReading lookup port).queue other := by
  obtain ⟨⟨rest, hrest⟩, -⟩ := first?_eq_some h
  rw [queue_afterReading]
  split
  next heq =>
    subst heq
    rw [queue_withoutFirst, hrest, List.tail_cons, List.singleton_append]
  next hne => rw [queue_withoutFirst_other s hne, List.nil_append]

/-- Every reading turn uses up a datagram, so turns come to an end. -/
theorem waiting_afterReading (lookup : Lookup) {port : Port} {d : Datagram}
    (h : s.first? = some (port, d)) : (s.afterReading lookup port).waiting + 1 = s.waiting :=
  waiting_withoutFirst h

/-- What is accepted is handed on at once, or announced. -/
theorem exists_accept (s : Source) (item : Item) :
    ∃ handed s', s.accept item = (some handed, s') := by
  unfold Source.accept
  split
  next => exact ⟨.discontinuity, _, rfl⟩
  next => exact ⟨item, s, rfl⟩

/-- Otherwise a turn reads one datagram, and drops it unless its sender is admitted. -/
theorem turn_reading (lookup : Lookup) (hcancel : s.cancellations = 0) (hheld : s.held = none)
    {port : Port} {d : Datagram} (hfirst : s.first? = some (port, d)) :
    s.turn lookup = if s.senders.admits lookup d.sender.ip then
        (s.afterReading lookup port).accept (port.item (s.deliver d))
      else (none, s.afterReading lookup port) := by
  rw [Source.turn, hcancel, if_neg (Nat.lt_irrefl 0), hheld, hfirst]
  simp only [isAuthorized_run]
  rfl

/-- What one turn can do.  A cancellation comes before what was held back, and that before
anything is read. -/
inductive TurnsTo (lookup : Lookup) (s : Source) : Option Item → Source → Prop where
  | canceled (hcancel : s.cancellations > 0) :
      TurnsTo lookup s (some .canceled) { s with cancellations := s.cancellations - 1 }
  | held {item : Item} (hcancel : s.cancellations = 0) (hheld : s.held = some item) :
      TurnsTo lookup s (some item) { s with held := none }
  | idle (hcancel : s.cancellations = 0) (hheld : s.held = none) (hfirst : s.first? = none) :
      TurnsTo lookup s none s
  | accepted {port : Port} {d : Datagram} {handed : Item} {s' : Source}
      (hcancel : s.cancellations = 0) (hheld : s.held = none) (hfirst : s.first? = some (port, d))
      (hadmits : s.senders.admits lookup d.sender.ip = true)
      (haccept : (s.afterReading lookup port).accept (port.item (s.deliver d))
        = (some handed, s')) :
      TurnsTo lookup s (some handed) s'
  | dropped {port : Port} {d : Datagram}
      (hcancel : s.cancellations = 0) (hheld : s.held = none) (hfirst : s.first? = some (port, d))
      (hadmits : s.senders.admits lookup d.sender.ip = false) :
      TurnsTo lookup s none (s.afterReading lookup port)

theorem turn_turnsTo (lookup : Lookup) (s : Source) :
    ∃ item s', s.turn lookup = (item, s') ∧ TurnsTo lookup s item s' := by
  rcases Nat.eq_zero_or_pos s.cancellations with hcancel | hcancel
  · cases hheld : s.held with
    | some item => exact ⟨_, _, turn_held lookup hcancel hheld, .held hcancel hheld⟩
    | none =>
      cases hfirst : s.first? with
      | none => exact ⟨_, _, turn_idle lookup hcancel hheld hfirst, .idle hcancel hheld hfirst⟩
      | some read =>
        obtain ⟨port, d⟩ := read
        have hturn := turn_reading lookup hcancel hheld hfirst
        cases hadmits : s.senders.admits lookup d.sender.ip with
        | true =>
          obtain ⟨handed, s', haccept⟩ :=
            exists_accept (s.afterReading lookup port) (port.item (s.deliver d))
          rw [hadmits, if_pos rfl, haccept] at hturn
          exact ⟨_, _, hturn, .accepted hcancel hheld hfirst hadmits haccept⟩
        | false =>
          rw [hadmits, if_neg Bool.false_ne_true] at hturn
          exact ⟨_, _, hturn, .dropped hcancel hheld hfirst hadmits⟩
  · exact ⟨_, _, turn_canceled lookup hcancel, .canceled hcancel⟩

/-- A call without a cancellation and a held datagram reads the sockets. -/
theorem nextItem_receive (lookup : Lookup) (hk : s.sockets = some k) (hcancel : s.cancellations = 0)
    (hheld : s.held = none) :
    (nextItem lookup).run.run s =
      match s.receive lookup k with
      | (none, s') => (.ok none, s')
      | (some item, s') => (.ok (s'.accept item).1, (s'.accept item).2) := by
  rw [nextItem, run_get_bind, hk]
  simp only [hcancel, hheld, Nat.lt_irrefl, if_false, gt_iff_lt]
  cases hreceive : s.receive lookup k with
  | mk item s' =>
    cases item with
    | none => rfl
    | some item =>
      cases hfirst : s'.awaitsFirst <;> simp [hfirst, Source.accept] <;> rfl

/-- Reading ends when nothing is waiting. -/
theorem receive_idle (lookup : Lookup) (hk : s.sockets = some k) (hfirst : s.first? = none) :
    s.receive lookup k = (none, s) := by
  have hcontrol := first?_eq_none hfirst .control
  have hdata := first?_eq_none hfirst .data
  simp only [Source.queue, hk, Option.map_some, Option.getD_some] at hcontrol hdata
  obtain ⟨⟨address, _⟩, ⟨controlAddress, _⟩⟩ := k
  subst hcontrol hdata
  cases s
  subst hk
  rfl

/-- The first datagram is handed on if its sender is authorized.  Otherwise the sockets
are read as if it had not been there. -/
theorem receive_first (lookup : Lookup) (hk : s.sockets = some k) {port : Port} {d : Datagram}
    (hfirst : s.first? = some (port, d)) :
    ∃ k', (s.afterReading lookup port).sockets = some k' ∧
      s.receive lookup k = if s.senders.admits lookup d.sender.ip then
          (some (port.item (s.deliver d)), s.afterReading lookup port)
        else (s.afterReading lookup port).receive lookup k' := by
  obtain ⟨⟨rest, hqueue⟩, hcontrol⟩ := first?_eq_some hfirst
  obtain ⟨⟨dataAddress, dataQueue⟩, ⟨controlAddress, controlQueue⟩⟩ := k
  cases port with
  | control =>
    have hread : controlQueue = d :: rest := by simpa [Source.queue, hk] using hqueue
    subst hread
    refine ⟨⟨⟨dataAddress, dataQueue⟩, ⟨controlAddress, rest⟩⟩, ?_, ?_⟩
    · simp [Source.afterReading, Source.withoutFirst, hk]
    · simp only [Source.receive, takeAuthorized_cons]
      cases s.senders.admits lookup d.sender.ip with
      | false => rfl
      | true => simp [Source.afterReading, Source.withoutFirst, hk, Port.item]
  | data =>
    have hread : dataQueue = d :: rest := by simpa [Source.queue, hk] using hqueue
    have hempty : controlQueue = [] := by simpa [Source.queue, hk] using hcontrol rfl
    have hnone (p : Pool Host Resolved) : takeAuthorized lookup [] p = ((none, []), p) := rfl
    subst hread hempty
    refine ⟨⟨⟨dataAddress, rest⟩, ⟨controlAddress, []⟩⟩, ?_, ?_⟩
    · simp [Source.afterReading, Source.withoutFirst, hk]
    · simp only [Source.receive, hnone, takeAuthorized_cons]
      cases s.senders.admits lookup d.sender.ip with
      | false => rfl
      | true => simp [Source.afterReading, Source.withoutFirst, hk, Port.item]

theorem turns_one (lookup : Lookup) (s : Source) : s.turns lookup 1 = s.turn lookup := by
  rw [Source.turns]
  cases s.turn lookup with
  | mk item s' => cases item <;> rfl

/-- Once a turn has done nothing, later turns do nothing either. -/
theorem turns_idle {lookup : Lookup} (h : s.turn lookup = (none, s)) (n : ℕ) :
    s.turns lookup n = (none, s) := by
  induction n with
  | zero => rfl
  | succ n ih =>
    rw [Source.turns, h]
    exact ih

/-- An undisturbed call is turns of the loop: one for each datagram at most, and one more. -/
theorem nextItem_eq_turns (lookup : Lookup) {n : ℕ} (hactive : s.isActive = true)
    (hn : s.waiting < n) :
    (nextItem lookup).run.run s = (.ok (s.turns lookup n).1, (s.turns lookup n).2) := by
  induction n generalizing s with
  | zero => omega
  | succ n ih =>
    obtain ⟨k, hk⟩ := Option.isSome_iff_exists.1 hactive
    obtain ⟨item, s', hturn, hturns⟩ := turn_turnsTo lookup s
    rw [Source.turns, hturn]
    cases hturns with
    | canceled hcancel =>
      rw [nextItem, run_get_bind, hk]
      simp [hcancel]
      rfl
    | held hcancel hheld =>
      rw [nextItem, run_get_bind, hk]
      simp [hcancel, hheld]
      rfl
    | idle hcancel hheld hfirst =>
      rw [nextItem_receive lookup hk hcancel hheld, receive_idle lookup hk hfirst]
      simp only [turns_idle hturn]
    | accepted hcancel hheld hfirst hadmits haccept =>
      obtain ⟨k', -, hreceive⟩ := receive_first lookup hk hfirst
      rw [hadmits, if_pos rfl] at hreceive
      rw [nextItem_receive lookup hk hcancel hheld, hreceive]
      simp only [haccept]
    | @dropped port d hcancel hheld hfirst hadmits =>
      -- what is left is read as a call from the next state would read it
      obtain ⟨k', hk', hreceive⟩ := receive_first lookup hk hfirst
      rw [hadmits, if_neg Bool.false_ne_true] at hreceive
      have hless := waiting_afterReading lookup hfirst
      have hrest := ih (s := s.afterReading lookup port) (by simpa using hactive) (by omega)
      rw [nextItem_receive lookup hk' (by simpa using hcancel) (by simpa using hheld)] at hrest
      rw [nextItem_receive lookup hk hcancel hheld, hreceive]
      exact hrest

end

end MediaTransport.Socket
