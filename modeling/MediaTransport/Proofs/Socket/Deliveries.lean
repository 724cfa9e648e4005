import MediaTransport.Proofs.Socket.Journal
import Mathlib.Data.List.Basic

/-!
# What a source hands on

Between an activation and the next deactivation, anything may happen at any time:
datagrams arrive, the authorized senders are replaced, senders are asked for or not,
someone asks to stop, and the receive loop takes a turn or is called (`Move`).

The journal of every run *accounts* for every datagram (`Accounts.performAll`): it has
been read, in the order of arrival, or still waits, and what was accepted has been handed
on, in the order of reading and behind one discontinuity, or is held back.
-/

namespace MediaTransport.Socket

open Address

/-! ## Runs -/

/-- The source after a datagram has arrived. -/
def Source.arrive (s : Source) : Port → Datagram → Source
  | .control, d => s.arriveControl d
  | .data, d => s.arriveData d

/-- What can happen to an active source. -/
inductive Move where
  /-- A datagram arrives. -/
  | arrive (port : Port) (d : Datagram)
  /-- The authorized senders are replaced. -/
  | senders (hosts : List Host)
  /-- The senders of datagrams are wanted from now on, or not. -/
  | includeSender (wanted : Bool)
  /-- Someone asks to stop. -/
  | cancel
  /-- The sockets are to be opened, although they are. -/
  | activate (n : Network) (taken : List SocketAddress)
  /-- The receive loop takes a turn. -/
  | turn (lookup : Lookup)
  /-- The next item is called for. -/
  | call (lookup : Lookup)

/-- The source and its journal after a move. -/
def Move.perform : Move → Source × Journal → Source × Journal
  | .arrive port d, (s, j) => (s.arrive port d, { j with arrivals := j.arrivals ++ [(port, d)] })
  | .senders hosts, (s, j) => (s.withSenders hosts, j)
  | .includeSender wanted, (s, j) => ({ s with includeSender := wanted }, j)
  | .cancel, (s, j) => (s.cancel, j)
  | .activate n taken, (s, j) => (((Socket.activate n taken).run.run s).2, j)
  | .turn lookup, (s, j) => ((s.turn lookup).2, j.record lookup s (s.turn lookup).1 (s.turn lookup).2)
  | .call lookup, (s, j) =>
    match (nextItem lookup).run.run s with
    | (.ok item, s') => (s', j.record lookup s item s')
    | (.error _, s') => (s', j)

/-- The source and its journal after some moves. -/
def performAll (moves : List Move) (start : Source × Journal) : Source × Journal :=
  moves.foldl (fun at' move => move.perform at') start

/-! ## Whole runs -/

/-- What a journal says of its source. -/
structure Accounts (s : Source) (j : Journal) : Prop where
  /-- The source is active. -/
  active : s.isActive = true
  /-- Every datagram has been read or still waits, in the order of arrival. -/
  arrivals : ∀ port, j.read port ++ s.queue port = j.arrived port
  /-- Data was read when no control message was left. -/
  control : ∀ r ∈ j.readings, r.port = .data → r.control = []
  /-- A discontinuity is due until something is accepted. -/
  awaits : s.awaitsFirst = (accepted j.readings).isEmpty
  /-- What was accepted has been handed on or is held, behind a discontinuity. -/
  handedOn : uncanceled j.handedOn ++ s.held.toList = announced (accepted j.readings)

section

variable {s s' : Source} {j : Journal} {lookup : Lookup} {item : Option Item}

theorem accepted_append (first rest : List Reading) :
    accepted (first ++ rest) = accepted first ++ accepted rest := by
  rw [accepted, List.filter_append, List.map_append]
  rfl

theorem canceled_not_mem_accepted (readings : List Reading) : Item.canceled ∉ accepted readings := by
  intro hmem
  obtain ⟨r, -, hr⟩ := List.mem_map.1 hmem
  unfold Reading.item at hr
  cases hport : r.port <;> rw [hport] at hr <;> cases hr

/-- Only what was accepted is held. -/
theorem Accounts.held (h : Accounts s j) : s.held ≠ some .canceled := by
  intro hheld
  have hmem : Item.canceled ∈ announced (accepted j.readings) := by
    rw [← h.handedOn, hheld]
    simp
  have hnone := canceled_not_mem_accepted j.readings
  cases haccepted : accepted j.readings with
  | nil => rw [haccepted] at hmem; cases hmem
  | cons first more =>
    rw [haccepted] at hmem hnone
    cases hmem with
    | tail _ hmem => exact hnone hmem

theorem readings_port (lookup : Lookup) (s s' : Source) (port : Port) :
    ((s.readings lookup s').filter (·.port = port)).map (·.datagram) = s.taken s' port := by
  have hat (at' : Port) : ((s.readingsAt lookup s' at').filter (·.port = port)).map (·.datagram)
      = if at' = port then s.taken s' at' else [] := by
    by_cases hport : at' = port <;>
      simp [Source.readingsAt, hport, List.filter_map, Function.comp_def]
  rw [Source.readings, List.filter_append, List.map_append, hat, hat]
  cases port <;> simp

theorem control_of_mem_readings (hreads : Reads s s') {r : Reading}
    (hr : r ∈ s.readings lookup s') (hport : r.port = .data) : r.control = [] := by
  rcases List.mem_append.1 hr with hcontrol | hdata
  · obtain ⟨d, -, rfl⟩ := List.mem_map.1 hcontrol
    cases hport
  · obtain ⟨d, hd, rfl⟩ := List.mem_map.1 hdata
    exact hreads.control (List.ne_nil_of_mem hd)

/-- A part of the receive loop keeps the accounts. -/
theorem Accounts.record (h : Accounts s j) (hadvances : Advances lookup s item s') :
    Accounts s' (j.record lookup s item s') where
  active := by rw [hadvances.active, h.active]
  arrivals port := by
    have hread : (j.record lookup s item s').read port = j.read port ++ s.taken s' port := by
      rw [Journal.read, Journal.record, List.filter_append, List.map_append, readings_port]
      rfl
    rw [hread, List.append_assoc, hadvances.queue, h.arrivals]
    rfl
  control r hr hport := by
    rcases List.mem_append.1 hr with hold | hnew
    · exact h.control r hold hport
    · exact control_of_mem_readings hadvances.toReads hnew hport
  awaits := by
    rw [hadvances.awaits, h.awaits]
    simp only [Journal.record, accepted_append]
    cases accepted j.readings <;> rfl
  handedOn := by
    have hsplit : uncanceled (j.record lookup s item s').handedOn
        = uncanceled j.handedOn ++ uncanceled item.toList := by
      rw [uncanceled, Journal.record, List.filter_append]
      rfl
    rw [hsplit, List.append_assoc, hadvances.handedOn, ← List.append_assoc, h.handedOn, h.awaits]
    simp only [Journal.record, accepted_append]
    cases accepted j.readings <;> simp [announced]

theorem queue_arrive (hs : s.isActive = true) (port other : Port) (d : Datagram) :
    (s.arrive port d).queue other = s.queue other ++ if other = port then [d] else [] := by
  obtain ⟨k, hk⟩ := Option.isSome_iff_exists.1 hs
  cases port <;> cases other <;>
    simp [Source.arrive, Source.arriveControl, Source.arriveData, Source.queue, hk]

theorem isActive_arrive (s : Source) (port : Port) (d : Datagram) :
    (s.arrive port d).isActive = s.isActive := by
  cases port <;>
    simp [Source.arrive, Source.arriveControl, Source.arriveData, Source.isActive]

theorem activate_active (n : Network) (taken : List SocketAddress) (hs : s.isActive = true) :
    (activate n taken).run.run s = (.ok (), s) := by
  rw [activate, run_get_bind, if_pos hs]
  rfl

/-- Every move keeps the accounts. -/
theorem Accounts.perform (h : Accounts s j) (move : Move) :
    Accounts (move.perform (s, j)).1 (move.perform (s, j)).2 := by
  cases move with
  | arrive port d =>
    refine { h with active := ?_, arrivals := ?_, awaits := ?_, handedOn := ?_ }
    · exact (isActive_arrive s port d).trans h.active
    · intro other
      have hj := h.arrivals other
      change j.read other ++ (s.arrive port d).queue other = _
      rw [queue_arrive h.active, ← List.append_assoc, hj]
      by_cases heq : port = other
      · simp [Journal.arrived, Move.perform, heq]
      · simp [Journal.arrived, Move.perform, heq, Ne.symm heq]
    · cases port <;> exact h.awaits
    · cases port <;> exact h.handedOn
  | senders hosts => exact { h with }
  | includeSender wanted => exact { h with }
  | cancel => exact { h with }
  | activate n taken =>
    have hperform : (Move.activate n taken).perform (s, j) = (s, j) := by
      rw [Move.perform, activate_active n taken h.active]
    rw [hperform]
    exact h
  | turn lookup => exact h.record (turn_advances lookup s h.held)
  | call lookup =>
    obtain ⟨item, s', hrun, hadvances⟩ := nextItem_advances lookup s h.active h.held
    have hperform : (Move.call lookup).perform (s, j) = (s', j.record lookup s item s') := by
      rw [Move.perform, hrun]
    rw [hperform]
    exact h.record hadvances

/-- Every run keeps the accounts, by induction on the moves. -/
theorem Accounts.performAll (h : Accounts s j) (moves : List Move) :
    Accounts (performAll moves (s, j)).1 (performAll moves (s, j)).2 := by
  induction moves generalizing s j with
  | nil => exact h
  | cons move rest ih => exact ih (h.perform move)

theorem openSockets_queues {n : Network} {taken : List SocketAddress} {r : Resolved}
    {dataPort controlPort : UInt16} {k : Sockets}
    (h : openSockets n taken r dataPort controlPort = .ok k) :
    k.data.queue = [] ∧ k.control.queue = [] := by
  unfold openSockets at h
  cases hdata : bindAny n taken r dataPort with
  | error e => rw [hdata] at h; cases h
  | ok data =>
    cases hcontrol : bindAny n (data :: taken) r controlPort with
    | error e => rw [hdata] at h; simp only [hcontrol, bind, Except.bind] at h; cases h
    | ok control =>
      rw [hdata] at h
      simp only [hcontrol, bind, Except.bind] at h
      cases h
      exact ⟨rfl, rfl⟩

/-- An activation opens empty sockets, with a discontinuity due. -/
theorem activate_inactive {n : Network} {taken : List SocketAddress} (hs : s.isActive = false)
    (h : (activate n taken).run.run s = (.ok (), s')) :
    s'.isActive = true ∧ (∀ port, s'.queue port = []) ∧ s'.awaitsFirst = true ∧ s'.held = none := by
  rw [activate, run_get_bind, hs, if_neg Bool.false_ne_true] at h
  obtain ⟨r, s₁, -, h⟩ := exists_of_run_bind_ok h
  rw [run_get_bind] at h
  obtain ⟨k, s₂, hopen, h⟩ := exists_of_run_bind_ok h
  have hsockets : openSockets n taken r s₁.dataPort s₁.controlPort = .ok k := by
    cases hresult : openSockets n taken r s₁.dataPort s₁.controlPort with
    | error e => rw [hresult] at hopen; cases hopen
    | ok opened => rw [hresult] at hopen; cases hopen; rfl
  obtain ⟨hdata, hcontrol⟩ := openSockets_queues hsockets
  cases h
  refine ⟨rfl, fun port => ?_, rfl, rfl⟩
  cases port with
  | control => exact hcontrol
  | data => exact hdata

/-- The accounts of an activation start empty. -/
theorem accounts_activate {n : Network} {taken : List SocketAddress} (hs : s.isActive = false)
    (h : (activate n taken).run.run s = (.ok (), s')) : Accounts s' {} := by
  obtain ⟨hactive, hqueue, hawaits, hheld⟩ := activate_inactive hs h
  constructor
  · exact hactive
  · exact hqueue
  · exact fun _ hnil => nomatch hnil
  · exact hawaits
  · rw [hheld]
    rfl

/-- What has been handed on since an activation, without the cancellations, is nothing
while nothing has been accepted, and otherwise one discontinuity and then what has been
accepted, of which the last may still be held back. -/
theorem deliveries_performAll {n : Network} {taken : List SocketAddress} {moves : List Move}
    {source : Source} {journal : Journal} (hs : s.isActive = false)
    (hactivate : (activate n taken).run.run s = (.ok (), s'))
    (hrun : performAll moves (s', {}) = (source, journal)) :
    (∀ port, journal.read port ++ source.queue port = journal.arrived port) ∧
    (∀ r ∈ journal.readings, r.port = .data → r.control = []) ∧
    ((accepted journal.readings = [] ∧ uncanceled journal.handedOn = [] ∧ source.held = none) ∨
      (accepted journal.readings ≠ [] ∧ ∃ units, uncanceled journal.handedOn = .discontinuity :: units
        ∧ units ++ source.held.toList = accepted journal.readings)) := by
  have haccounts := (accounts_activate hs hactivate).performAll moves
  rw [hrun] at haccounts
  have hhanded := haccounts.handedOn
  refine ⟨haccounts.arrivals, haccounts.control, ?_⟩
  cases haccepted : accepted journal.readings with
  | nil =>
    rw [haccepted] at hhanded
    obtain ⟨hnone, hheld⟩ := List.append_eq_nil_iff.1 hhanded
    exact .inl ⟨rfl, hnone, Option.toList_eq_nil_iff.1 hheld⟩
  | cons first more =>
    rw [haccepted] at hhanded
    refine .inr ⟨List.cons_ne_nil first more, ?_⟩
    cases hhandedOn : uncanceled journal.handedOn with
    | nil =>
      -- what is held is one item at most, and cannot be the discontinuity and what it announces
      rw [hhandedOn] at hhanded
      have hlength := congrArg List.length hhanded
      cases hheld : source.held <;> rw [hheld] at hlength <;> simp [announced] at hlength
    | cons announcement units =>
      rw [hhandedOn] at hhanded
      obtain ⟨hfirst, hunits⟩ := List.cons_eq_cons.1 hhanded
      exact ⟨units, by rw [hfirst], hunits⟩

end

/-! ## A run -/

/-- A source on the local host that listens to one sender. -/
def rehearsed : Source :=
  Source.new (.ipv4 ⟨127, 0, 0, 1⟩) 5004 5005 false [.ipv4 ⟨127, 0, 0, 1⟩] []

/-- A datagram of one byte from an address of the local host. -/
def spoken (host : UInt8) (byte : UInt8) : Datagram :=
  ⟨⟨.v4 ⟨127, 0, 0, host⟩, 9⟩, [byte]⟩

/-- Cancellations around the discontinuity, a stranger before it, and a name that cannot
be resolved after it. -/
def rehearsal : List Move :=
  [.arrive .data (spoken 1 1), .arrive .control (spoken 2 2), .arrive .control (spoken 1 3),
    .turn .numeric, .cancel, .call .numeric, .call .numeric, .cancel, .call .numeric,
    .call .numeric, .senders [.name "nowhere"], .call .numeric, .senders [.ipv4 ⟨127, 0, 0, 2⟩],
    .includeSender true, .arrive .data (spoken 2 4), .arrive .data (spoken 2 5), .call .numeric]

/-- The source and its journal after the rehearsal. -/
def performance : Source × Journal :=
  performAll rehearsal (((activate .loopback []).run.run rehearsed).2, {})

theorem deliveries_performAll_rehearsal :
    performance.2.handedOn = [.canceled, .discontinuity, .canceled, .control ⟨[3], none⟩,
      .data ⟨[4], some (spoken 2 4).sender⟩] ∧
    performance.1.queue .data = [spoken 2 5] ∧
    (∀ port, performance.2.read port ++ performance.1.queue port = performance.2.arrived port) ∧
    (∀ r ∈ performance.2.readings, r.port = .data → r.control = []) ∧
    ((accepted performance.2.readings = [] ∧ uncanceled performance.2.handedOn = [] ∧
        performance.1.held = none) ∨
      (accepted performance.2.readings ≠ [] ∧ ∃ units,
        uncanceled performance.2.handedOn = .discontinuity :: units
          ∧ units ++ performance.1.held.toList = accepted performance.2.readings)) := by
  have hok : ((activate .loopback []).run.run rehearsed).1 = .ok () := by
    decide +kernel
  have hactivate : (activate .loopback []).run.run rehearsed
      = (.ok (), ((activate .loopback []).run.run rehearsed).2) := Prod.ext hok rfl
  have hrun : performance = (performance.1, performance.2) := (Prod.eta performance).symm
  exact ⟨by decide +kernel, by decide +kernel, deliveries_performAll rfl hactivate hrun⟩

end MediaTransport.Socket
