import MediaTransport.Proofs.Socket.Turns

/-!
# Journals of a source

A *journal* records what has happened to a source since an activation: what has arrived,
what was read off the sockets and what was handed on.  What was read is seen on the
queues, and whether its sender was authorized is what the pool of senders stood for then.

What a part of the receive loop does is said once (`Advances`): it reads a first part of
each queue, data only when no control message is left, and what it hands on, with what it
holds back, is what was held before and then what it accepts, behind a discontinuity if
that is due.  Turns advance a source (`turns_advances`), since a dropped datagram leaves
no trace (`Advances.of_dropped`), and so does a call (`nextItem_advances`).
-/

namespace MediaTransport.Socket

open Address

/-! ## Journals -/

/-- A datagram that was read. -/
structure Reading where
  /-- The socket it was read from. -/
  port : Port
  /-- The datagram. -/
  datagram : Datagram
  /-- Whether its sender was authorized then. -/
  isAuthorized : Bool
  /-- Whether the sender was wanted then. -/
  withSender : Bool
  /-- The control messages that were left. -/
  control : List Datagram

/-- The datagram as it is to be handed on. -/
def Reading.item (r : Reading) : Item :=
  r.port.item ⟨r.datagram.payload, if r.withSender then some r.datagram.sender else none⟩

/-- What is to be handed on of some readings. -/
def accepted (readings : List Reading) : List Item :=
  (readings.filter (·.isAuthorized)).map Reading.item

/-- What has happened since an activation, each part in order. -/
structure Journal where
  /-- What has arrived. -/
  arrivals : List (Port × Datagram) := []
  /-- What has been read. -/
  readings : List Reading := []
  /-- What has been handed on. -/
  handedOn : List Item := []

/-- What has arrived at a socket. -/
def Journal.arrived (j : Journal) (port : Port) : List Datagram :=
  (j.arrivals.filter (·.1 = port)).map (·.2)

/-- What has been read from a socket. -/
def Journal.read (j : Journal) (port : Port) : List Datagram :=
  (j.readings.filter (·.port = port)).map (·.datagram)

/-- What has been handed on, without the cancellations. -/
def uncanceled (items : List Item) : List Item :=
  items.filter (· ≠ .canceled)

/-- Items with the discontinuity that announces the first of them. -/
def announced : List Item → List Item
  | [] => []
  | item :: more => .discontinuity :: item :: more

/-! ## Readings -/

/-- What was read from a socket between two states. -/
def Source.taken (s s' : Source) (port : Port) : List Datagram :=
  (s.queue port).take ((s.queue port).length - (s'.queue port).length)

/-- The readings of a socket between two states. -/
def Source.readingsAt (lookup : Lookup) (s s' : Source) (port : Port) : List Reading :=
  (s.taken s' port).map fun d => {
    port
    datagram := d
    isAuthorized := s.senders.admits lookup d.sender.ip
    withSender := s.includeSender
    control := s'.queue .control }

/-- The readings between two states, the control socket first. -/
def Source.readings (lookup : Lookup) (s s' : Source) : List Reading :=
  s.readingsAt lookup s' .control ++ s.readingsAt lookup s' .data

/-- The journal after a part of the receive loop. -/
def Journal.record (j : Journal) (lookup : Lookup) (s : Source) (item : Option Item)
    (s' : Source) : Journal :=
  { j with
    readings := j.readings ++ s.readings lookup s'
    handedOn := j.handedOn ++ item.toList }

/-! ## Parts of the receive loop -/

/-- What a part of the receive loop takes off the sockets. -/
structure Reads (s s' : Source) : Prop where
  /-- The sockets stay open. -/
  active : s'.isActive = s.isActive
  /-- What is read is the first part of each queue. -/
  queue : ∀ port, s.taken s' port ++ s'.queue port = s.queue port
  /-- Data is read when no control message is left. -/
  control : s.taken s' .data ≠ [] → s'.queue .control = []

/-- What a part of the receive loop does. -/
structure Advances (lookup : Lookup) (s : Source) (item : Option Item) (s' : Source) : Prop
    extends Reads s s' where
  /-- A discontinuity is due until something is accepted. -/
  awaits : s'.awaitsFirst = (s.awaitsFirst && (accepted (s.readings lookup s')).isEmpty)
  /-- What is handed on or held was held before or is accepted. -/
  handedOn : uncanceled item.toList ++ s'.held.toList = s.held.toList ++
    (if s.awaitsFirst then announced (accepted (s.readings lookup s'))
      else accepted (s.readings lookup s'))

section

variable {lookup : Lookup} {s s' : Source} {item : Option Item} {port : Port} {d : Datagram}

theorem taken_eq {front : List Datagram} (h : s.queue port = front ++ s'.queue port) :
    s.taken s' port = front := by
  rw [Source.taken, h, List.length_append, Nat.add_sub_cancel, List.take_left]

theorem taken_of_queue_eq (h : s'.queue port = s.queue port) : s.taken s' port = [] :=
  taken_eq (by rw [h, List.nil_append])

/-- What is accepted of the datagrams of a socket. -/
def Source.acceptedAt (lookup : Lookup) (s : Source) (port : Port) (ds : List Datagram) :
    List Item :=
  (ds.filter fun d => s.senders.admits lookup d.sender.ip).map fun d => port.item (s.deliver d)

theorem accepted_readings (lookup : Lookup) (s s' : Source) :
    accepted (s.readings lookup s') = s.acceptedAt lookup .control (s.taken s' .control)
      ++ s.acceptedAt lookup .data (s.taken s' .data) := by
  have hat (port : Port) : accepted (s.readingsAt lookup s' port)
      = s.acceptedAt lookup port (s.taken s' port) := by
    rw [accepted, Source.readingsAt, Source.acceptedAt, List.filter_map, List.map_map]
    rfl
  rw [← hat, ← hat, Source.readings, accepted, List.filter_append, List.map_append]
  rfl

/-! ### Parts that read nothing -/

theorem Reads.of_queue_eq (hactive : s'.isActive = s.isActive)
    (hqueue : ∀ port, s'.queue port = s.queue port) : Reads s s' where
  active := hactive
  queue port := by rw [taken_of_queue_eq (hqueue port), hqueue port, List.nil_append]
  control h := absurd (taken_of_queue_eq (hqueue .data)) h

/-- A part that reads nothing hands on what was held, or nothing. -/
theorem Advances.of_queue_eq (hactive : s'.isActive = s.isActive)
    (hqueue : ∀ port, s'.queue port = s.queue port) (hawaits : s'.awaitsFirst = s.awaitsFirst)
    (hheld : uncanceled item.toList ++ s'.held.toList = s.held.toList) :
    Advances lookup s item s' := by
  have hnone : accepted (s.readings lookup s') = [] := by
    rw [accepted_readings, taken_of_queue_eq (hqueue .control), taken_of_queue_eq (hqueue .data)]
    rfl
  refine ⟨Reads.of_queue_eq hactive hqueue, ?_, ?_⟩
  · simp [hnone, hawaits]
  · simp [hnone, hheld, announced]

/-! ### Parts that start with a reading -/

/-- What is read from the first datagram on. -/
theorem taken_afterReading (hfirst : s.first? = some (port, d))
    (h : Reads (s.afterReading lookup port) s') (other : Port) :
    s.taken s' other = (if other = port then [d] else [])
      ++ (s.afterReading lookup port).taken s' other := by
  apply taken_eq
  rw [List.append_assoc, h.queue]
  exact queue_eq_afterReading lookup hfirst other

/-- When data is read, no control message is read after it. -/
theorem queue_control_eq_nil (hfirst : s.first? = some (.data, d)) :
    (s.afterReading lookup .data).queue .control = [] := by
  have hempty : s.queue .control = [] := (first?_eq_some hfirst).2 rfl
  rw [queue_eq_afterReading lookup hfirst] at hempty
  exact (List.append_eq_nil_iff.1 hempty).2

theorem Reads.of_afterReading (hfirst : s.first? = some (port, d))
    (h : Reads (s.afterReading lookup port) s') : Reads s s' where
  active := by rw [h.active, afterReading_isActive]
  queue other := by
    rw [taken_afterReading hfirst h, List.append_assoc, h.queue]
    exact (queue_eq_afterReading lookup hfirst other).symm
  control htaken := by
    rw [taken_afterReading hfirst h] at htaken
    cases port with
    | control => exact h.control htaken
    | data =>
      have hrest := h.queue .control
      rw [queue_control_eq_nil hfirst] at hrest
      exact (List.append_eq_nil_iff.1 hrest).2

theorem acceptedAt_append (lookup : Lookup) (s : Source) (port : Port) (ds more : List Datagram) :
    s.acceptedAt lookup port (ds ++ more)
      = s.acceptedAt lookup port ds ++ s.acceptedAt lookup port more := by
  rw [Source.acceptedAt, List.filter_append, List.map_append]
  rfl

theorem acceptedAt_afterReading (lookup : Lookup) (s : Source) (port other : Port)
    (ds : List Datagram) :
    (s.afterReading lookup port).acceptedAt lookup other ds = s.acceptedAt lookup other ds := by
  simp [Source.acceptedAt, Source.deliver, Pool.admits_settled]

/-- What is accepted from the first datagram on. -/
theorem accepted_afterReading (hfirst : s.first? = some (port, d))
    (h : Reads (s.afterReading lookup port) s') :
    accepted (s.readings lookup s') = s.acceptedAt lookup port [d]
      ++ accepted ((s.afterReading lookup port).readings lookup s') := by
  rw [accepted_readings, accepted_readings, taken_afterReading hfirst h,
    taken_afterReading hfirst h, acceptedAt_afterReading, acceptedAt_afterReading]
  cases port with
  | control =>
    rw [if_pos rfl, if_neg (by decide), acceptedAt_append, List.nil_append, List.append_assoc]
  | data =>
    have hnone : (s.afterReading lookup .data).taken s' .control = [] := by
      rw [Source.taken, queue_control_eq_nil hfirst, List.take_nil]
    rw [if_neg (by decide), if_pos rfl, hnone, List.append_nil, acceptedAt_append]
    rfl

/-- A dropped datagram leaves no trace. -/
theorem Advances.of_dropped (hfirst : s.first? = some (port, d))
    (hadmits : s.senders.admits lookup d.sender.ip = false)
    (h : Advances lookup (s.afterReading lookup port) item s') : Advances lookup s item s' := by
  have haccepted : accepted (s.readings lookup s')
      = accepted ((s.afterReading lookup port).readings lookup s') := by
    rw [accepted_afterReading hfirst h.toReads]
    simp [Source.acceptedAt, hadmits]
  have hawaits := h.awaits
  have hheld := h.handedOn
  simp only [afterReading_awaitsFirst, afterReading_held] at hawaits hheld
  exact ⟨h.toReads.of_afterReading hfirst, by rw [haccepted, hawaits], by rw [haccepted, hheld]⟩

/-- An accepted datagram is handed on at once, or held back behind its announcement. -/
theorem Advances.of_accepted (hfirst : s.first? = some (port, d))
    (hadmits : s.senders.admits lookup d.sender.ip = true) (hheld : s.held = none) :
    Advances lookup s ((s.afterReading lookup port).accept (port.item (s.deliver d))).1
      ((s.afterReading lookup port).accept (port.item (s.deliver d))).2 := by
  have hne : port.item (s.deliver d) ≠ .canceled := by cases port <;> nofun
  have hrest : ∀ s', (∀ other, s'.queue other = (s.afterReading lookup port).queue other) →
      s'.isActive = (s.afterReading lookup port).isActive →
      Reads s s' ∧ accepted (s.readings lookup s') = [port.item (s.deliver d)] := by
    intro s' hqueue hactive
    have hreads := Reads.of_queue_eq hactive hqueue
    refine ⟨hreads.of_afterReading hfirst, ?_⟩
    rw [accepted_afterReading hfirst hreads, accepted_readings, taken_of_queue_eq (hqueue .control),
      taken_of_queue_eq (hqueue .data)]
    simp [Source.acceptedAt, hadmits]
  cases hdue : s.awaitsFirst with
  | true =>
    have haccept : (s.afterReading lookup port).accept (port.item (s.deliver d))
        = (some .discontinuity, { s.afterReading lookup port with
            awaitsFirst := false, held := some (port.item (s.deliver d)) }) := by
      rw [Source.accept, afterReading_awaitsFirst, hdue, if_pos rfl]
    rw [haccept]
    obtain ⟨hreads, haccepted⟩ := hrest { s.afterReading lookup port with
      awaitsFirst := false, held := some (port.item (s.deliver d)) } (fun _ => rfl) rfl
    refine ⟨hreads, ?_, ?_⟩
    · rw [haccepted]
      simp
    · rw [haccepted, hdue, hheld]
      simp [uncanceled, announced]
  | false =>
    have haccept : (s.afterReading lookup port).accept (port.item (s.deliver d))
        = (some (port.item (s.deliver d)), s.afterReading lookup port) := by
      rw [Source.accept, afterReading_awaitsFirst, hdue, if_neg Bool.false_ne_true]
    rw [haccept]
    obtain ⟨hreads, haccepted⟩ := hrest (s.afterReading lookup port) (fun _ => rfl) rfl
    refine ⟨hreads, ?_, ?_⟩
    · rw [haccepted, afterReading_awaitsFirst, hdue]
      simp
    · rw [haccepted, afterReading_held, hdue, hheld]
      simp [uncanceled, hne]

/-- Turns advance a source, by induction on their number. -/
theorem turns_advances (lookup : Lookup) (n : ℕ) (s : Source) (hs : s.held ≠ some .canceled) :
    Advances lookup s (s.turns lookup n).1 (s.turns lookup n).2 := by
  have hrefl : ∀ s : Source, Advances lookup s none s := fun s =>
    .of_queue_eq rfl (fun _ => rfl) rfl (by simp [uncanceled])
  induction n generalizing s with
  | zero => exact hrefl s
  | succ n ih =>
    obtain ⟨item, s', hturn, hturns⟩ := turn_turnsTo lookup s
    rw [Source.turns, hturn]
    cases hturns with
    | canceled hcancel => exact .of_queue_eq rfl (fun _ => rfl) rfl (by simp [uncanceled])
    | @held item hcancel hheld =>
      have hne : item ≠ .canceled := fun heq => hs (by rw [hheld, heq])
      exact .of_queue_eq rfl (fun _ => rfl) rfl (by simp [uncanceled, hheld, hne])
    | idle hcancel hheld hfirst =>
      simp only [turns_idle hturn]
      exact hrefl s
    | accepted hcancel hheld hfirst hadmits haccept =>
      have haccepted := Advances.of_accepted hfirst hadmits hheld
      rw [haccept] at haccepted
      exact haccepted
    | dropped hcancel hheld hfirst hadmits =>
      exact .of_dropped hfirst hadmits (ih _ (by simpa using hs))

theorem turn_advances (lookup : Lookup) (s : Source) (hs : s.held ≠ some .canceled) :
    Advances lookup s (s.turn lookup).1 (s.turn lookup).2 := by
  rw [← turns_one]
  exact turns_advances lookup 1 s hs

/-- A call of an active source succeeds and advances it. -/
theorem nextItem_advances (lookup : Lookup) (s : Source) (hactive : s.isActive = true)
    (hs : s.held ≠ some .canceled) :
    ∃ item s', (nextItem lookup).run.run s = (.ok item, s') ∧ Advances lookup s item s' :=
  ⟨_, _, nextItem_eq_turns lookup hactive (Nat.lt_succ_self s.waiting),
    turns_advances lookup (s.waiting + 1) s hs⟩

end

end MediaTransport.Socket
