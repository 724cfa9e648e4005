import MediaTransport.Proofs.Activity
import MediaTransport.Proofs.Address.Ip
import MediaTransport.Socket.Failover

/-!
# Trials

An operation that fails over makes *trials* of the alternatives, each in its turn and up to the
first that succeeds (`Trials`).  Its outcome is that of the last trial (`Trials.firstSuccess_run`).
A host always has an alternative, so there is a last trial (`Trials.inTurn`), and the reason that
is kept for the case without any is never given.  On a network an attempt to bind fails for one of
three reasons (`CannotBind`), and binding a host fails when that is so of all its alternatives
(`bindAny_error_iff`).

What is done on a socket is seen in the attempts when these are noted (`noted`).  Binding and
connecting make an attempt for each trial, at the IPv4 form of an alternative that has one and at
the IPv6 form of another (`AsksFor`).  Sending makes one for an alternative that the family of the
socket reaches, and fails without one for another (`SendsFor`).
-/

namespace MediaTransport.Socket

open Address

variable {σ α β γ : Type}

/-! ## Turns -/

/-- The trials of some alternatives, from a state to the state that they leave. -/
inductive Trials (attempt : α → StateM σ (Except String β)) :
    List α → σ → List (α × Except String β) → σ → Prop where
  | nil (s : σ) : Trials attempt [] s [] s
  | success {a : α} {b : β} {s s' : σ} (h : (attempt a).run s = (.ok b, s')) (rest : List α) :
      Trials attempt (a :: rest) s [(a, .ok b)] s'
  | failure {a : α} {rest : List α} {reason : String} {trials : List (α × Except String β)}
      {s s' s'' : σ} (h : (attempt a).run s = (.error reason, s'))
      (hrest : Trials attempt rest s' trials s'') :
      Trials attempt (a :: rest) s ((a, .error reason) :: trials) s''

/-- Alternatives are tried in some way from any state. -/
theorem exists_trials (attempt : α → StateM σ (Except String β)) (alternatives : List α) (s : σ) :
    ∃ trials s', Trials attempt alternatives s trials s' := by
  induction alternatives generalizing s with
  | nil => exact ⟨[], s, .nil s⟩
  | cons a rest ih =>
    rcases hrun : (attempt a).run s with ⟨_ | b, s'⟩
    next =>
      obtain ⟨trials, s'', htrials⟩ := ih s'
      exact ⟨_, s'', .failure hrun htrials⟩
    next => exact ⟨_, s', .success hrun rest⟩

/-- The outcome of the last trial, with a reason for the case that there is none. -/
def lastOutcome (reason : String) (trials : List (α × Except String β)) : Except String β :=
  (trials.getLast?.map (·.2)).getD (.error reason)

theorem lastOutcome_cons (reason reason' : String) (a : α) (trials : List (α × Except String β)) :
    lastOutcome reason ((a, .error reason') :: trials) = lastOutcome reason' trials := by
  rw [lastOutcome, List.getLast?_cons, lastOutcome]
  cases trials.getLast? <;> rfl

section

variable {attempt : α → StateM σ (Except String β)} {alternatives : List α}
  {trials : List (α × Except String β)} {last : Except String β} {s s' : σ}

/-- Trying them returns the outcome of the last trial. -/
theorem Trials.firstSuccess_run (h : Trials attempt alternatives s trials s') (reason : String) :
    (firstSuccess attempt reason alternatives).run s = (lastOutcome reason trials, s') := by
  induction h generalizing reason with
  | nil => rfl
  | success hrun rest =>
    rw [firstSuccess, StateT.run_bind, hrun]
    rfl
  | failure hrun _ ih =>
    rw [firstSuccess, StateT.run_bind, hrun, lastOutcome_cons]
    exact ih _

/-! ## Outcomes -/

/-- The trials of some alternatives, and the outcome of the last one. -/
inductive InTurn : List α → List (α × Except String β) → Except String β → Prop where
  /-- Some alternatives fail, the next one succeeds, and the others are not tried. -/
  | success (failed : List (α × String)) (a : α) (b : β) (untried : List α) :
      InTurn (failed.map (·.1) ++ a :: untried)
        (failed.map (fun f => (f.1, .error f.2)) ++ [(a, .ok b)]) (.ok b)
  /-- All alternatives fail. -/
  | failure (failed : List (α × String)) (a : α) (reason : String) :
      InTurn (failed.map (·.1) ++ [a])
        (failed.map (fun f => (f.1, .error f.2)) ++ [(a, .error reason)]) (.error reason)

theorem InTurn.cons (h : InTurn alternatives trials last) (a : α) (reason : String) :
    InTurn (a :: alternatives) ((a, .error reason) :: trials) last := by
  cases h with
  | success failed a' b untried => exact .success ((a, reason) :: failed) a' b untried
  | failure failed a' reason' => exact .failure ((a, reason) :: failed) a' reason'

/-- The last trial decides, and the reason before the first one does not matter. -/
theorem InTurn.lastOutcome_eq (h : InTurn alternatives trials last) (reason : String) :
    lastOutcome reason trials = last := by
  cases h <;> simp [lastOutcome]

/-- The last trial is a failure when every alternative is tried and fails. -/
theorem InTurn.exists_error_iff (h : InTurn alternatives trials last) :
    (∃ reason, last = .error reason) ↔
      trials.map (·.1) = alternatives ∧ ∀ t ∈ trials, ∃ reason, t.2 = .error reason := by
  cases h with
  | success failed a b untried =>
    constructor
    · rintro ⟨_, ⟨⟩⟩
    · rintro ⟨-, hfailed⟩
      obtain ⟨_, hb⟩ := hfailed (a, .ok b) (List.mem_append_right _ List.mem_cons_self)
      cases hb
  | failure failed a reason =>
    refine ⟨fun _ => ⟨?_, ?_⟩, fun _ => ⟨reason, rfl⟩⟩
    · simp
    · intro t ht
      rcases List.mem_append.1 ht with hfailed | hlast
      · obtain ⟨f, -, rfl⟩ := List.mem_map.1 hfailed
        exact ⟨f.2, rfl⟩
      · exact ⟨reason, by rw [List.mem_singleton.1 hlast]⟩

theorem InTurn.mem_of_ok {b : β} (h : InTurn alternatives trials (.ok b)) :
    ∃ a ∈ alternatives, (a, .ok b) ∈ trials := by
  cases h with
  | success failed a b untried => exact ⟨a, by simp, by simp⟩

theorem Trials.inTurn (h : Trials attempt alternatives s trials s') (hne : alternatives ≠ []) :
    ∃ last, InTurn alternatives trials last := by
  induction h with
  | nil => exact absurd rfl hne
  | @success a b _ _ _ rest => exact ⟨.ok b, .success [] a b rest⟩
  | @failure a rest reason _ _ _ _ _ hrest ih =>
    cases hrest with
    | nil => exact ⟨.error reason, .failure [] a reason⟩
    | success | failure =>
      obtain ⟨last, hlast⟩ := ih (List.cons_ne_nil _ _)
      exact ⟨last, hlast.cons a reason⟩

/-- Attempts without effects have the outcomes that each would have on its own. -/
theorem Trials.of_pure {f : α → Except String β}
    (h : Trials (fun a => pure (f a)) alternatives s trials s') : ∀ t ∈ trials, t.2 = f t.1 := by
  induction h with
  | nil => exact nofun
  | success hrun rest => exact List.forall_mem_singleton.2 (congrArg Prod.fst hrun).symm
  | failure hrun _ ih => exact List.forall_mem_cons.2 ⟨(congrArg Prod.fst hrun).symm, ih⟩

end

/-- What comes of trying the alternatives of a host, with the number of them in a failure. -/
def outcomeOf (operation : SocketOperation) (r : Resolved) (last : Except String β) :
    Except Error β :=
  last.mapError (.socket operation r.alternatives.length)

theorem Trials.tryAlternatives_run {operation : SocketOperation} {r : Resolved}
    {attempt : Ipv6 → StateM σ (Except String β)} {trials : List (Ipv6 × Except String β)}
    {last : Except String β} {s s' : σ} (h : Trials attempt r.alternatives s trials s')
    (hlast : InTurn r.alternatives trials last) :
    (tryAlternatives operation r attempt).run.run s = (outcomeOf operation r last, s') := by
  have hlift : (liftM (firstSuccess attempt noAlternatives r.alternatives) :
      ExceptT Error (StateM σ) (Except String β)).run.run s = (.ok last, s') := by
    change (Except.ok <$> firstSuccess attempt noAlternatives r.alternatives).run s = _
    rw [StateT.run_map, h.firstSuccess_run, hlast.lastOutcome_eq]
    rfl
  unfold tryAlternatives
  rw [run_bind_ok _ hlift]
  cases last <;> rfl

/-! ## Binding on a network -/

section

variable {n : Network} {taken : List SocketAddress} {r : Resolved} {port : UInt16}
  {wanted address : SocketAddress}

/-- An address that is bound was free, and is the wanted one if that has a port. -/
theorem bind_ok (h : n.bind taken wanted = .ok address) :
    address ∉ taken ∧ (wanted.port ≠ 0 → address = wanted) := by
  unfold Network.bind at h
  split at h
  next => cases h
  next =>
    split at h
    next hport =>
      split at h
      next => cases h
      next hfree =>
        cases h
        exact ⟨by simpa using hfree, fun _ => rfl⟩
    next hport =>
      split at h
      next free hfind =>
        cases h
        refine ⟨?_, fun hne => absurd hne hport⟩
        simpa using List.find?_some hfind
      next => cases h

/-- Why an address cannot be bound beside those that are taken. -/
inductive CannotBind (n : Network) (taken : List SocketAddress) (wanted : SocketAddress) :
    Prop where
  /-- The host does not have it. -/
  | remote (h : n.isLocal wanted.ip = false)
  /-- It is taken. -/
  | taken (hport : wanted.port ≠ 0) (h : wanted ∈ taken)
  /-- Any port would do, and all are taken. -/
  | exhausted (hport : wanted.port = 0) (h : ∀ port ∈ freePorts, ⟨wanted.ip, port⟩ ∈ taken)

/-- The three reasons are all there are. -/
theorem cannotBind_iff : CannotBind n taken wanted ↔
    ∃ reason, n.bind taken wanted = .error reason := by
  constructor
  · intro h
    unfold Network.bind
    split
    next => exact ⟨_, rfl⟩
    next hlocal =>
      cases h with
      | remote h => simp [h] at hlocal
      | taken hport h => exact ⟨addressInUse, by simp [hport, h]⟩
      | exhausted hport h =>
        have hnone : (freePorts.find? fun port => !taken.contains ⟨wanted.ip, port⟩) = none := by
          simpa using h
        exact ⟨addressInUse, by simp only [hport, hnone]; rfl⟩
  · rintro ⟨reason, h⟩
    unfold Network.bind at h
    split at h
    next hremote => exact .remote (by simpa using hremote)
    next =>
      split at h
      next hport =>
        split at h
        next htaken => exact .taken hport (by simpa using htaken)
        next => cases h
      next hport =>
        split at h
        next => cases h
        next hnone => exact .exhausted (not_not.1 hport) (by simpa using hnone)

variable (n taken r port) in
theorem exists_bindTrials : ∃ trials last, InTurn r.alternatives trials last ∧
    (∀ t ∈ trials, t.2 = n.bind taken (nativeAddress t.1 port)) ∧
    bindAny n taken r port = outcomeOf .bind r last := by
  obtain ⟨trials, s', htrials⟩ := exists_trials
    (fun ip => (pure (n.bind taken (nativeAddress ip port)) : StateM Unit _)) r.alternatives ()
  obtain ⟨last, hlast⟩ := htrials.inTurn (List.cons_ne_nil _ _)
  refine ⟨trials, last, hlast, htrials.of_pure, ?_⟩
  exact congrArg Prod.fst (htrials.tryAlternatives_run hlast)

/-- Any address that is bound comes from one of the alternatives. -/
theorem bindAny_ok (h : bindAny n taken r port = .ok address) :
    ∃ ip ∈ r.alternatives, n.bind taken (nativeAddress ip port) = .ok address := by
  obtain ⟨trials, last, hlast, houtcomes, hbind⟩ := exists_bindTrials n taken r port
  rw [hbind] at h
  cases last with
  | error reason => cases h
  | ok b =>
    cases h
    obtain ⟨ip, hip, htrial⟩ := hlast.mem_of_ok
    exact ⟨ip, hip, (houtcomes _ htrial).symm⟩

/-- Binding fails when no alternative can be bound. -/
theorem bindAny_error_iff : (∃ e, bindAny n taken r port = .error e) ↔
    ∀ ip ∈ r.alternatives, CannotBind n taken (nativeAddress ip port) := by
  obtain ⟨trials, last, hlast, houtcomes, hbind⟩ := exists_bindTrials n taken r port
  rw [hbind]
  cases last with
  | error reason =>
    obtain ⟨hall, hfailed⟩ := hlast.exists_error_iff.1 ⟨reason, rfl⟩
    refine ⟨fun _ ip hip => ?_, fun _ => ⟨_, rfl⟩⟩
    rw [← hall] at hip
    obtain ⟨t, ht, rfl⟩ := List.mem_map.1 hip
    obtain ⟨reason', hreason⟩ := hfailed t ht
    exact cannotBind_iff.2 ⟨reason', (houtcomes t ht).symm.trans hreason⟩
  | ok address =>
    obtain ⟨ip, hip, htrial⟩ := hlast.mem_of_ok
    have hbound := houtcomes _ htrial
    constructor
    · rintro ⟨e, ⟨⟩⟩
    · intro hnone
      obtain ⟨reason, hreason⟩ := cannotBind_iff.1 (hnone ip hip)
      cases hbound.trans hreason

end

/-! ## Noted attempts -/

/-- An operation that notes its attempts, with their outcomes. -/
def noted (attempt : α → StateM σ (Except String β)) (a : α) :
    StateM (σ × List (α × Except String β)) (Except String β) :=
  fun (s, log) =>
    let (outcome, s') := attempt a s
    (outcome, s', log ++ [(a, outcome)])

/-- A socket that notes what it is asked to send. -/
def DatagramSocket.noted (socket : DatagramSocket σ) :
    DatagramSocket (σ × List (Sent × Except String Nat)) where
  localAddress := socket.localAddress
  sendTo target payload :=
    Socket.noted (fun d : Sent => socket.sendTo d.target d.payload) ⟨target, payload⟩

section

variable {attempt : α → StateM σ (Except String β)} {s s' : σ × List (α × Except String β)}

theorem of_noted_run {a : α} {outcome : Except String β}
    (h : (noted attempt a).run s = (outcome, s')) :
    s'.2 = s.2 ++ [(a, outcome)] ∧ (attempt a).run s.1 = (outcome, s'.1) := by
  cases h
  exact ⟨rfl, rfl⟩

theorem of_noted_sendTo_run {socket : DatagramSocket σ} {target : SocketAddress}
    {payload : List UInt8} {outcome : Except String Nat}
    {s s' : σ × List (Sent × Except String Nat)}
    (h : (socket.noted.sendTo target payload).run s = (outcome, s')) :
    s'.2 = s.2 ++ [(⟨target, payload⟩, outcome)] ∧
      (socket.sendTo target payload).run s.1 = (outcome, s'.1) := by
  cases h
  exact ⟨rfl, rfl⟩

/-- Noting changes nothing else. -/
theorem Trials.of_noted {f : γ → α} {alternatives : List γ} {trials : List (γ × Except String β)}
    (h : Trials (fun c => noted attempt (f c)) alternatives s trials s') :
    s'.2 = s.2 ++ trials.map (fun t => (f t.1, t.2)) ∧
      Trials (fun c => attempt (f c)) alternatives s.1 trials s'.1 := by
  induction h with
  | nil s => exact ⟨(List.append_nil _).symm, .nil s.1⟩
  | success hrun rest =>
    obtain ⟨hlog, hattempt⟩ := of_noted_run hrun
    refine ⟨hlog, .success ?_ rest⟩
    exact hattempt
  | failure hrun _ ih =>
    obtain ⟨hlog, hattempt⟩ := of_noted_run hrun
    obtain ⟨hmore, htrials⟩ := ih
    refine ⟨?_, .failure hattempt htrials⟩
    rw [hmore, hlog, List.append_assoc]
    rfl

end

/-- What is asked of a network in trials of alternatives at a port. -/
inductive AsksFor (port : UInt16) :
    List (Ipv6 × Except String β) → List (SocketAddress × Except String β) → Prop where
  | nil : AsksFor port [] []
  /-- An alternative that stands for an IPv4 address is tried in its IPv4 form. -/
  | inV4 {trials : List (Ipv6 × Except String β)} {calls : List (SocketAddress × Except String β)}
      {ip : Ipv4} {place : Ipv6} (hplace : (Ip.v4 ip).HasPlace place) (outcome : Except String β)
      (h : AsksFor port trials calls) :
      AsksFor port ((place, outcome) :: trials) ((⟨.v4 ip, port⟩, outcome) :: calls)
  /-- Another one is tried as it is. -/
  | inV6 {trials : List (Ipv6 × Except String β)} {calls : List (SocketAddress × Except String β)}
      {ip : Ipv6} (hip : ∀ v4 : Ipv4, ¬(Ip.v4 v4).HasPlace ip) (outcome : Except String β)
      (h : AsksFor port trials calls) :
      AsksFor port ((ip, outcome) :: trials) ((⟨.v6 ip, port⟩, outcome) :: calls)

/-- What is asked of a socket that is bound to an address, in trials of alternatives. -/
inductive SendsFor (port : UInt16) (payload : List UInt8) :
    Ip → List (Ipv6 × Except String Nat) → List (Sent × Except String Nat) → Prop where
  | nil (source : Ip) : SendsFor port payload source [] []
  /-- A socket of the IPv6 family addresses every alternative in its IPv6 form. -/
  | inV6 {source : Ipv6} {trials : List (Ipv6 × Except String Nat)}
      {calls : List (Sent × Except String Nat)} (ip : Ipv6) (outcome : Except String Nat)
      (h : SendsFor port payload (.v6 source) trials calls) :
      SendsFor port payload (.v6 source) ((ip, outcome) :: trials)
        ((⟨⟨.v6 ip, port⟩, payload⟩, outcome) :: calls)
  /-- One of the IPv4 family addresses an alternative in its IPv4 form. -/
  | inV4 {source : Ipv4} {trials : List (Ipv6 × Except String Nat)}
      {calls : List (Sent × Except String Nat)} {ip : Ipv4} {place : Ipv6}
      (hplace : (Ip.v4 ip).HasPlace place) (outcome : Except String Nat)
      (h : SendsFor port payload (.v4 source) trials calls) :
      SendsFor port payload (.v4 source) ((place, outcome) :: trials)
        ((⟨⟨.v4 ip, port⟩, payload⟩, outcome) :: calls)
  /-- Where there is no such form, nothing is asked and the trial fails. -/
  | unreached {source : Ipv4} {trials : List (Ipv6 × Except String Nat)}
      {calls : List (Sent × Except String Nat)} {ip : Ipv6}
      (hip : ∀ v4 : Ipv4, ¬(Ip.v4 v4).HasPlace ip)
      (h : SendsFor port payload (.v4 source) trials calls) :
      SendsFor port payload (.v4 source) ((ip, .error familyMismatch) :: trials) calls

/-- Every trial is asked for in the form that the alternative has in its own family. -/
theorem asksFor_nativeAddress (port : UInt16) (trials : List (Ipv6 × Except String β)) :
    AsksFor port trials (trials.map fun t => (nativeAddress t.1 port, t.2)) := by
  induction trials with
  | nil => exact .nil
  | cons t rest ih =>
    obtain ⟨ip, outcome⟩ := t
    cases hip : ip.unmapped? with
    | some v4 =>
      have haddress : nativeAddress ip port = ⟨.v4 v4, port⟩ := by
        rw [nativeAddress, Ipv6.native, hip]
      rw [List.map_cons, haddress]
      exact .inV4 (unmapped?_eq_some_iff_hasPlace.1 hip) outcome ih
    | none =>
      have haddress : nativeAddress ip port = ⟨.v6 ip, port⟩ := by
        rw [nativeAddress, Ipv6.native, hip]
      rw [List.map_cons, haddress]
      exact .inV6 (unmapped?_eq_none_iff_hasPlace.1 hip) outcome ih

section

variable {port : UInt16} {payload : List UInt8} {source : Ip}
  {trials : List (Ipv6 × Except String Nat)} {calls : List (Sent × Except String Nat)}

/-- The calls of one trial stand before those of the rest. -/
theorem SendsFor.cons {t : Ipv6 × Except String Nat} {first : List (Sent × Except String Nat)}
    (hfirst : SendsFor port payload source [t] first)
    (h : SendsFor port payload source trials calls) :
    SendsFor port payload source (t :: trials) (first ++ calls) := by
  cases hfirst with
  | inV6 ip outcome hnil =>
    cases hnil
    exact .inV6 ip outcome h
  | inV4 hplace outcome hnil =>
    cases hnil
    exact .inV4 hplace outcome h
  | unreached hip hnil =>
    cases hnil
    exact .unreached hip h

/-- One trial of sending from a socket that is bound to an address. -/
def sendTrial (socket : DatagramSocket σ) (source : Ip) (port : UInt16) (payload : List UInt8)
    (ip : Ipv6) : StateM σ (Except String Nat) :=
  match targetFrom source ip port with
  | .ok target => socket.sendTo target payload
  | .error reason => return .error reason

theorem sendAny_eq {socket : DatagramSocket σ} {source : SocketAddress}
    (h : socket.localAddress = .ok source) (remote : ResolvedEndpoint) (payload : List UInt8) :
    sendAny socket remote payload
      = tryAlternatives .send remote.address (sendTrial socket source.ip remote.port payload) := by
  rw [sendAny, h]
  rfl

theorem sendTrial_ok {socket : DatagramSocket σ} {ip : Ipv6} {target : SocketAddress}
    (h : targetFrom source ip port = .ok target) :
    sendTrial socket source port payload ip = socket.sendTo target payload := by
  rw [sendTrial, h]

/-- A trial asks for one datagram or none. -/
theorem of_sendTrial_run {socket : DatagramSocket σ} {ip : Ipv6} {outcome : Except String Nat}
    {s s' : σ × List (Sent × Except String Nat)}
    (h : (sendTrial socket.noted source port payload ip).run s = (outcome, s')) :
    ∃ calls, SendsFor port payload source [(ip, outcome)] calls ∧ s'.2 = s.2 ++ calls ∧
      (sendTrial socket source port payload ip).run s.1 = (outcome, s'.1) := by
  cases source with
  | v6 source =>
    have htarget : targetFrom (.v6 source) ip port = .ok ⟨.v6 ip, port⟩ := rfl
    rw [sendTrial_ok htarget] at h ⊢
    obtain ⟨hlog, hsent⟩ := of_noted_sendTo_run h
    exact ⟨_, .inV6 ip outcome (.nil _), hlog, hsent⟩
  | v4 source =>
    cases hip : ip.unmapped? with
    | some v4 =>
      have htarget : targetFrom (.v4 source) ip port = .ok ⟨.v4 v4, port⟩ := by
        rw [targetFrom, hip]
      rw [sendTrial_ok htarget] at h ⊢
      obtain ⟨hlog, hsent⟩ := of_noted_sendTo_run h
      exact ⟨_, .inV4 (unmapped?_eq_some_iff_hasPlace.1 hip) outcome (.nil _), hlog, hsent⟩
    | none =>
      have htrial (σ : Type) (socket : DatagramSocket σ) :
          sendTrial socket (.v4 source) port payload ip = pure (.error familyMismatch) := by
        rw [sendTrial, targetFrom, hip]
      rw [htrial] at h ⊢
      cases h
      exact ⟨[], .unreached (unmapped?_eq_none_iff_hasPlace.1 hip) (.nil _), (List.append_nil _).symm, rfl⟩

theorem Trials.sendsFor {socket : DatagramSocket σ} {alternatives : List Ipv6}
    {s s' : σ × List (Sent × Except String Nat)}
    (h : Trials (sendTrial socket.noted source port payload) alternatives s trials s') :
    ∃ calls, SendsFor port payload source trials calls ∧ s'.2 = s.2 ++ calls ∧
      Trials (sendTrial socket source port payload) alternatives s.1 trials s'.1 := by
  induction h with
  | nil s => exact ⟨[], .nil source, (List.append_nil _).symm, .nil s.1⟩
  | success hrun rest =>
    obtain ⟨calls, hcalls, hlog, hsent⟩ := of_sendTrial_run hrun
    exact ⟨calls, hcalls, hlog, .success hsent rest⟩
  | failure hrun _ ih =>
    obtain ⟨first, hfirst, hlog, hsent⟩ := of_sendTrial_run hrun
    obtain ⟨calls, hcalls, hmore, htrials⟩ := ih
    refine ⟨first ++ calls, hfirst.cons hcalls, ?_, .failure hsent htrials⟩
    rw [hmore, hlog, List.append_assoc]

end

/-! ## Binding, connecting and sending -/

/-- Trying the alternatives of a host with an attempt for each trial. -/
theorem exists_noted (operation : SocketOperation) (r : Resolved)
    (attempt : α → StateM σ (Except String β)) (f : Ipv6 → α) (s : σ) :
    ∃ trials last s', InTurn r.alternatives trials last ∧
      (tryAlternatives operation r fun ip => noted attempt (f ip)).run.run (s, [])
        = (outcomeOf operation r last, s', trials.map fun t => (f t.1, t.2)) ∧
      (tryAlternatives operation r fun ip => attempt (f ip)).run.run s
        = (outcomeOf operation r last, s') := by
  obtain ⟨trials, ⟨s', log⟩, htrials⟩ :=
    exists_trials (fun ip => noted attempt (f ip)) r.alternatives (s, [])
  obtain ⟨last, hlast⟩ := htrials.inTurn (List.cons_ne_nil _ _)
  obtain ⟨hlog, hplain⟩ := htrials.of_noted
  obtain rfl : log = trials.map fun t => (f t.1, t.2) := hlog
  exact ⟨trials, last, s', hlast, htrials.tryAlternatives_run hlast,
    hplain.tryAlternatives_run hlast⟩

/-- Binding, connecting and sending try the alternatives of a host in turn, up to the first success,
and fail with their number and the last reason when all of them have failed.  What is bound and
connected to has the family of the alternative.  An IPv4 socket sends to IPv4 addresses only, and an
IPv6 socket to IPv6 addresses.  Nothing is tried when the address of
the socket is unknown, and there is always an alternative otherwise. -/
theorem alternatives_inTurn (r : Resolved) (port : UInt16) (s : σ) :
    (∀ bind : SocketAddress → StateM σ (Except String β), ∃ trials last calls s',
      InTurn r.alternatives trials last ∧ AsksFor port trials calls ∧
      (bindAnyBy (noted bind) r port).run.run (s, []) = (outcomeOf .bind r last, s', calls) ∧
      (bindAnyBy bind r port).run.run s = (outcomeOf .bind r last, s')) ∧
    (∀ connect : SocketAddress → StateM σ (Except String β), ∃ trials last calls s',
      InTurn r.alternatives trials last ∧ AsksFor port trials calls ∧
      (connectAnyBy (noted connect) ⟨r, port⟩).run.run (s, [])
        = (outcomeOf .connect r last, s', calls) ∧
      (connectAnyBy connect ⟨r, port⟩).run.run s = (outcomeOf .connect r last, s')) ∧
    (∀ (socket : DatagramSocket σ) (payload : List UInt8),
      match socket.localAddress with
      | .error reason =>
        (sendAny socket.noted ⟨r, port⟩ payload).run.run (s, []) = (.error (.io reason), s, [])
      | .ok source => ∃ trials last calls s',
        InTurn r.alternatives trials last ∧ SendsFor port payload source.ip trials calls ∧
        (sendAny socket.noted ⟨r, port⟩ payload).run.run (s, [])
          = (outcomeOf .send r last, s', calls) ∧
        (sendAny socket ⟨r, port⟩ payload).run.run s = (outcomeOf .send r last, s')) ∧
    (∀ (attempt : Ipv6 → StateM σ (Except String β)) (reason reason' : String),
      (firstSuccess attempt reason r.alternatives).run s
        = (firstSuccess attempt reason' r.alternatives).run s) := by
  refine ⟨?_, ?_, ?_, ?_⟩
  · intro bind
    obtain ⟨trials, last, s', hlast, hnoted, hrun⟩ :=
      exists_noted .bind r bind (nativeAddress · port) s
    exact ⟨trials, last, _, s', hlast, asksFor_nativeAddress port trials, hnoted, hrun⟩
  · intro connect
    obtain ⟨trials, last, s', hlast, hnoted, hrun⟩ :=
      exists_noted .connect r connect (nativeAddress · port) s
    exact ⟨trials, last, _, s', hlast, asksFor_nativeAddress port trials, hnoted, hrun⟩
  · intro socket payload
    split
    next reason hlocal =>
      have hnoted : socket.noted.localAddress = .error reason := hlocal
      rw [sendAny, hnoted]
      rfl
    next source hlocal =>
      obtain ⟨trials, ⟨s', log⟩, htrials⟩ :=
        exists_trials (sendTrial socket.noted source.ip port payload) r.alternatives (s, [])
      obtain ⟨last, hlast⟩ := htrials.inTurn (List.cons_ne_nil _ _)
      obtain ⟨calls, hcalls, hlog, hplain⟩ := htrials.sendsFor
      obtain rfl : log = calls := hlog
      refine ⟨trials, last, log, s', hlast, hcalls, ?_, ?_⟩
      · have hnoted : socket.noted.localAddress = .ok source := hlocal
        rw [sendAny_eq hnoted]
        exact htrials.tryAlternatives_run hlast
      · rw [sendAny_eq hlocal]
        exact hplain.tryAlternatives_run hlast
  · intro attempt reason reason'
    obtain ⟨trials, s', htrials⟩ := exists_trials attempt r.alternatives s
    obtain ⟨last, hlast⟩ := htrials.inTurn (List.cons_ne_nil _ _)
    rw [htrials.firstSuccess_run, htrials.firstSuccess_run, hlast.lastOutcome_eq,
      hlast.lastOutcome_eq]

end MediaTransport.Socket
