import MediaTransport.Proofs.Address.Calls
import MediaTransport.Proofs.Socket.Site

/-!
# Control messages

A control message goes to the receivers one by one, and each attempt starts from what the one before
has left (`Attempts`).  An attempt that fails is skipped, and the others are counted
(`exists_attempts`).

Before the first attempt all receivers are resolved together, at the first message since they were
set.  Later messages go by what came of that, whatever the name service says by then.  When one of
the receivers could not be resolved, no message is sent to any of them, and the failure is reported
from memory until they are replaced (`SendsControl.unresolved`).
-/

namespace MediaTransport.Socket

open Address

/-- The attempts to send to some endpoints, each from the state that the one before has left. -/
inductive Attempts {σ : Type} (socket : DatagramSocket σ) (payload : List UInt8) :
    List ResolvedEndpoint → σ → List (Except Error ℕ) → σ → Prop where
  | nil (w : σ) : Attempts socket payload [] w [] w
  | cons {remote : ResolvedEndpoint} {rest : List ResolvedEndpoint} {outcome : Except Error ℕ}
      {outcomes : List (Except Error ℕ)} {w w' w'' : σ}
      (h : (sendAny socket remote payload).run.run w = (outcome, w'))
      (hrest : Attempts socket payload rest w' outcomes w'') :
      Attempts socket payload (remote :: rest) w (outcome :: outcomes) w''

/-- There is one attempt for each endpoint, and those that succeed are counted. -/
theorem exists_attempts {σ : Type} (socket : DatagramSocket σ) (payload : List UInt8)
    (remotes : List ResolvedEndpoint) (w : σ) : ∃ outcomes w',
      Attempts socket payload remotes w outcomes w' ∧
      (sendToAll socket payload remotes).run w = (outcomes.countP Except.isOk, w') := by
  induction remotes generalizing w with
  | nil => exact ⟨[], w, .nil w, rfl⟩
  | cons remote rest ih =>
    rcases hrun : (sendAny socket remote payload).run.run w with ⟨outcome, w'⟩
    obtain ⟨outcomes, w'', hattempts, hrest⟩ := ih w'
    refine ⟨outcome :: outcomes, w'', .cons hrun hattempts, ?_⟩
    rw [sendToAll, StateT.run_bind, hrun, List.countP_cons]
    change (sendToAll socket payload rest >>= _).run w' = _
    rw [StateT.run_bind, hrest]
    cases outcome <;> rfl

/-- What comes of sending control messages from an active source to the receivers that were set last.
They are looked up by the name service that was asked for them first since then, and by that of the
network at hand when none was asked. -/
structure SendsControl (receivers : List Endpoint) (service : Option Lookup) (source : Source)
    (k : Sockets) : Prop where
  /-- When every receiver could be resolved, there is one attempt for each, in order, whatever comes
  of the others.  The result is the number of successes. -/
  resolved : ∀ (n : Network) (remotes : List ResolvedEndpoint),
    List.Forall₂ (fun e r => Endpoint.resolve (service.getD n.lookup) e = .ok r) receivers remotes →
    (∀ (σ : Type) (socket : SocketAddress → DatagramSocket σ) (payload : List UInt8), ∃ send,
      (sendControlBy n.lookup socket payload).run.run source = (.ok send, { source with
        receivers := source.receivers.settled (Endpoint.resolve n.lookup) }) ∧
      ∀ w : σ, ∃ outcomes w', Attempts (socket k.control.address) payload remotes w outcomes w' ∧
        send.run w = (outcomes.countP Except.isOk, w')) ∧
    ∀ payload : List UInt8, ∃ outcomes sent,
      Attempts (.onNetwork n k.control.address) payload remotes [] outcomes sent ∧
      (sendControl n payload).run.run source = (.ok (outcomes.countP Except.isOk, sent),
        { source with receivers := source.receivers.settled (Endpoint.resolve n.lookup) })
  /-- When one could not, nothing is sent, and the first such receiver is the reason.  It is reported
  from memory until the receivers are replaced. -/
  unresolved : ∀ (n : Network) (before later : List Endpoint) (receiver : Endpoint) (e : Error),
    receivers = before ++ receiver :: later →
    (∀ other ∈ before, ∃ r, Endpoint.resolve (service.getD n.lookup) other = .ok r) →
    Endpoint.resolve (service.getD n.lookup) receiver = .error e →
    (∀ (σ : Type) (socket : SocketAddress → DatagramSocket σ) (payload : List UInt8),
      (sendControlBy n.lookup socket payload).run.run source
        = (.error (if service.isSome then rememberedFailure e.message else e), { source
          with receivers := source.receivers.settled (Endpoint.resolve n.lookup) })) ∧
    ∀ payload : List UInt8, (sendControl n payload).run.run source
      = (.error (if service.isSome then rememberedFailure e.message else e), { source
        with receivers := source.receivers.settled (Endpoint.resolve n.lookup) })

section

variable {source : Source} {service : Option Lookup} {k : Sockets}

theorem sendsControl (hk : source.sockets = some k)
    (hrecalls : source.receivers.Recalls Endpoint.resolve service) :
    SendsControl source.receivers.configured service source k where
  resolved n remotes hall := by
    have hreceivers : source.receivers.standing (Endpoint.resolve n.lookup) = .ok remotes := by
      rw [hrecalls.standing_eq n.lookup, mapM_of_forall₂ hall]
      split <;> rfl
    constructor
    · intro σ socket payload
      refine ⟨sendToAll (socket k.control.address) payload remotes, ?_, ?_⟩
      · rw [sendControlBy_run n.lookup socket payload hk, hreceivers]
        rfl
      · exact exists_attempts (socket k.control.address) payload remotes
    · intro payload
      obtain ⟨outcomes, sent, hattempts, hrun⟩ :=
        exists_attempts (.onNetwork n k.control.address) payload remotes []
      refine ⟨outcomes, sent, hattempts, ?_⟩
      rw [sendControl_run payload hk, hreceivers, ← hrun]
      rfl
  unresolved n before later receiver e hconfigured hbefore hreceiver := by
    have hreceivers : source.receivers.standing (Endpoint.resolve n.lookup)
        = .error (if service.isSome then rememberedFailure e.message else e) := by
      rw [hrecalls.standing_eq n.lookup, hconfigured, mapM_of_failed hbefore hreceiver]
      split <;> rfl
    constructor
    · intro σ socket payload
      rw [sendControlBy_run n.lookup socket payload hk, hreceivers]
      rfl
    · intro payload
      rw [sendControl_run payload hk, hreceivers]
      rfl

end

/-- From an active source, whatever has been requested of it and whatever the network was like at
each request, a control message is sent to every receiver, or to none when one of them could not be
resolved at the first message since they were set. -/
theorem sendsControl_afterAll (localAddress : Host) (dataPort controlPort : UInt16)
    (includeSender : Bool) (senders : List Host) (receivers : List Endpoint)
    (others : List SocketAddress) (requests : List Request)
    (hactive : ((Observed.new localAddress dataPort controlPort includeSender senders receivers
      others).afterAll requests).site.source.isActive = true) :
    let o := (Observed.new localAddress dataPort controlPort includeSender senders receivers
      others).afterAll requests
    ∃ k, o.site.source.sockets = some k ∧
      SendsControl o.receivers o.receiversService o.site.source k := by
  intro o
  obtain ⟨k, hk⟩ := Option.isSome_iff_exists.1 hactive
  have h : o.Recalls := (recalls_new ..).afterAll requests
  exact ⟨k, hk, h.receivers ▸ sendsControl hk h.receiversService⟩

/-- A source with some receivers, after some requests. -/
def sendingTo (receivers : List Endpoint) (requests : List Request) : Observed :=
  (Observed.new (.ipv4 ⟨127, 0, 0, 1⟩) 5004 5005 false [] receivers []).afterAll requests

/-- The first receiver cannot be reached from a socket of the IPv4 family, and the second one is a
name that was known at the first message and is not any more. -/
theorem sendsControl_afterAll_unreachable :
    let o := sendingTo [⟨.ipv6 .unspecified, 9⟩, ⟨.name "peer", 9⟩]
      [.activate .loopback, .sendControl .renamed [0]]
    o.site.source.isActive = true ∧
    (∃ k, o.site.source.sockets = some k ∧
      SendsControl o.receivers o.receiversService o.site.source k) ∧
    ((sendControl .loopback [1]).run.run o.site.source).1
      = .ok (1, [⟨⟨.v4 ⟨127, 0, 0, 1⟩, 9⟩, [1]⟩]) := by
  intro o
  have hactive : o.site.source.isActive = true := by decide +kernel
  exact ⟨hactive, sendsControl_afterAll _ _ _ _ _ _ _ _ hactive, by decide +kernel⟩

/-- The first receiver cannot be resolved.  The second one can, and it can be reached, but nothing
is sent to it, not even when the first one is known at last. -/
theorem sendControl_unresolved :
    let receivers : List Endpoint := [⟨.name "a\x00b", 9⟩, ⟨.ipv4 ⟨127, 0, 0, 1⟩, 9⟩]
    let o := sendingTo receivers [.activate .loopback]
    let unusable : Error := .resolution "a\x00b" "file name contained an unexpected NUL byte"
    o.site.source.isActive = true ∧
    Endpoint.resolve Lookup.numeric ⟨.ipv4 ⟨127, 0, 0, 1⟩, 9⟩
      = .ok ⟨⟨Ipv4.mapped ⟨127, 0, 0, 1⟩, []⟩, 9⟩ ∧
    ((sendAny (.onNetwork .loopback ⟨.v4 ⟨127, 0, 0, 1⟩, 5005⟩)
      ⟨⟨Ipv4.mapped ⟨127, 0, 0, 1⟩, []⟩, 9⟩ [1]).run.run []).1 = .ok 1 ∧
    ((sendControl .loopback [1]).run.run o.site.source).1 = .error unusable ∧
    o.site.outcomes [.sendControl .loopback [1], .sendControl .renamed [1]]
      = [.error unusable, .error (rememberedFailure unusable.message)] := by
  decide +kernel

end MediaTransport.Socket
