import MediaTransport.Proofs.Socket.Deliveries
import MediaTransport.Proofs.Socket.Failover

/-!
# Sites

A source shares the addresses of its host with others.  A *site* is a source together with the
addresses that are bound on its host, its own and those of others (`Site`).  There, each socket is
opened in a step of its own, and an activation that cannot open the second one has to close the
first.  So it binds both addresses or none, and its outcome is that of the source by itself
(`activate_site_run`).

Anything may be requested of the source at any time, and others may bind what is free (`Request`).
Each request finds the network as it is by then, so the name service may answer one request and
fail the next.  The addresses that are bound for the source are always those of its sockets
(`Site.Kept.perform`).

What the source remembers of its local address and its receivers is what came of them when they were
looked up first since they were set.  Who observes a site keeps in mind what was set last and which
name service was asked for it first (`Observed`), and so knows what the source remembers
(`Observed.Recalls.after`).
-/

namespace MediaTransport.Socket

open Address

/-! ## A source by itself -/

/-- The first of some hosts. -/
def firstHost : List Resolved → Except Error Resolved
  | [] => .error (.invalidConfig .noLocalAddress)
  | r :: _ => .ok r

/-- The sockets that an activation opens, or why it fails. -/
def Source.opening (n : Network) (taken : List SocketAddress) (s : Source) :
    Except Error Sockets := do
  let hosts ← s.localAddress.standing (Host.resolve n.lookup)
  let r ← firstHost hosts
  openSockets n taken r s.dataPort s.controlPort

/-- The source after a use of its local address. -/
def Source.resolved (lookup : Lookup) (s : Source) : Source :=
  { s with localAddress := s.localAddress.settled (Host.resolve lookup) }

/-- The source with open sockets. -/
def Source.opened (s : Source) (k : Sockets) : Source :=
  { s with sockets := some k, awaitsFirst := true, held := none }

/-- The addresses that the sockets are bound to. -/
def Source.addresses (s : Source) : List SocketAddress :=
  (s.sockets.map fun k => [k.control.address, k.data.address]).getD []

section

variable {n : Network} {taken : List SocketAddress} {s : Source} {k : Sockets}

theorem sockets_of_inactive (hs : s.isActive = false) : s.sockets = none := by
  simpa [Source.isActive] using hs

/-- Asking for the local address settles its pool, and takes the first of its hosts. -/
theorem resolvedLocal_run (lookup : Lookup) (s : Source) :
    (resolvedLocal lookup).run.run s
      = (s.localAddress.standing (Host.resolve lookup) >>= firstHost, s.resolved lookup) := by
  have hrun : Pool.resolved (Host.resolve lookup) s.localAddress = (_, _) :=
    Pool.resolved_run (Host.resolve lookup) s.localAddress
  rw [resolvedLocal, run_get_bind]
  simp only [hrun]
  cases s.localAddress.standing (Host.resolve lookup) with
  | error e => rfl
  | ok hosts => cases hosts <;> rfl

/-- An activation opens the sockets or fails, and either way it has looked at the local address. -/
theorem activate_run (hs : s.isActive = false) : (activate n taken).run.run s =
    match s.opening n taken with
    | .ok k => (.ok (), (s.resolved n.lookup).opened k)
    | .error e => (.error e, s.resolved n.lookup) := by
  have hrun := resolvedLocal_run n.lookup s
  rw [activate, run_get_bind, hs, if_neg Bool.false_ne_true, Source.opening]
  rcases houtcome : s.localAddress.standing (Host.resolve n.lookup) >>= firstHost with e | r
  next =>
    rw [houtcome] at hrun
    rw [run_bind_error _ hrun, ← bind_assoc, houtcome]
    rfl
  next =>
    rw [houtcome] at hrun
    rw [run_bind_ok _ hrun, ← bind_assoc, houtcome, run_get_bind]
    change (liftM (openSockets n taken r s.dataPort s.controlPort) >>= _ :
      Activity Unit).run.run (s.resolved n.lookup)
      = match openSockets n taken r s.dataPort s.controlPort with
        | .ok k => _
        | .error e => _
    cases openSockets n taken r s.dataPort s.controlPort <;> rfl

/-- A setting is changed while the source is inactive; while it is active, its name is refused. -/
theorem whileInactive_run (setting : SourceSetting) (change : Source → Source) (s : Source) :
    (whileInactive setting change).run.run s
      = if s.isActive then (.error (.active setting), s) else (.ok (), change s) := by
  rw [whileInactive, run_get_bind]
  split <;> rfl

/-- Control messages go out when every receiver is resolved. -/
theorem sendControlBy_run {σ : Type} (lookup : Lookup) (socket : SocketAddress → DatagramSocket σ)
    (payload : List UInt8) (hk : s.sockets = some k) :
    (sendControlBy lookup socket payload).run.run s
      = ((s.receivers.standing (Endpoint.resolve lookup)).map
          (sendToAll (socket k.control.address) payload),
        { s with receivers := s.receivers.settled (Endpoint.resolve lookup) }) := by
  have hrun : Pool.resolved (Endpoint.resolve lookup) s.receivers = (_, _) :=
    Pool.resolved_run (Endpoint.resolve lookup) s.receivers
  rw [sendControlBy, run_get_bind, hk]
  simp only [hrun]
  cases s.receivers.standing (Endpoint.resolve lookup) <;> rfl

theorem sendControlBy_inactive {σ : Type} (lookup : Lookup)
    (socket : SocketAddress → DatagramSocket σ) (payload : List UInt8) (hs : s.isActive = false) :
    (sendControlBy lookup socket payload).run.run s = (.error .notActive, s) := by
  rw [sendControlBy, run_get_bind, sockets_of_inactive hs]
  rfl

/-- An active source asks for its receivers and then sends to all of them. -/
theorem sendControl_run (payload : List UInt8) (hk : s.sockets = some k) :
    (sendControl n payload).run.run s
      = ((s.receivers.standing (Endpoint.resolve n.lookup)).map fun remotes =>
          (sendToAll (.onNetwork n k.control.address) payload remotes).run [],
        { s with receivers := s.receivers.settled (Endpoint.resolve n.lookup) }) := by
  have hrun := sendControlBy_run n.lookup (.onNetwork n) payload hk
  unfold sendControl
  cases hstanding : s.receivers.standing (Endpoint.resolve n.lookup) with
  | error e =>
    rw [hstanding] at hrun
    rw [run_bind_error _ hrun]
    rfl
  | ok remotes =>
    rw [hstanding] at hrun
    rw [run_bind_ok _ hrun]
    rfl

theorem sendControl_inactive (payload : List UInt8) (hs : s.isActive = false) :
    (sendControl n payload).run.run s = (.error .notActive, s) := by
  rw [sendControl, run_bind_error _ (sendControlBy_inactive n.lookup (.onNetwork n) payload hs)]

/-- The source with another local address and other receivers. -/
def Source.withPools (s : Source) (localAddress : Pool Host Resolved)
    (receivers : Pool Endpoint ResolvedEndpoint) : Source :=
  { s with localAddress, receivers }

theorem receive_withPools (lookup : Lookup) (s : Source) (k : Sockets)
    (localAddress : Pool Host Resolved) (receivers : Pool Endpoint ResolvedEndpoint) :
    (s.withPools localAddress receivers).receive lookup k
      = ((s.receive lookup k).1, (s.receive lookup k).2.withPools localAddress receivers) := by
  have hsenders : (s.withPools localAddress receivers).senders = s.senders := rfl
  unfold Source.receive
  rw [hsenders]
  rcases takeAuthorized lookup k.control.queue s.senders with ⟨⟨_ | d, controlQueue⟩, senders⟩
    <;> rfl

/-- Receiving is not concerned with the local address and the receivers. -/
theorem nextItem_withPools (lookup : Lookup) (s : Source) (localAddress : Pool Host Resolved)
    (receivers : Pool Endpoint ResolvedEndpoint) :
    (nextItem lookup).run.run (s.withPools localAddress receivers)
      = (((nextItem lookup).run.run s).1,
        ((nextItem lookup).run.run s).2.withPools localAddress receivers) := by
  have hsockets : (s.withPools localAddress receivers).sockets = s.sockets := rfl
  have hcancel : (s.withPools localAddress receivers).cancellations = s.cancellations := rfl
  have hheld : (s.withPools localAddress receivers).held = s.held := rfl
  rw [nextItem, run_get_bind, run_get_bind, hsockets]
  cases s.sockets with
  | none => rfl
  | some k =>
    dsimp only
    rw [hcancel, hheld, receive_withPools]
    split
    next => rfl
    next =>
      split
      next => rfl
      next =>
        rcases s.receive lookup k with ⟨item, s'⟩
        have hawaits : (s'.withPools localAddress receivers).awaitsFirst = s'.awaitsFirst := rfl
        dsimp only
        rw [hawaits]
        split <;> rfl

/-- Taking items leaves the sockets where they are. -/
theorem nextItem_addresses (lookup : Lookup) (s : Source) :
    ((nextItem lookup).run.run s).2.addresses = s.addresses := by
  rw [nextItem, run_get_bind]
  cases hk : s.sockets with
  | none => rfl
  | some k =>
    have hkept : s.addresses = [k.control.address, k.data.address] := by
      rw [Source.addresses, hk]
      rfl
    have hreceive : (s.receive lookup k).2.addresses = s.addresses := by
      rw [hkept]
      unfold Source.receive
      rcases takeAuthorized lookup k.control.queue s.senders with ⟨⟨_ | d, controlQueue⟩, senders⟩
        <;> rfl
    dsimp only
    split
    next => exact hkept.symm
    next =>
      split
      next => exact hkept.symm
      next =>
        rcases hrun : s.receive lookup k with ⟨item, s'⟩
        rw [hrun] at hreceive
        split <;> exact hreceive

/-- Nor does it ask for the local address or for the receivers. -/
theorem nextItem_pools (lookup : Lookup) (s : Source) :
    ((nextItem lookup).run.run s).2.localAddress = s.localAddress ∧
      ((nextItem lookup).run.run s).2.receivers = s.receivers := by
  have hself : (nextItem lookup).run.run s = (_, _) :=
    nextItem_withPools lookup s s.localAddress s.receivers
  rw [hself]
  exact ⟨rfl, rfl⟩

end

/-! ## A source on its host -/

/-- A source, and the addresses that are bound on its host. -/
structure Site where
  /-- The source. -/
  source : Source
  /-- The addresses that are bound for it. -/
  own : List SocketAddress := []
  /-- Those that are bound for others. -/
  others : List SocketAddress := []

/-- All addresses that are bound. -/
def Site.bound (site : Site) : List SocketAddress :=
  site.own ++ site.others

/-- The site after an attempt to bind an address for the source. -/
def Site.afterBind {ε : Type} (site : Site) : Except ε SocketAddress → Site
  | .ok address => { site with own := address :: site.own }
  | .error _ => site

/-- Binds an address for the source. -/
def Site.bind (n : Network) (wanted : SocketAddress) :
    StateM Site (Except String SocketAddress) := fun site =>
  (n.bind site.bound wanted, site.afterBind (n.bind site.bound wanted))

/-- The site after a socket of the source has been closed. -/
def Site.close (site : Site) (address : SocketAddress) : Site :=
  { site with own := site.own.erase address }

/-- Opens one socket and then the other.  When this fails, the first one is closed again. -/
def Site.openSockets (n : Network) (r : Resolved) (dataPort controlPort : UInt16) :
    ExceptT Error (StateM Site) Sockets := do
  let data ← bindAnyBy (Site.bind n) r dataPort
  let control ← tryCatch (bindAnyBy (Site.bind n) r controlPort) fun e => do
    modify (·.close data)
    throw e
  return { data := { address := data }, control := { address := control } }

/-- Lets the source do something that binds and closes nothing. -/
def Site.onSource {α : Type} (x : Activity α) : ExceptT Error (StateM Site) α := fun site =>
  let (outcome, source) := x.run.run site.source
  (outcome, { site with source })

/-- Opens the sockets of the source, unless they are open. -/
def Site.activate (n : Network) : ExceptT Error (StateM Site) Unit := do
  if (← get).source.isActive then return
  let r ← Site.onSource (resolvedLocal n.lookup)
  let site ← get
  let k ← Site.openSockets n r site.source.dataPort site.source.controlPort
  modify fun site => { site with source := site.source.opened k }

/-- The site after the sockets of the source have been closed. -/
def Site.deactivate (site : Site) : Site :=
  { site with source := site.source.deactivate, own := site.own.diff site.source.addresses }

section

variable {n : Network} {site : Site}

/-- What happens on the source leaves the rest of the site alone. -/
theorem onSource_run {α : Type} {x : Activity α} {outcome : Except Error α} {source : Source}
    (h : x.run.run site.source = (outcome, source)) :
    (Site.onSource x).run.run site = (outcome, { site with source }) := by
  change ((x.run.run site.source).1, { site with source := (x.run.run site.source).2 }) = _
  rw [h]

/-- Attempts to bind are as on the network alone, and the last one may leave an address bound. -/
theorem Trials.of_siteBind {port : UInt16} {alternatives : List Ipv6}
    {trials : List (Ipv6 × Except String SocketAddress)} {site site' : Site}
    (h : Trials (fun ip => Site.bind n (nativeAddress ip port)) alternatives site trials site')
    (reason : String) :
    Trials (fun ip => (pure (n.bind site.bound (nativeAddress ip port)) : StateM Unit _))
      alternatives () trials () ∧ site' = site.afterBind (lastOutcome reason trials) := by
  induction h generalizing reason with
  | nil => exact ⟨.nil (), rfl⟩
  | @success ip address site site' hrun rest =>
    obtain ⟨hbind, rfl⟩ := Prod.mk.inj hrun
    refine ⟨.success ?_ rest, ?_⟩
    · exact Prod.ext hbind rfl
    · rw [hbind]
      rfl
  | @failure ip rest reason' trials site site' _ hrun _ ih =>
    obtain ⟨hbind, rfl⟩ := Prod.mk.inj hrun
    -- nothing has been bound, so the next attempt finds the same addresses taken
    rw [hbind] at ih
    obtain ⟨htrials, hsite⟩ := ih reason'
    refine ⟨.failure ?_ htrials, ?_⟩
    · exact Prod.ext hbind rfl
    · rw [lastOutcome_cons]
      exact hsite

/-- Closing a socket again undoes its binding. -/
theorem close_afterBind (address : SocketAddress) (site : Site) :
    (site.afterBind (.ok address : Except Error _)).close address = site := by
  rw [Site.afterBind, Site.close, List.erase_cons_head]

theorem bindAnyBy_site_run (n : Network) (r : Resolved) (port : UInt16) (site : Site) :
    (bindAnyBy (Site.bind n) r port).run.run site
      = (bindAny n site.bound r port, site.afterBind (bindAny n site.bound r port)) := by
  obtain ⟨trials, site', htrials⟩ :=
    exists_trials (fun ip => Site.bind n (nativeAddress ip port)) r.alternatives site
  obtain ⟨last, hlast⟩ := htrials.inTurn (List.cons_ne_nil _ _)
  obtain ⟨hpure, rfl⟩ := htrials.of_siteBind noAlternatives
  have hbind : bindAny n site.bound r port = outcomeOf .bind r last :=
    congrArg Prod.fst (hpure.tryAlternatives_run hlast)
  have hrun : (bindAnyBy (Site.bind n) r port).run.run site = (outcomeOf .bind r last, _) :=
    htrials.tryAlternatives_run hlast
  rw [hrun, hbind, hlast.lastOutcome_eq]
  cases last <;> rfl

/-- Opening the sockets binds both addresses or none. -/
theorem openSockets_site_run (n : Network) (r : Resolved) (dataPort controlPort : UInt16)
    (site : Site) : (Site.openSockets n r dataPort controlPort).run.run site =
      match openSockets n site.bound r dataPort controlPort with
      | .ok k => (.ok k, { site with own := k.control.address :: k.data.address :: site.own })
      | .error e => (.error e, site) := by
  have hfirst := bindAnyBy_site_run n r dataPort site
  unfold Site.openSockets Socket.openSockets
  cases hdata : bindAny n site.bound r dataPort with
  | error e =>
    rw [hdata] at hfirst
    rw [run_bind_error _ hfirst]
    rfl
  | ok data =>
    rw [hdata] at hfirst
    have hsecond := bindAnyBy_site_run n r controlPort (site.afterBind (.ok data : Except Error _))
    have hbound : (site.afterBind (.ok data : Except Error _)).bound = data :: site.bound := rfl
    rw [run_bind_ok _ hfirst]
    rw [hbound] at hsecond
    cases hcontrol : bindAny n (data :: site.bound) r controlPort with
    | error e =>
      rw [hcontrol] at hsecond
      rw [run_bind_error _ (run_tryCatch_error _ hsecond)]
      simp only [bind, Except.bind, hcontrol]
      -- the first socket is closed again
      exact Prod.ext rfl (close_afterBind data site)
    | ok control =>
      rw [hcontrol] at hsecond
      rw [run_bind_ok _ (run_tryCatch_ok _ hsecond)]
      simp only [bind, Except.bind, hcontrol]
      rfl

/-- An activation has the outcome that it has for the source alone.  When it fails, nothing is
bound that was not bound before. -/
theorem activate_site_run (hs : site.source.isActive = false) : (Site.activate n).run.run site =
    match site.source.opening n site.bound with
    | .ok k => (.ok (), { site with
        source := (site.source.resolved n.lookup).opened k
        own := k.control.address :: k.data.address :: site.own })
    | .error e => (.error e, { site with source := site.source.resolved n.lookup }) := by
  have hlocal : (Site.onSource (resolvedLocal n.lookup)).run.run site
      = (site.source.localAddress.standing (Host.resolve n.lookup) >>= firstHost,
        { site with source := site.source.resolved n.lookup }) := by
    exact onSource_run (resolvedLocal_run n.lookup site.source)
  rw [Site.activate, run_get_bind, hs, if_neg Bool.false_ne_true, Source.opening, ← bind_assoc]
  cases hhost : site.source.localAddress.standing (Host.resolve n.lookup) >>= firstHost with
  | error e =>
    rw [hhost] at hlocal
    rw [run_bind_error _ hlocal]
    rfl
  | ok r =>
    rw [hhost] at hlocal
    have hopen := openSockets_site_run n r site.source.dataPort site.source.controlPort
      { site with source := site.source.resolved n.lookup }
    have hbound : ({ site with source := site.source.resolved n.lookup } : Site).bound
        = site.bound := rfl
    have hstart : (Except.ok r >>= fun r => openSockets n site.bound r site.source.dataPort
        site.source.controlPort)
        = openSockets n site.bound r site.source.dataPort site.source.controlPort := rfl
    rw [hbound] at hopen
    rw [hstart, run_bind_ok _ hlocal, run_get_bind]
    dsimp only [Source.resolved] at hopen ⊢
    cases hsockets : openSockets n site.bound r site.source.dataPort site.source.controlPort with
    | error e =>
      rw [hsockets] at hopen
      rw [run_bind_error _ hopen]
    | ok k =>
      rw [hsockets] at hopen
      rw [run_bind_ok _ hopen]
      rfl

/-- Activating an active source does nothing. -/
theorem activate_site_active (hs : site.source.isActive = true) :
    (Site.activate n).run.run site = (.ok (), site) := by
  rw [Site.activate, run_get_bind, if_pos hs]
  rfl

end

/-! ## Requests -/

/-- What is asked of a source, and what else happens on its host.  A request that needs the network
comes with the network that it finds. -/
inductive Request where
  /-- Set the address that both sockets bind. -/
  | setLocalAddress (address : Host)
  /-- Set the port for media. -/
  | setDataPort (port : UInt16)
  /-- Set the port for control messages. -/
  | setControlPort (port : UInt16)
  /-- Hand the sender on with a datagram, or do not. -/
  | setIncludeSender (wanted : Bool)
  /-- Replace the authorized senders. -/
  | setSenders (hosts : List Host)
  /-- Replace the receivers of control messages. -/
  | setReceivers (endpoints : List Endpoint)
  /-- Open the sockets. -/
  | activate (n : Network)
  /-- Close the sockets. -/
  | deactivate
  /-- Ask to stop. -/
  | cancel
  /-- Call for the next item. -/
  | next (lookup : Lookup)
  /-- Send a control message. -/
  | sendControl (n : Network) (payload : List UInt8)
  /-- A datagram arrives. -/
  | arrive (port : Port) (d : Datagram)
  /-- Others bind these addresses, as far as they are free, and no other ones. -/
  | others (addresses : List SocketAddress)

/-- What comes of a request. -/
inductive Answer where
  /-- It has been done. -/
  | done
  /-- An item, or nothing while there is none. -/
  | item (item : Option Item)
  /-- The number of receivers that a message was sent to, and what was sent. -/
  | sent (count : ℕ) (datagrams : List Sent)
  deriving DecidableEq

/-- The outcome of an activity at a site, and the site after it. -/
def Site.act {α : Type} (site : Site) (x : ExceptT Error (StateM Site) α) (answer : α → Answer) :
    Except Error Answer × Site :=
  ((x.run.run site).1.map answer, (x.run.run site).2)

/-- The site after a change of the source that cannot fail. -/
def Site.changed (site : Site) (change : Source → Source) : Except Error Answer × Site :=
  (.ok .done, { site with source := change site.source })

/-- The outcome of a request, and the site after it. -/
def Request.perform : Request → Site → Except Error Answer × Site
  | .setLocalAddress address, site =>
    site.act (Site.onSource (Socket.setLocalAddress address)) fun _ => .done
  | .setDataPort port, site => site.act (Site.onSource (Socket.setDataPort port)) fun _ => .done
  | .setControlPort port, site =>
    site.act (Site.onSource (Socket.setControlPort port)) fun _ => .done
  | .setIncludeSender wanted, site => site.changed ({ · with includeSender := wanted })
  | .setSenders hosts, site => site.changed (·.withSenders hosts)
  | .setReceivers endpoints, site => site.changed (·.withReceivers endpoints)
  | .activate n, site => site.act (Site.activate n) fun _ => .done
  | .deactivate, site => (.ok .done, site.deactivate)
  | .cancel, site => site.changed Source.cancel
  | .next lookup, site => site.act (Site.onSource (nextItem lookup)) .item
  | .sendControl n payload, site =>
    site.act (Site.onSource (Socket.sendControl n payload)) fun (count, sent) => .sent count sent
  | .arrive port d, site => site.changed (·.arrive port d)
  | .others addresses, site =>
    (.ok .done, { site with others := addresses.filter (· ∉ site.own) })

/-- The site after some requests. -/
def Site.afterAll (site : Site) (requests : List Request) : Site :=
  requests.foldl (fun site request => (request.perform site).2) site

/-- The outcomes of some requests. -/
def Site.outcomes : Site → List Request → List (Except Error Answer)
  | _, [] => []
  | site, request :: rest => (request.perform site).1 :: outcomes (request.perform site).2 rest

/-- The site of a new source. -/
def Site.new (localAddress : Host) (dataPort controlPort : UInt16) (includeSender : Bool)
    (senders : List Host) (receivers : List Endpoint) (others : List SocketAddress) : Site where
  source := .new localAddress dataPort controlPort includeSender senders receivers
  others

/-! ## What every request keeps -/

/-- What holds at a site, whatever has been asked of its source. -/
structure Site.Kept (site : Site) : Prop where
  /-- The addresses that are bound for the source are those of its sockets. -/
  own : site.own = site.source.addresses
  /-- They are different ones. -/
  nodup : site.own.Nodup
  /-- They are not bound for others. -/
  apart : ∀ address ∈ site.own, address ∉ site.others

section

variable {n : Network} {site : Site} {source : Source} {k : Sockets}

theorem addresses_of_inactive (h : source.isActive = false) : source.addresses = [] := by
  rw [Source.addresses, sockets_of_inactive h]
  rfl

/-- An active source is one that holds addresses. -/
theorem isActive_iff_addresses : source.isActive = true ↔ source.addresses ≠ [] := by
  cases hs : source.isActive with
  | false => simp [addresses_of_inactive hs]
  | true =>
    obtain ⟨k, hk⟩ := Option.isSome_iff_exists.1 hs
    simp [Source.addresses, hk]

/-- An address that is bound was free before, and has the port that was asked for. -/
theorem bindAny_fresh {taken : List SocketAddress} {r : Resolved} {port : UInt16}
    {address : SocketAddress} (h : bindAny n taken r port = .ok address) :
    address ∉ taken ∧ (port ≠ 0 → address.port = port) := by
  obtain ⟨ip, -, hbind⟩ := bindAny_ok h
  obtain ⟨hfree, hport⟩ := bind_ok hbind
  refine ⟨hfree, fun hne => ?_⟩
  rw [hport hne]
  rfl

theorem openSockets_ok {taken : List SocketAddress} {r : Resolved} {dataPort controlPort : UInt16}
    (h : openSockets n taken r dataPort controlPort = .ok k) :
    bindAny n taken r dataPort = .ok k.data.address ∧
      bindAny n (k.data.address :: taken) r controlPort = .ok k.control.address := by
  unfold openSockets at h
  cases hdata : bindAny n taken r dataPort with
  | error e =>
    rw [hdata] at h
    cases h
  | ok data =>
    rw [hdata] at h
    cases hcontrol : bindAny n (data :: taken) r controlPort with
    | error e =>
      simp only [bind, Except.bind, hcontrol] at h
      cases h
    | ok control =>
      simp only [bind, Except.bind, hcontrol] at h
      cases h
      exact ⟨rfl, hcontrol⟩

/-- Sockets can only be opened on the first host that the local address resolves to. -/
theorem opening_ok {taken : List SocketAddress} (h : source.opening n taken = .ok k) :
    ∃ r, source.localAddress.standing (Host.resolve n.lookup) >>= firstHost = .ok r ∧
      openSockets n taken r source.dataPort source.controlPort = .ok k := by
  rw [Source.opening, ← bind_assoc] at h
  cases hhost : source.localAddress.standing (Host.resolve n.lookup) >>= firstHost with
  | error e =>
    rw [hhost] at h
    cases h
  | ok r =>
    rw [hhost] at h
    exact ⟨r, rfl, h⟩

/-- The sockets are bound to different addresses that were free, at the ports that were asked
for. -/
theorem opening_fresh {taken : List SocketAddress} (h : source.opening n taken = .ok k) :
    (k.data.address ∉ taken ∧ (source.dataPort ≠ 0 → k.data.address.port = source.dataPort)) ∧
      k.control.address ∉ k.data.address :: taken ∧
      (source.controlPort ≠ 0 → k.control.address.port = source.controlPort) := by
  obtain ⟨r, -, hopen⟩ := opening_ok h
  obtain ⟨hdata, hcontrol⟩ := openSockets_ok hopen
  exact ⟨bindAny_fresh hdata, bindAny_fresh hcontrol⟩

theorem act_onSource {α : Type} (site : Site) (x : Activity α) (answer : α → Answer) :
    site.act (Site.onSource x) answer
      = ((x.run.run site.source).1.map answer,
        { site with source := (x.run.run site.source).2 }) :=
  rfl

theorem perform_activate (hs : site.source.isActive = false) :
    (Request.activate n).perform site =
      match site.source.opening n site.bound with
      | .ok k => (.ok .done, { site with
          source := (site.source.resolved n.lookup).opened k
          own := k.control.address :: k.data.address :: site.own })
      | .error e => (.error e, { site with source := site.source.resolved n.lookup }) := by
  rw [Request.perform, Site.act, activate_site_run hs]
  cases site.source.opening n site.bound <;> rfl

theorem perform_activate_active (hs : site.source.isActive = true) :
    (Request.activate n).perform site = (.ok .done, site) := by
  rw [Request.perform, Site.act, activate_site_active hs]
  rfl

/-- A setting that holds while the sockets are open. -/
theorem act_whileInactive (site : Site) (setting : SourceSetting) (change : Source → Source) :
    site.act (Site.onSource (whileInactive setting change)) (fun _ => .done)
      = if site.source.isActive then (.error (.active setting), site)
        else (.ok .done, { site with source := change site.source }) := by
  rw [act_onSource, whileInactive_run]
  split <;> rfl

/-- Control messages are sent without a change to the sockets. -/
theorem sendControl_state (n : Network) (payload : List UInt8) (source : Source) :
    ((sendControl n payload).run.run source).2 = if source.isActive then
      { source with receivers := source.receivers.settled (Endpoint.resolve n.lookup) }
    else source := by
  cases hs : source.isActive with
  | false =>
    rw [sendControl_inactive payload hs]
    rfl
  | true =>
    obtain ⟨k, hk⟩ := Option.isSome_iff_exists.1 hs
    rw [sendControl_run payload hk]
    rfl

theorem arrive_addresses (source : Source) (port : Port) (d : Datagram) :
    (source.arrive port d).addresses = source.addresses := by
  cases port <;> cases hk : source.sockets <;>
    simp [Source.arrive, Source.arriveControl, Source.arriveData, Source.addresses, hk]

namespace Site.Kept

theorem bound_of_inactive (h : site.Kept) (hs : site.source.isActive = false) :
    site.own = [] ∧ site.bound = site.others := by
  have hown : site.own = [] := h.own.trans (addresses_of_inactive hs)
  exact ⟨hown, by rw [Site.bound, hown, List.nil_append]⟩

/-- What does not touch the addresses of the source keeps the site. -/
theorem withSource (h : site.Kept) (haddresses : source.addresses = site.source.addresses) :
    Site.Kept { site with source } :=
  ⟨h.own.trans haddresses.symm, h.nodup, h.apart⟩

theorem whileInactive (h : site.Kept) (setting : SourceSetting) {change : Source → Source}
    (hchange : (change site.source).addresses = site.source.addresses) :
    (site.act (Site.onSource (Socket.whileInactive setting change)) fun _ => .done).2.Kept := by
  rw [act_whileInactive]
  split
  next => exact h
  next => exact h.withSource hchange

/-- An activation binds two addresses that were free, or none. -/
theorem activate (h : site.Kept) (n : Network) : ((Request.activate n).perform site).2.Kept := by
  cases hs : site.source.isActive with
  | true =>
    rw [perform_activate_active hs]
    exact h
  | false =>
    rw [perform_activate hs]
    cases hopening : site.source.opening n site.bound with
    | error e => exact h.withSource rfl
    | ok k =>
      obtain ⟨hown, hbound⟩ := h.bound_of_inactive hs
      rw [hbound] at hopening
      obtain ⟨⟨hdata, -⟩, hcontrol, -⟩ := opening_fresh hopening
      obtain ⟨hne, hcontrol⟩ := not_or.1 (mt List.mem_cons.2 hcontrol)
      rw [hown]
      refine ⟨rfl, ?_, ?_⟩
      · simpa using hne
      · simpa using ⟨hcontrol, hdata⟩

theorem deactivate (h : site.Kept) : site.deactivate.Kept := by
  have hown : site.own.diff site.source.addresses = [] := by
    rw [h.own, Source.addresses]
    cases site.source.sockets with
    | none => rfl
    | some k => simp
  have hclosed : site.deactivate = { site with source := site.source.deactivate, own := [] } := by
    rw [Site.deactivate, hown]
  rw [hclosed]
  exact ⟨rfl, List.nodup_nil, nofun⟩

/-- Every request keeps it. -/
theorem perform (h : site.Kept) (request : Request) : (request.perform site).2.Kept := by
  cases request with
  | setLocalAddress address => exact h.whileInactive .localAddress rfl
  | setDataPort port => exact h.whileInactive .dataPort rfl
  | setControlPort port => exact h.whileInactive .controlPort rfl
  | setIncludeSender | setSenders | setReceivers | cancel => exact h.withSource rfl
  | activate n => exact h.activate n
  | deactivate => exact h.deactivate
  | next lookup => exact h.withSource (nextItem_addresses lookup site.source)
  | sendControl n payload =>
    have haddresses : ((sendControl n payload).run.run site.source).2.addresses
        = site.source.addresses := by
      rw [sendControl_state]
      split <;> rfl
    exact h.withSource haddresses
  | arrive port d => exact h.withSource (arrive_addresses site.source port d)
  | others addresses =>
    refine ⟨h.own, h.nodup, ?_⟩
    intro address hin hother
    have hfree : address ∉ site.own := by simpa using (List.mem_filter.1 hother).2
    exact hfree hin

/-- A site is kept along every run. -/
theorem afterAll (h : site.Kept) (requests : List Request) : (site.afterAll requests).Kept := by
  induction requests generalizing site with
  | nil => exact h
  | cons request rest ih => exact ih (h.perform request)

end Site.Kept

/-- A new source holds nothing. -/
theorem kept_new (localAddress : Host) (dataPort controlPort : UInt16) (includeSender : Bool)
    (senders : List Host) (receivers : List Endpoint) (others : List SocketAddress) :
    (Site.new localAddress dataPort controlPort includeSender senders receivers others).Kept :=
  ⟨rfl, List.nodup_nil, nofun⟩

end

/-! ## What the source remembers -/

/-- A site that is observed. -/
structure Observed where
  /-- The site. -/
  site : Site
  /-- The local address that was set last. -/
  host : Host
  /-- The name service that was asked for it first since then, if one was asked. -/
  hostService : Option Lookup := none
  /-- The receivers that were set last. -/
  receivers : List Endpoint
  /-- The name service that was asked for them first since then, if one was asked. -/
  receiversService : Option Lookup := none

/-- What an observer keeps in mind of a request.  The local address is looked up when an inactive
source is activated, and the receivers when an active one sends. -/
def Observed.note (o : Observed) : Request → Observed
  | .setLocalAddress address =>
    if o.site.source.isActive then o else { o with host := address, hostService := none }
  | .activate n =>
    if o.site.source.isActive then o
    else { o with hostService := some (o.hostService.getD n.lookup) }
  | .setReceivers endpoints => { o with receivers := endpoints, receiversService := none }
  | .sendControl n _ =>
    if o.site.source.isActive then
      { o with receiversService := some (o.receiversService.getD n.lookup) }
    else o
  | _ => o

/-- The observed site after a request. -/
def Observed.after (o : Observed) (request : Request) : Observed :=
  { o.note request with site := (request.perform o.site).2 }

/-- The observed site after some requests. -/
def Observed.afterAll (o : Observed) (requests : List Request) : Observed :=
  requests.foldl Observed.after o

/-- The observed site of a new source. -/
def Observed.new (localAddress : Host) (dataPort controlPort : UInt16) (includeSender : Bool)
    (senders : List Host) (receivers : List Endpoint) (others : List SocketAddress) : Observed where
  site := .new localAddress dataPort controlPort includeSender senders receivers others
  host := localAddress
  receivers

/-- The source has the local address and the receivers that were set last, and remembers what the
name services that were asked first said of them. -/
structure Observed.Recalls (o : Observed) : Prop where
  host : o.site.source.localAddress.configured = [o.host]
  hostService : o.site.source.localAddress.Recalls Host.resolve o.hostService
  receivers : o.site.source.receivers.configured = o.receivers
  receiversService : o.site.source.receivers.Recalls Endpoint.resolve o.receiversService

section

variable {o : Observed}

theorem afterAll_site (o : Observed) (requests : List Request) :
    (o.afterAll requests).site = o.site.afterAll requests := by
  induction requests generalizing o with
  | nil => rfl
  | cons request rest ih => exact ih (o.after request)

/-- After an activation the memory of the local address is that of its first lookup. -/
theorem Observed.Recalls.activate (h : o.Recalls) (n : Network) :
    (o.after (.activate n)).Recalls := by
  rw [Observed.after, Observed.note]
  cases hs : o.site.source.isActive with
  | true =>
    rw [perform_activate_active hs, if_pos rfl]
    exact h
  | false =>
    have hrecalls := h.hostService.settled n.lookup
    have hhost : (o.site.source.localAddress.settled (Host.resolve n.lookup)).configured
        = [o.host] := Pool.settled_configured.trans h.host
    rw [perform_activate hs, if_neg Bool.false_ne_true]
    cases o.site.source.opening n o.site.bound <;>
      exact ⟨hhost, hrecalls, h.receivers, h.receiversService⟩

/-- The same holds of the receivers after sending to them. -/
theorem Observed.Recalls.sendControl (h : o.Recalls) (n : Network) (payload : List UInt8) :
    (o.after (.sendControl n payload)).Recalls := by
  rw [Observed.after, Observed.note, Request.perform, act_onSource, sendControl_state]
  cases o.site.source.isActive with
  | false => exact h
  | true =>
    exact ⟨h.host, h.hostService, Pool.settled_configured.trans h.receivers,
      h.receiversService.settled n.lookup⟩

/-- A request of which nothing is noted leaves the local address and the receivers alone. -/
theorem Observed.Recalls.unnoted (h : o.Recalls) {request : Request} (hnote : o.note request = o)
    (hlocal : (request.perform o.site).2.source.localAddress = o.site.source.localAddress)
    (hreceivers : (request.perform o.site).2.source.receivers = o.site.source.receivers) :
    (o.after request).Recalls := by
  rw [Observed.after, hnote]
  constructor
  · exact (congrArg Pool.configured hlocal).trans h.host
  · exact hlocal ▸ h.hostService
  · exact (congrArg Pool.configured hreceivers).trans h.receivers
  · exact hreceivers ▸ h.receiversService

/-- Every request leaves what its observer expects. -/
theorem Observed.Recalls.after (h : o.Recalls) (request : Request) : (o.after request).Recalls := by
  cases request with
  | setLocalAddress address =>
    rw [Observed.after, Observed.note, Request.perform, setLocalAddress, act_whileInactive]
    cases o.site.source.isActive with
    | true => exact h
    | false => exact ⟨rfl, rfl, h.receivers, h.receiversService⟩
  | setDataPort port =>
    refine h.unnoted rfl ?_ ?_ <;>
    · rw [Request.perform, setDataPort, act_whileInactive]
      split <;> rfl
  | setControlPort port =>
    refine h.unnoted rfl ?_ ?_ <;>
    · rw [Request.perform, setControlPort, act_whileInactive]
      split <;> rfl
  | setReceivers endpoints => exact ⟨h.host, h.hostService, rfl, rfl⟩
  | activate n => exact h.activate n
  | sendControl n payload => exact h.sendControl n payload
  | next lookup =>
    obtain ⟨hlocal, hreceivers⟩ := nextItem_pools lookup o.site.source
    exact h.unnoted rfl hlocal hreceivers
  | arrive port d => cases port <;> exact h.unnoted rfl rfl rfl
  | setIncludeSender | setSenders | deactivate | cancel | others => exact h.unnoted rfl rfl rfl

theorem Observed.Recalls.afterAll (h : o.Recalls) (requests : List Request) :
    (o.afterAll requests).Recalls := by
  induction requests generalizing o with
  | nil => exact h
  | cons request rest ih => exact ih (h.after request)

/-- In a new site nothing has been asked. -/
theorem recalls_new (localAddress : Host) (dataPort controlPort : UInt16) (includeSender : Bool)
    (senders : List Host) (receivers : List Endpoint) (others : List SocketAddress) :
    (Observed.new localAddress dataPort controlPort includeSender senders receivers
      others).Recalls :=
  ⟨rfl, rfl, rfl, rfl⟩

end

/-- A host that reaches only itself, and whose name service knows it by every name. -/
def Network.renamed : Network :=
  { Network.loopback with lookup := fun _ => .ok [.v4 ⟨127, 0, 0, 1⟩] }

end MediaTransport.Socket
