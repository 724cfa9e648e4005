import MediaTransport.Proofs.Socket.Site

/-!
# Activation

An activation that fails leaves an inactive source, without sockets and with the same settings, but
the source has looked up its local address and remembers what came of it.  Until the local address
is set anew, later activations go by that memory, whatever the name service says by then, and report
a failure as a remembered one (`activate_refusedFromMemory`).  Nothing else is left: later requests
go as they would have gone without the attempt, had the name service answered the next activation as
it answered this one (`outcomes_resolved`).

An activation that succeeds holds two addresses until the source is deactivated
(`Site.Kept.held`), and until then the settings of the sockets stay as they are.  After whatever
has been requested, an activation fails for one of three reasons and otherwise succeeds
(`CannotOpen`).
-/

namespace MediaTransport.Socket

open Address

/-! ## The local address of a site -/

/-- The site with another local address. -/
def Site.relocated (site : Site) (localAddress : Pool Host Resolved) : Site :=
  { site with source := { site.source with localAddress } }

/-- The site after a use of the local address. -/
def Site.resolved (service : Lookup) (site : Site) : Site :=
  site.relocated (site.source.localAddress.settled (Host.resolve service))

/-- Two sites that cannot be told apart. -/
def Site.Alike (site other : Site) : Prop :=
  ∃ localAddress, localAddress.Alike site.source.localAddress ∧ other = site.relocated localAddress

/-- The request neither sets the local address nor looks it up. -/
def Request.ignoresHost : Request → Bool
  | .setLocalAddress _ | .activate _ => false
  | _ => true

section

variable {site other : Site} {request : Request} {localAddress : Pool Host Resolved}

theorem perform_relocated (h : request.ignoresHost = true) :
    request.perform (site.relocated localAddress)
      = ((request.perform site).1, (request.perform site).2.relocated localAddress) := by
  have hactive : (site.relocated localAddress).source.isActive = site.source.isActive := rfl
  cases request with
  | setLocalAddress | activate => cases h
  | setDataPort port =>
    rw [Request.perform, Request.perform, setDataPort, act_whileInactive, act_whileInactive,
      hactive]
    split <;> rfl
  | setControlPort port =>
    rw [Request.perform, Request.perform, setControlPort, act_whileInactive, act_whileInactive,
      hactive]
    split <;> rfl
  | next lookup =>
    have hpools : (site.relocated localAddress).source
        = site.source.withPools localAddress site.source.receivers := rfl
    obtain ⟨-, hreceivers⟩ := nextItem_pools lookup site.source
    rw [Request.perform, Request.perform, act_onSource, act_onSource, hpools, nextItem_withPools,
      ← hreceivers]
    rfl
  | sendControl n payload =>
    rw [Request.perform, Request.perform, act_onSource, act_onSource]
    cases hs : site.source.isActive with
    | false =>
      rw [sendControl_inactive payload hs, sendControl_inactive payload (hactive.trans hs)]
    | true =>
      obtain ⟨k, hk⟩ := Option.isSome_iff_exists.1 hs
      have hk' : (site.relocated localAddress).source.sockets = some k := hk
      rw [sendControl_run payload hk, sendControl_run payload hk']
      rfl
  | arrive port d => cases port <;> rfl
  | setIncludeSender | setSenders | setReceivers | deactivate | cancel | others => rfl

theorem perform_localAddress (h : request.ignoresHost = true) :
    (request.perform site).2.source.localAddress = site.source.localAddress := by
  have hself : request.perform (site.relocated site.source.localAddress) = (_, _) :=
    perform_relocated h
  exact congrArg (·.2.source.localAddress) hself

theorem perform_resolved (h : request.ignoresHost = true) (service : Lookup) :
    request.perform (site.resolved service)
      = ((request.perform site).1, (request.perform site).2.resolved service) := by
  rw [Site.resolved, perform_relocated h, Site.resolved, perform_localAddress h]

/-- Nothing but an activation opens the sockets. -/
theorem perform_inactive (h : request.ignoresHost = true) (hs : site.source.isActive = false) :
    (request.perform site).2.source.isActive = false := by
  cases request with
  | setLocalAddress | activate => cases h
  | setDataPort port =>
    rw [Request.perform, setDataPort, act_whileInactive, hs]
    exact hs
  | setControlPort port =>
    rw [Request.perform, setControlPort, act_whileInactive, hs]
    exact hs
  | next lookup =>
    have haddresses := nextItem_addresses lookup site.source
    rw [addresses_of_inactive hs] at haddresses
    rw [Request.perform, act_onSource, ← Bool.not_eq_true, isActive_iff_addresses, haddresses]
    exact not_not.2 rfl
  | sendControl n payload =>
    rw [Request.perform, act_onSource, sendControl_inactive payload hs]
    exact hs
  | arrive port d => exact (isActive_arrive site.source port d).trans hs
  | deactivate => rfl
  | setIncludeSender | setSenders | setReceivers | cancel | others => exact hs

/-! ## Sites that cannot be told apart -/

/-- The local address that is set takes the place of the one before. -/
theorem setLocalAddress_alike (hs : site.source.isActive = false)
    (localAddress : Pool Host Resolved) (address : Host) :
    ((Request.setLocalAddress address).perform (site.relocated localAddress)).1
        = ((Request.setLocalAddress address).perform site).1 ∧
      ((Request.setLocalAddress address).perform site).2.Alike
        ((Request.setLocalAddress address).perform (site.relocated localAddress)).2 := by
  have hs' : (site.relocated localAddress).source.isActive = false := hs
  rw [Request.perform, Request.perform, setLocalAddress, act_whileInactive, act_whileInactive, hs,
    hs']
  exact ⟨rfl, _, Pool.alike_replace _ _ [address], rfl⟩

/-- What is left of an earlier local address makes no difference to a request. -/
theorem Site.Alike.perform (h : site.Alike other) (request : Request) :
    (request.perform other).1 = (request.perform site).1 ∧
      (request.perform site).2.Alike (request.perform other).2 := by
  obtain ⟨localAddress, halike, rfl⟩ := h
  have hactive : (site.relocated localAddress).source.isActive = site.source.isActive := rfl
  cases hignores : request.ignoresHost with
  | true =>
    rw [perform_relocated hignores]
    exact ⟨rfl, localAddress, (perform_localAddress hignores).symm ▸ halike, rfl⟩
  | false =>
    cases request with
    | activate n =>
      cases hs : site.source.isActive with
      | true =>
        rw [perform_activate_active hs, perform_activate_active (hactive.trans hs)]
        exact ⟨rfl, localAddress, halike, rfl⟩
      | false =>
        have hopening : (site.relocated localAddress).source.opening n
            (site.relocated localAddress).bound = site.source.opening n site.bound :=
          congrArg (· >>= _) (halike.standing (Host.resolve n.lookup))
        have hsettled := halike.settled (Host.resolve n.lookup)
        rw [perform_activate hs, perform_activate (hactive.trans hs), hopening]
        cases site.source.opening n site.bound <;> exact ⟨rfl, _, hsettled, rfl⟩
    | setLocalAddress address =>
      cases hs : site.source.isActive with
      | true =>
        rw [Request.perform, Request.perform, setLocalAddress, act_whileInactive,
          act_whileInactive, hactive, hs]
        exact ⟨rfl, localAddress, halike, rfl⟩
      | false => exact setLocalAddress_alike hs localAddress address
    | _ => cases hignores

theorem Site.Alike.performAll (h : site.Alike other) (requests : List Request) :
    other.outcomes requests = site.outcomes requests ∧
      (site.afterAll requests).Alike (other.afterAll requests) := by
  induction requests generalizing site other with
  | nil => exact ⟨rfl, h⟩
  | cons request rest ih =>
    obtain ⟨hfirst, hafter⟩ := h.perform request
    obtain ⟨hrest, hlast⟩ := ih hafter
    exact ⟨congrArg₂ List.cons hfirst hrest, hlast⟩

end

/-! ## Attempts that leave a memory -/

/-- The network of the next activation, if there is one before the local address is set. -/
def nextActivation? : List Request → Option Network
  | [] => none
  | .activate n :: _ => some n
  | .setLocalAddress _ :: _ => none
  | _ :: rest => nextActivation? rest

/-- The requests, but that the next activation is answered by another name service, if there is one
before the local address is set. -/
def answeredBy (service : Lookup) : List Request → List Request
  | [] => []
  | .activate n :: rest => .activate { n with lookup := service } :: rest
  | .setLocalAddress address :: rest => .setLocalAddress address :: rest
  | request :: rest => request :: answeredBy service rest

section

variable {site : Site} {request : Request}

theorem nextActivation?_cons (h : request.ignoresHost = true) (rest : List Request) :
    nextActivation? (request :: rest) = nextActivation? rest := by
  cases request with
  | setLocalAddress | activate => cases h
  | _ => rfl

theorem answeredBy_cons (h : request.ignoresHost = true) (service : Lookup) (rest : List Request) :
    answeredBy service (request :: rest) = request :: answeredBy service rest := by
  cases request with
  | setLocalAddress | activate => cases h
  | _ => rfl

/-- The name service is asked for the local address only. -/
theorem opening_lookup (n : Network) (service : Lookup) (taken : List SocketAddress)
    (source : Source) : source.opening { n with lookup := service } taken
      = source.localAddress.standing (Host.resolve service) >>= fun hosts => firstHost hosts >>=
        fun r => openSockets n taken r source.dataPort source.controlPort :=
  rfl

/-- The local address has been looked up, so an activation goes by what came of that. -/
theorem activate_resolved (hs : site.source.isActive = false) (service : Lookup) (n : Network) :
    Remembers ((Request.activate { n with lookup := service }).perform site).1
        ((Request.activate n).perform (site.resolved service)).1 ∧
      ((Request.activate n).perform (site.resolved service)).2
        = ((Request.activate { n with lookup := service }).perform site).2 := by
  have hs' : (site.resolved service).source.isActive = false := hs
  have hopening : Remembers (site.source.opening { n with lookup := service } site.bound)
      ((site.resolved service).source.opening n (site.resolved service).bound) := by
    rw [opening_lookup]
    exact (Pool.remembers_settled (Host.resolve service) (Host.resolve n.lookup) _).bind _
  have hsource : (site.resolved service).source.resolved n.lookup
      = site.source.resolved service :=
    congrArg (fun localAddress => { site.source with localAddress })
      (Pool.settled_settled (Host.resolve service) (Host.resolve n.lookup) _)
  rw [perform_activate hs, perform_activate hs', hsource]
  generalize site.source.opening { n with lookup := service } site.bound = outcome at hopening ⊢
  generalize (site.resolved service).source.opening n (site.resolved service).bound
    = outcome' at hopening ⊢
  cases hopening with
  | same => cases outcome <;> exact ⟨.same _, rfl⟩
  | failure e => exact ⟨.failure e, rfl⟩

theorem remembers_refl (outcomes : List (Except Error Answer)) :
    List.Forall₂ Remembers outcomes outcomes :=
  List.forall₂_same.2 fun outcome _ => .same outcome

/-- An inactive source that has looked up its local address goes on as if it had not, and the next
activation were answered by the name service that it asked. -/
theorem outcomes_resolved (hs : site.source.isActive = false) (service : Lookup)
    (requests : List Request) :
    List.Forall₂ Remembers (site.outcomes (answeredBy service requests))
        ((site.resolved service).outcomes requests) ∧
      ∃ localAddress, (site.resolved service).afterAll requests
        = (site.afterAll (answeredBy service requests)).relocated localAddress := by
  induction requests generalizing site with
  | nil => exact ⟨.nil, _, rfl⟩
  | cons request rest ih =>
    cases hignores : request.ignoresHost with
    | true =>
      obtain ⟨houtcomes, localAddress, hlast⟩ := ih (perform_inactive hignores hs)
      have hperform : request.perform (site.resolved service) = (_, _) :=
        perform_resolved hignores service
      rw [answeredBy_cons hignores, Site.outcomes, Site.outcomes, Site.afterAll, Site.afterAll,
        List.foldl_cons, List.foldl_cons, hperform]
      exact ⟨.cons (.same _) houtcomes, localAddress, hlast⟩
    | false =>
      cases request with
      | activate n =>
        obtain ⟨hfirst, hafter⟩ := activate_resolved hs service n
        rw [answeredBy, Site.outcomes, Site.outcomes, Site.afterAll, Site.afterAll,
          List.foldl_cons, List.foldl_cons, hafter]
        exact ⟨.cons hfirst (remembers_refl _), _, rfl⟩
      | setLocalAddress address =>
        obtain ⟨hfirst, hafter⟩ := setLocalAddress_alike hs
          (site.source.localAddress.settled (Host.resolve service)) address
        obtain ⟨hrest, localAddress, -, hlast⟩ := hafter.performAll rest
        have houtcomes : (site.resolved service).outcomes (.setLocalAddress address :: rest)
            = site.outcomes (.setLocalAddress address :: rest) :=
          congrArg₂ List.cons hfirst hrest
        rw [answeredBy, houtcomes]
        exact ⟨remembers_refl _, localAddress, hlast⟩
      | _ => cases hignores

/-- It makes no difference that the next activation is answered by a name service which says what the
one that is asked says. -/
theorem answeredBy_agree {service : Lookup} {requests : List Request}
    (h : ∀ n ∈ nextActivation? requests,
      site.source.localAddress.standing (Host.resolve service)
          = site.source.localAddress.standing (Host.resolve n.lookup) ∧
        site.source.localAddress.settled (Host.resolve service)
          = site.source.localAddress.settled (Host.resolve n.lookup)) :
    site.outcomes (answeredBy service requests) = site.outcomes requests ∧
      site.afterAll (answeredBy service requests) = site.afterAll requests := by
  induction requests generalizing site with
  | nil => exact ⟨rfl, rfl⟩
  | cons request rest ih =>
    cases hignores : request.ignoresHost with
    | true =>
      rw [nextActivation?_cons hignores, ← perform_localAddress hignores] at h
      obtain ⟨houtcomes, hlast⟩ := ih h
      rw [answeredBy_cons hignores]
      exact ⟨congrArg₂ List.cons rfl houtcomes, hlast⟩
    | false =>
      cases request with
      | activate n =>
        obtain ⟨hstanding, hsettled⟩ := h n rfl
        have hperform : (Request.activate { n with lookup := service }).perform site
            = (Request.activate n).perform site := by
          cases hs : site.source.isActive with
          | true => rw [perform_activate_active hs, perform_activate_active hs]
          | false =>
            rw [perform_activate hs, perform_activate hs, opening_lookup, Source.opening,
              Source.resolved, Source.resolved, hstanding, hsettled]
        rw [answeredBy]
        constructor
        · rw [Site.outcomes, Site.outcomes, hperform]
        · rw [Site.afterAll, Site.afterAll, List.foldl_cons, List.foldl_cons, hperform]
      | setLocalAddress address => exact ⟨rfl, rfl⟩
      | _ => cases hignores

end

/-! ## Outcomes of an activation -/

/-- Why the sockets cannot be opened at the ports of a host, beside addresses that are taken, when a
name service is asked for the host. -/
inductive CannotOpen (service : Lookup) (n : Network) (taken : List SocketAddress) (host : Host)
    (dataPort controlPort : UInt16) : Prop where
  /-- The host cannot be resolved. -/
  | resolution (e : Error) (h : Host.resolve service host = .error e)
  /-- No alternative can be bound at the port for media. -/
  | data (r : Resolved) (hr : Host.resolve service host = .ok r)
      (h : ∀ ip ∈ r.alternatives, CannotBind n taken (nativeAddress ip dataPort))
  /-- One can, and then no alternative can be bound at the port for control messages. -/
  | control (r : Resolved) (data : SocketAddress) (hr : Host.resolve service host = .ok r)
      (hdata : bindAny n taken r dataPort = .ok data)
      (h : ∀ ip ∈ r.alternatives, CannotBind n (data :: taken) (nativeAddress ip controlPort))

/-- The name service whose answer counts for the local address when the source is activated. -/
def Observed.hostLookup (o : Observed) (n : Network) : Lookup :=
  o.hostService.getD n.lookup

/-- What an activation that fails leaves of a site. -/
structure Failed (n : Network) (o : Observed) (after : Site) : Prop where
  /-- The source was inactive. -/
  before : o.site.source.isActive = false
  /-- It still is. -/
  inactive : after.source.isActive = false
  /-- Nothing is bound for it. -/
  own : after.own = []
  /-- What is bound for others is the same. -/
  others : after.others = o.site.others
  /-- So are the settings. -/
  settings : after.source
    = { o.site.source with localAddress := after.source.localAddress }
  /-- The local address too, but for what is remembered of it. -/
  configured : after.source.localAddress.configured = o.site.source.localAddress.configured
  /-- Whatever is requested later goes as it would have gone without the attempt, if the name service
  that counted for the attempt were asked at the next activation too.  When the local address is
  set before, it makes no difference at all. -/
  later : ∀ requests : List Request,
    List.Forall₂ Remembers (o.site.outcomes (answeredBy (o.hostLookup n) requests))
        (after.outcomes requests) ∧
      (after.afterAll requests).own
        = (o.site.afterAll (answeredBy (o.hostLookup n) requests)).own ∧
      (after.afterAll requests).others
        = (o.site.afterAll (answeredBy (o.hostLookup n) requests)).others
  /-- So everything goes as it would have gone without the attempt, as long as the name service that
  counts for the next activation says of the local address what it said at the attempt. -/
  unchanged : ∀ requests : List Request,
    (∀ next ∈ nextActivation? requests,
      Host.resolve (o.hostLookup next) o.host = Host.resolve (o.hostLookup n) o.host) →
    List.Forall₂ Remembers (o.site.outcomes requests) (after.outcomes requests) ∧
      (after.afterAll requests).own = (o.site.afterAll requests).own ∧
      (after.afterAll requests).others = (o.site.afterAll requests).others

/-- What an activation of an inactive source that succeeds leaves of a site. -/
structure Succeeded (site after : Site) (data control : SocketAddress) : Prop where
  /-- Two addresses are bound for the source. -/
  own : after.own = [control, data]
  /-- They are different ones. -/
  ne : control ≠ data
  /-- They were free. -/
  free : data ∉ site.others ∧ control ∉ site.others
  /-- They have the ports that were asked for. -/
  ports : (site.source.dataPort ≠ 0 → data.port = site.source.dataPort) ∧
    (site.source.controlPort ≠ 0 → control.port = site.source.controlPort)
  /-- What is bound for others is the same. -/
  others : after.others = site.others
  /-- They are bound for the source until it is deactivated. -/
  held : ∀ requests : List Request, .deactivate ∉ requests →
    (after.afterAll requests).source.isActive = true ∧
      (after.afterAll requests).own = [control, data]
  /-- Then they are free again. -/
  released : ∀ requests : List Request, .deactivate ∉ requests →
    (after.afterAll requests).deactivate.source.isActive = false ∧
      (after.afterAll requests).deactivate.own = [] ∧
      (after.afterAll requests).deactivate.others = (after.afterAll requests).others

section

variable {n : Network} {o : Observed} {site after : Site} {k : Sockets} {host : Host}

/-! ### Failures -/

theorem mapM_singleton_resolve (service : Lookup) (host : Host) :
    [host].mapM (Host.resolve service) = (Host.resolve service host).map ([·]) := by
  rw [List.mapM_cons]
  cases Host.resolve service host <;> rfl

/-- Name services that say the same of the local address leave the same memory. -/
theorem Observed.Recalls.agree (h : o.Recalls) {lookup lookup' : Lookup}
    (hsame : Host.resolve (o.hostService.getD lookup) o.host
      = Host.resolve (o.hostService.getD lookup') o.host) :
    o.site.source.localAddress.standing (Host.resolve lookup)
        = o.site.source.localAddress.standing (Host.resolve lookup') ∧
      o.site.source.localAddress.settled (Host.resolve lookup)
        = o.site.source.localAddress.settled (Host.resolve lookup') := by
  refine h.hostService.agree ?_
  rw [h.host, mapM_singleton_resolve, mapM_singleton_resolve, hsame]

theorem getD_getD (service : Option Lookup) (lookup : Lookup) :
    service.getD (service.getD lookup) = service.getD lookup := by
  cases service <;> rfl

theorem Observed.Recalls.failed (h : o.Recalls) (hkept : o.site.Kept) {e : Error}
    (hfail : (Request.activate n).perform o.site = (.error e, after)) : Failed n o after := by
  cases hs : o.site.source.isActive with
  | true =>
    rw [perform_activate_active hs] at hfail
    cases hfail
  | false =>
    have hafter : after = o.site.resolved n.lookup := by
      rw [perform_activate hs] at hfail
      cases hopening : o.site.source.opening n o.site.bound with
      | ok k =>
        rw [hopening] at hfail
        cases hfail
      | error e' =>
        rw [hopening] at hfail
        cases hfail
        rfl
    obtain ⟨hown, -⟩ := hkept.bound_of_inactive hs
    have hagree := h.agree (congrArg (Host.resolve · o.host) (getD_getD o.hostService n.lookup))
    have hservice : o.site.resolved (o.hostLookup n) = o.site.resolved n.lookup :=
      congrArg o.site.relocated hagree.2
    rw [← hservice] at hafter
    subst hafter
    have hlater (requests : List Request) := outcomes_resolved hs (o.hostLookup n) requests
    refine ⟨hs, hs, hown, rfl, rfl, Pool.settled_configured, fun requests => ?_,
      fun requests hsame => ?_⟩
    · obtain ⟨houtcomes, localAddress, hlast⟩ := hlater requests
      rw [hlast]
      exact ⟨houtcomes, rfl, rfl⟩
    · obtain ⟨houtcomes, localAddress, hlast⟩ := hlater requests
      obtain ⟨hplain, hplainLast⟩ : o.site.outcomes (answeredBy (o.hostLookup n) requests) = _ ∧
          o.site.afterAll (answeredBy (o.hostLookup n) requests) = _ :=
        answeredBy_agree fun next hnext =>
          h.agree ((congrArg (Host.resolve · o.host) (getD_getD o.hostService n.lookup)).trans
            (hsame next hnext).symm)
      rw [hplain] at houtcomes
      rw [hlast, hplainLast]
      exact ⟨houtcomes, rfl, rfl⟩

/-! ### Successes -/

/-- Only an activation of an inactive source and a deactivation touch what is bound for it. -/
theorem perform_own {request : Request} (hactive : site.source.isActive = true)
    (hrequest : request ≠ .deactivate) : (request.perform site).2.own = site.own := by
  cases request with
  | deactivate => exact absurd rfl hrequest
  | activate n => rw [perform_activate_active hactive]
  | setLocalAddress | setDataPort | setControlPort | setIncludeSender | setSenders | setReceivers
  | cancel | next | sendControl | arrive | others => rfl

theorem Site.Kept.isActive_iff (h : site.Kept) : site.source.isActive = true ↔ site.own ≠ [] := by
  rw [isActive_iff_addresses, h.own]

/-- The sockets stay open until the source is deactivated. -/
theorem Site.Kept.held (h : site.Kept) (hactive : site.source.isActive = true)
    {requests : List Request} (hrequests : .deactivate ∉ requests) :
    (site.afterAll requests).source.isActive = true ∧ (site.afterAll requests).own = site.own := by
  induction requests generalizing site with
  | nil => exact ⟨hactive, rfl⟩
  | cons request rest ih =>
    obtain ⟨hne, hrest⟩ := not_or.1 (mt List.mem_cons.2 hrequests)
    have hown : (request.perform site).2.own = site.own := perform_own hactive (Ne.symm hne)
    have hafter := h.perform request
    have hstill : (request.perform site).2.source.isActive = true := by
      rw [hafter.isActive_iff, hown, ← h.isActive_iff]
      exact hactive
    obtain ⟨hlast, heq⟩ := ih hafter hstill hrest
    exact ⟨hlast, heq.trans hown⟩

theorem Site.Kept.succeeded (h : site.Kept) (hs : site.source.isActive = false)
    (hok : (Request.activate n).perform site = (.ok .done, after)) :
    ∃ data control, Succeeded site after data control := by
  have hkept := h.perform (.activate n)
  rw [hok] at hkept
  obtain ⟨hown, hbound⟩ := h.bound_of_inactive hs
  rw [perform_activate hs, hbound, hown] at hok
  cases hopening : site.source.opening n site.others with
  | error e =>
    rw [hopening] at hok
    cases hok
  | ok k =>
    rw [hopening] at hok
    cases hok
    obtain ⟨⟨hdata, hdataPort⟩, hcontrol, hcontrolPort⟩ := opening_fresh hopening
    obtain ⟨hne, hfree⟩ := not_or.1 (mt List.mem_cons.2 hcontrol)
    refine ⟨k.data.address, k.control.address, rfl, hne, ⟨hdata, hfree⟩,
      ⟨hdataPort, hcontrolPort⟩, rfl, fun requests hrequests => hkept.held rfl hrequests,
      fun requests _ => ⟨rfl, (hkept.afterAll requests).deactivate.own, rfl⟩⟩

/-! ### Reasons -/

theorem cannotOpen_iff {service : Lookup} {taken : List SocketAddress}
    {dataPort controlPort : UInt16} : CannotOpen service n taken host dataPort controlPort ↔ ∃ e,
      (Host.resolve service host >>= fun r => openSockets n taken r dataPort controlPort)
        = .error e := by
  constructor
  · intro h
    cases h with
    | resolution e h => exact ⟨e, by rw [h]; rfl⟩
    | data r hr h =>
      obtain ⟨e, he⟩ := bindAny_error_iff.2 h
      exact ⟨e, by rw [hr]; simp only [openSockets, bind, Except.bind, he]⟩
    | control r data hr hdata h =>
      obtain ⟨e, he⟩ := bindAny_error_iff.2 h
      exact ⟨e, by rw [hr]; simp only [openSockets, bind, Except.bind, hdata, he]⟩
  · rintro ⟨e, h⟩
    cases hr : Host.resolve service host with
    | error e => exact .resolution e hr
    | ok r =>
      rw [hr] at h
      cases hdata : bindAny n taken r dataPort with
      | error e => exact .data r hr (bindAny_error_iff.1 ⟨e, hdata⟩)
      | ok data =>
        cases hcontrol : bindAny n (data :: taken) r controlPort with
        | error e => exact .control r data hr hdata (bindAny_error_iff.1 ⟨e, hcontrol⟩)
        | ok control =>
          simp only [openSockets, bind, Except.bind, hdata, hcontrol] at h
          cases h

/-- The memory of the local address decides only how a failure to resolve it is reported. -/
theorem Observed.Recalls.remembers_opening (h : o.Recalls) (n : Network)
    (taken : List SocketAddress) :
    Remembers (Host.resolve (o.hostLookup n) o.host >>= fun r =>
        openSockets n taken r o.site.source.dataPort o.site.source.controlPort)
      (o.site.source.opening n taken) := by
  have hstanding := h.hostService.standing n.lookup
  rw [h.host, mapM_singleton_resolve] at hstanding
  have hopening := hstanding.bind fun hosts => firstHost hosts >>= fun r =>
    openSockets n taken r o.site.source.dataPort o.site.source.controlPort
  have hfirst : ((Host.resolve (o.hostService.getD n.lookup) o.host).map ([·]) >>= fun hosts =>
      firstHost hosts >>= fun r =>
        openSockets n taken r o.site.source.dataPort o.site.source.controlPort)
      = Host.resolve (o.hostLookup n) o.host >>= fun r =>
        openSockets n taken r o.site.source.dataPort o.site.source.controlPort := by
    rw [Observed.hostLookup]
    cases Host.resolve (o.hostService.getD n.lookup) o.host <;> rfl
  rwa [hfirst] at hopening

/-- An activation fails just when the sockets cannot be opened. -/
theorem Observed.Recalls.fails_iff (h : o.Recalls) (hkept : o.site.Kept) (n : Network) :
    (∃ e after, (Request.activate n).perform o.site = (.error e, after)) ↔
      o.site.source.isActive = false ∧ CannotOpen (o.hostLookup n) n o.site.others o.host
        o.site.source.dataPort o.site.source.controlPort := by
  cases hs : o.site.source.isActive with
  | true =>
    rw [perform_activate_active hs]
    constructor
    · rintro ⟨e, after, ⟨⟩⟩
    · rintro ⟨⟨⟩, -⟩
  | false =>
    obtain ⟨-, hbound⟩ := hkept.bound_of_inactive hs
    rw [perform_activate hs, hbound, cannotOpen_iff, (h.remembers_opening n _).exists_error_iff]
    cases o.site.source.opening n o.site.others with
    | error e => exact iff_of_true ⟨e, _, rfl⟩ ⟨rfl, e, rfl⟩
    | ok k =>
      constructor
      · rintro ⟨e, after, ⟨⟩⟩
      · rintro ⟨-, e, ⟨⟩⟩

/-- A local address that cannot be resolved is the reason at the first look, and the memory of it
later. -/
theorem Observed.Recalls.reported (h : o.Recalls) (hs : o.site.source.isActive = false) {e : Error}
    (hhost : Host.resolve (o.hostLookup n) o.host = .error e) :
    ((Request.activate n).perform o.site).1
      = .error (if o.hostService.isSome then rememberedFailure e.message else e) := by
  have hstanding : o.site.source.localAddress.standing (Host.resolve n.lookup)
      = .error (if o.hostService.isSome then rememberedFailure e.message else e) := by
    rw [Observed.hostLookup] at hhost
    rw [h.hostService.standing_eq n.lookup, h.host, mapM_singleton_resolve, hhost]
    split <;> rfl
  rw [perform_activate hs, Source.opening, hstanding]
  rfl

/-- Two sockets cannot have one port of a host with one address. -/
theorem cannotOpen_of_equalPorts {service : Lookup} {taken : List SocketAddress} {r : Resolved}
    {ip : Ipv6} {port : UInt16} (hr : Host.resolve service host = .ok r)
    (hip : r.alternatives = [ip]) (hport : port ≠ 0) :
    CannotOpen service n taken host port port := by
  cases hdata : bindAny n taken r port with
  | error e => exact .data r hr (bindAny_error_iff.1 ⟨e, hdata⟩)
  | ok data =>
    refine .control r data hr hdata fun ip' hip' => ?_
    obtain ⟨ip'', hip'', hbind⟩ := bindAny_ok hdata
    rw [hip, List.mem_singleton] at hip' hip''
    subst hip' hip''
    obtain ⟨-, hsame⟩ := bind_ok hbind
    rw [hsame hport]
    exact .taken hport List.mem_cons_self

/-! ### What does not depend on the past -/

/-- Two addresses are bound for an active source, and none for another. -/
theorem Site.Kept.twoAddresses (h : site.Kept) :
    (site.source.isActive = true ∧ ∃ data control, site.own = [control, data] ∧ control ≠ data) ∨
      (site.source.isActive = false ∧ site.own = []) := by
  cases hs : site.source.isActive with
  | false => exact .inr ⟨rfl, (h.bound_of_inactive hs).1⟩
  | true =>
    obtain ⟨k, hk⟩ := Option.isSome_iff_exists.1 hs
    have hown : site.own = [k.control.address, k.data.address] := by
      rw [h.own, Source.addresses, hk]
      rfl
    have hnodup := h.nodup
    rw [hown, List.nodup_cons, List.mem_singleton] at hnodup
    exact .inl ⟨rfl, k.data.address, k.control.address, hown, hnodup.1⟩

theorem deactivate_inactive (hs : site.source.isActive = false) :
    Request.deactivate.perform site
      = (.ok .done, { site with source := site.source.deactivate }) := by
  rw [Request.perform, Site.deactivate, addresses_of_inactive hs]
  rfl

/-- An activation does for the source what it does without the host, beside all that is bound. -/
theorem activate_alone (n : Network) (site : Site) :
    (Site.activate n).run.run site = (((activate n site.bound).run.run site.source).1,
      { site with
        source := ((activate n site.bound).run.run site.source).2
        own := ((Site.activate n).run.run site).2.own }) := by
  cases hs : site.source.isActive with
  | true => rw [activate_site_active hs, activate_active n site.bound hs]
  | false =>
    rw [activate_site_run hs, activate_run hs]
    cases site.source.opening n site.bound <;> rfl

end

/-! ## Whole runs -/

/-- What holds of the sockets and the settings of a source. -/
structure Governed (o : Observed) : Prop where
  /-- Two addresses are bound for an active source, and none for another. -/
  own : (o.site.source.isActive = true ∧
      ∃ data control, o.site.own = [control, data] ∧ control ≠ data) ∨
    (o.site.source.isActive = false ∧ o.site.own = [])
  /-- The source has the local address that was set last. -/
  host : o.site.source.localAddress.configured = [o.host]
  /-- An activation does what it does for the source alone, beside all that is bound. -/
  alone : ∀ n : Network,
    (Site.activate n).run.run o.site = (((activate n o.site.bound).run.run o.site.source).1,
      { o.site with
        source := ((activate n o.site.bound).run.run o.site.source).2
        own := ((Site.activate n).run.run o.site).2.own })
  /-- It fails just when the sockets cannot be opened.  For the local address, the name service
  counts that was asked first since it was set. -/
  fails : ∀ n : Network, (∃ e after, (Request.activate n).perform o.site = (.error e, after)) ↔
    o.site.source.isActive = false ∧ CannotOpen (o.hostLookup n) n o.site.others o.host
      o.site.source.dataPort o.site.source.controlPort
  /-- When the local address cannot be resolved, the first activation reports the reason, and those
  that come later report it from memory. -/
  reported : ∀ (n : Network) (e : Error), o.site.source.isActive = false →
    Host.resolve (o.hostLookup n) o.host = .error e →
    ((Request.activate n).perform o.site).1
      = .error (if o.hostService.isSome then rememberedFailure e.message else e)
  /-- It also fails when both sockets are to have one port of a host with one address. -/
  equalPorts : ∀ (n : Network) (r : Resolved) (ip : Ipv6),
    Host.resolve (o.hostLookup n) o.host = .ok r → r.alternatives = [ip] →
    o.site.source.dataPort ≠ 0 → o.site.source.controlPort = o.site.source.dataPort →
    o.site.source.isActive = false →
      ∃ e after, (Request.activate n).perform o.site = (.error e, after)
  /-- A failure leaves nothing behind but what was found out about the local address. -/
  failed : ∀ n e after, (Request.activate n).perform o.site = (.error e, after) →
    Failed n o after
  /-- A success is held until the source is deactivated. -/
  succeeded : ∀ n after, o.site.source.isActive = false →
    (Request.activate n).perform o.site = (.ok .done, after) →
      ∃ data control, Succeeded o.site after data control
  /-- An active source is not activated again. -/
  active : ∀ n : Network, o.site.source.isActive = true →
    (Request.activate n).perform o.site = (.ok .done, o.site)
  /-- To deactivate an inactive source closes nothing. -/
  inactive : o.site.source.isActive = false →
    Request.deactivate.perform o.site
      = (.ok .done, { o.site with source := o.site.source.deactivate })
  /-- The settings of the sockets cannot be changed while the source is active. -/
  localAddress : ∀ address : Host, (Request.setLocalAddress address).perform o.site =
    if o.site.source.isActive then (.error (.active .localAddress), o.site)
    else (.ok .done, { o.site with source := { o.site.source with
      localAddress := o.site.source.localAddress.replace [address] } })
  dataPort : ∀ port : UInt16, (Request.setDataPort port).perform o.site =
    if o.site.source.isActive then (.error (.active .dataPort), o.site)
    else (.ok .done, { o.site with source := { o.site.source with dataPort := port } })
  controlPort : ∀ port : UInt16, (Request.setControlPort port).perform o.site =
    if o.site.source.isActive then (.error (.active .controlPort), o.site)
    else (.ok .done, { o.site with source := { o.site.source with controlPort := port } })

/-- A source holds two addresses or none after everything that can be requested of it, whatever the
network is like at each request.  A failed activation leaves no trace but what it found out about
the local address, and the settings are frozen while the source is active. -/
theorem governed_afterAll (localAddress : Host) (dataPort controlPort : UInt16)
    (includeSender : Bool) (senders : List Host) (receivers : List Endpoint)
    (others : List SocketAddress) (requests : List Request) :
    Governed ((Observed.new localAddress dataPort controlPort includeSender senders receivers
      others).afterAll requests) := by
  generalize ho : (Observed.new localAddress dataPort controlPort includeSender senders receivers
    others).afterAll requests = o
  have h : o.Recalls := ho ▸ (recalls_new ..).afterAll requests
  have hkept : o.site.Kept := by
    rw [← ho, afterAll_site]
    exact (kept_new ..).afterAll requests
  exact {
    own := hkept.twoAddresses
    host := h.host
    alone := fun n => activate_alone n o.site
    fails := h.fails_iff hkept
    reported := fun n e hs hhost => h.reported hs hhost
    equalPorts := fun n r ip hr hip hport hequal hs =>
      (h.fails_iff hkept n).2 ⟨hs, hequal.symm ▸ cannotOpen_of_equalPorts hr hip hport⟩
    failed := fun n e after => h.failed hkept
    succeeded := fun n after => hkept.succeeded
    active := fun n => perform_activate_active
    inactive := deactivate_inactive
    localAddress := fun address => act_whileInactive o.site .localAddress _
    dataPort := fun port => act_whileInactive o.site .dataPort _
    controlPort := fun port => act_whileInactive o.site .controlPort _ }

/-- A source at a name, to which no ports are given. -/
def Site.atName (name : String) : Site :=
  .new (.name name) 0 0 false [] [] []

/-- A source can be activated once its name is known.  But not when it was tried before: then the
activation fails without another look-up.  When the name is never known, the second activation does
not report what it would have reported without the first. -/
theorem activate_refusedFromMemory :
    let unknown : Error := .resolution "camera"
      "failed to lookup address information: Temporary failure in name resolution"
    let unusable : Error := .resolution "a\x00b" "file name contained an unexpected NUL byte"
    (Site.atName "camera").outcomes [.activate .renamed] = [.ok .done] ∧
    (Site.atName "camera").outcomes [.activate .loopback, .activate .renamed]
      = [.error unknown, .error (rememberedFailure unknown.message)] ∧
    (Site.atName "a\x00b").outcomes [.activate .loopback] = [.error unusable] ∧
    (Site.atName "a\x00b").outcomes [.activate .loopback, .activate .loopback]
      = [.error unusable, .error (rememberedFailure unusable.message)] ∧
    rememberedFailure unusable.message ≠ unusable := by
  decide +kernel

/-- A source whose port for control messages is taken. -/
def contested : Site :=
  .new (.ipv4 ⟨127, 0, 0, 1⟩) 5004 5005 false [] [] [⟨.v4 ⟨127, 0, 0, 1⟩, 5005⟩]

example : contested.outcomes [.activate .loopback, .others [], .activate .loopback, .setDataPort 9,
      .deactivate, .setDataPort 9]
    = [.error (.socket .bind 1 addressInUse), .ok .done, .ok .done, .error (.active .dataPort),
      .ok .done, .ok .done] := by
  decide +kernel

end MediaTransport.Socket
