import Mathlib.Data.List.Forall2
import MediaTransport.Proofs.Activity
import MediaTransport.Proofs.Address.Ip
import MediaTransport.Proofs.Address.Pool

/-!
# Calls on a pool of hosts

A pool is *asked* by `Pool.resolved` and by `Pool.authorizes`, and its list is *installed* when
it is made and by `Pool.replace`.  Whatever the order of the calls, the pool answers for the list
that was installed last, and looks up each of its hosts once at most.

A list is looked up in order, up to the first host that cannot be resolved.  `LooksUp` says what
is looked up and what comes out of it, and the same look-ups are found by a resolver that notes
what it is asked (`looksUp_mapM`).  A pool that has not been asked since its list was installed
has learned nothing of it, and one that has been asked has learned what comes out of it
(`IsInformed`).  Every call keeps that (`IsInformed.after`), and all answers follow from it
(`IsInformed.answers`).
-/

namespace MediaTransport.Address

variable {α β : Type} {resolve : α → Except Error β}

/-! ## Looking up a list -/

theorem exists_of_mem_of_forall₂ {entries : List α} {results : List β}
    (h : List.Forall₂ (fun a b => resolve a = .ok b) entries results) {a : α} (ha : a ∈ entries) :
    ∃ b, resolve a = .ok b := by
  induction h with
  | nil => cases ha
  | cons hfirst hrest ih =>
    obtain rfl | ha := List.mem_cons.1 ha
    · exact ⟨_, hfirst⟩
    · exact ih ha

/-- A property holds of some result just when it holds of the result of some entry. -/
theorem exists_mem_iff_of_forall₂ {entries : List α} {results : List β}
    (h : List.Forall₂ (fun a b => resolve a = .ok b) entries results) (P : β → Prop) :
    (∃ b ∈ results, P b) ↔ ∃ a ∈ entries, ∃ b, resolve a = .ok b ∧ P b := by
  induction h with
  | nil => simp
  | cons hfirst hrest ih => simp [hfirst, ih]

/-- The look-ups of a list and their outcome: all entries with their resolutions, or the entries
up to the first that cannot be resolved. -/
inductive LooksUp (resolve : α → Except Error β) :
    List α → List α → Except Error (List β) → Prop where
  | all {entries : List α} {results : List β}
      (h : List.Forall₂ (fun a b => resolve a = .ok b) entries results) :
      LooksUp resolve entries entries (.ok results)
  | failed {before after : List α} {a : α} {e : Error}
      (hbefore : ∀ b ∈ before, ∃ r, resolve b = .ok r) (ha : resolve a = .error e) :
      LooksUp resolve (before ++ a :: after) (before ++ [a]) (.error e)

namespace LooksUp

variable {entries noted : List α} {outcome : Except Error (List β)}

theorem cons {a : α} {b : β} (ha : resolve a = .ok b) (h : LooksUp resolve entries noted outcome) :
    LooksUp resolve (a :: entries) (a :: noted) (outcome.map (b :: ·)) := by
  cases h with
  | all hall => exact .all (.cons ha hall)
  | @failed before _ _ _ hbefore hfailed =>
    have hmore : ∀ other ∈ a :: before, ∃ r, resolve other = .ok r :=
      List.forall_mem_cons.2 ⟨⟨b, ha⟩, hbefore⟩
    exact .failed hmore hfailed

/-- Entries are looked up in their order, without a gap. -/
theorem isPrefix (h : LooksUp resolve entries noted outcome) : noted <+: entries := by
  cases h with
  | all => exact List.prefix_refl entries
  | failed => exact ⟨_, List.append_assoc _ [_] _⟩

/-- If every entry resolves, so does the list, each entry in its place. -/
theorem of_forall (h : LooksUp resolve entries noted outcome)
    (hall : ∀ a ∈ entries, ∃ b, resolve a = .ok b) :
    ∃ results, outcome = .ok results ∧
      List.Forall₂ (fun a b => resolve a = .ok b) entries results := by
  cases h with
  | all h => exact ⟨_, rfl, h⟩
  | failed _ ha =>
    obtain ⟨b, hb⟩ := hall _ (List.mem_append_cons_self)
    rw [ha] at hb
    cases hb

/-- Otherwise the outcome is the failure of the first entry that does not resolve. -/
theorem of_not_forall (h : LooksUp resolve entries noted outcome)
    (hnot : ¬∀ a ∈ entries, ∃ b, resolve a = .ok b) :
    ∃ before a after e, entries = before ++ a :: after ∧
      (∀ b ∈ before, ∃ r, resolve b = .ok r) ∧ resolve a = .error e ∧ outcome = .error e := by
  cases h with
  | all h => exact absurd (fun _ => exists_of_mem_of_forall₂ h) hnot
  | failed hbefore ha => exact ⟨_, _, _, _, rfl, hbefore, ha, rfl⟩

/-- A list fails to resolve just when one of its entries does. -/
theorem toBool_eq_false_iff (h : LooksUp resolve entries noted outcome) :
    outcome.toBool = false ↔ ∃ a ∈ entries, ¬∃ b, resolve a = .ok b := by
  by_cases hall : ∀ a ∈ entries, ∃ b, resolve a = .ok b
  · obtain ⟨results, rfl, -⟩ := h.of_forall hall
    simpa [Except.toBool] using hall
  · obtain ⟨_, _, _, e, -, -, -, rfl⟩ := h.of_not_forall hall
    simpa [Except.toBool] using hall

end LooksUp

/-- A look-up that is noted. -/
def noting (resolve : α → Except Error β) (a : α) : ExceptT Error (StateM (List α)) β := do
  modify (· ++ [a])
  liftM (resolve a)

theorem noting_run (resolve : α → Except Error β) (a : α) (log : List α) :
    (noting resolve a).run.run log = (resolve a, log ++ [a]) := by
  unfold noting
  cases resolve a <;> rfl

theorem mapM_cons_ok {a : α} {b : β} (ha : resolve a = .ok b) (rest : List α) :
    (a :: rest).mapM resolve = (rest.mapM resolve).map (b :: ·) := by
  rw [List.mapM_cons, ha]
  cases rest.mapM resolve <;> rfl

theorem mapM_of_forall₂ {entries : List α} {results : List β}
    (h : List.Forall₂ (fun a b => resolve a = .ok b) entries results) :
    entries.mapM resolve = .ok results := by
  induction h with
  | nil => rfl
  | cons ha _ ih =>
    rw [mapM_cons_ok ha, ih]
    rfl

/-- The first failure is the outcome, whatever comes behind it. -/
theorem mapM_of_failed {before after : List α} {a : α} {e : Error}
    (hbefore : ∀ b ∈ before, ∃ r, resolve b = .ok r) (ha : resolve a = .error e) :
    (before ++ a :: after).mapM resolve = .error e := by
  induction before with
  | nil =>
    rw [List.nil_append, List.mapM_cons, ha]
    rfl
  | cons b rest ih =>
    obtain ⟨⟨r, hr⟩, hrest⟩ := List.forall_mem_cons.1 hbefore
    rw [List.cons_append, mapM_cons_ok hr, ih hrest]
    rfl

/-- A resolver that notes its look-ups finds what the one that does not finds. -/
theorem looksUp_mapM (resolve : α → Except Error β) (entries : List α) :
    ∃ noted, LooksUp resolve entries noted (entries.mapM resolve) ∧
      ∀ log, (entries.mapM (noting resolve)).run.run log
        = (entries.mapM resolve, log ++ noted) := by
  induction entries with
  | nil => exact ⟨[], .all .nil, fun log => by rw [List.append_nil]; rfl⟩
  | cons a rest ih =>
    have hfirst := noting_run resolve a
    cases ha : resolve a with
    | error e =>
      have hnone : ∀ other ∈ ([] : List α), ∃ r, resolve other = .ok r := nofun
      rw [List.mapM_cons, List.mapM_cons, ha]
      refine ⟨[a], .failed hnone ha, fun log => ?_⟩
      rw [run_bind_error _ (ha ▸ hfirst log)]
      rfl
    | ok b =>
      obtain ⟨noted, hlooks, hrun⟩ := ih
      rw [mapM_cons_ok ha]
      refine ⟨a :: noted, hlooks.cons ha, fun log => ?_⟩
      have hrest := hrun (log ++ [a])
      rw [List.append_assoc, List.singleton_append] at hrest
      rw [List.mapM_cons, run_bind_ok _ (ha ▸ hfirst log)]
      cases hmore : rest.mapM resolve with
      | error e =>
        rw [run_bind_error _ (hmore ▸ hrest)]
        rfl
      | ok more =>
        rw [run_bind_ok _ (hmore ▸ hrest)]
        rfl

/-! ## Look-ups of a pool -/

/-- The entries that a pool looks up when it is asked. -/
def Pool.lookups (resolve : α → Except Error β) (p : Pool α β) : List α :=
  ((p.resolvedBy (noting resolve)).run []).2

/-- A stale pool looks its configured list up. -/
theorem Pool.looksUp_lookups {p : Pool α β} (h : p.isStale = true) :
    LooksUp resolve p.configured (p.lookups resolve) (p.configured.mapM resolve) := by
  obtain ⟨noted, hlooks, hrun⟩ := looksUp_mapM resolve p.configured
  have hnoted : p.lookups resolve = noted := by
    unfold Pool.lookups Pool.resolvedBy
    rw [if_pos h, StateT.run_bind, hrun]
    rfl
  rw [hnoted]
  exact hlooks

/-- A fresh one looks up nothing. -/
theorem Pool.lookups_eq_nil {p : Pool α β} (h : p.isStale = false) : p.lookups resolve = [] := by
  unfold Pool.lookups Pool.resolvedBy
  rw [h]
  rfl

theorem Pool.learn_isStale (p : Pool α β) (outcome : Except Error (List β)) :
    (p.learn outcome).isStale = false := by
  cases outcome <;> rfl

/-! ## Sequences of calls -/

/-- A call on a pool of hosts. -/
inductive Pool.Call where
  | replace (hosts : List Host)
  | resolved
  | authorizes (peer : SocketAddress)
  | isStale
  | hasFailed

/-- A pool that is watched. -/
structure Watched where
  pool : Pool Host Resolved
  /-- The list that was installed last. -/
  installed : List Host
  /-- Whether the pool has been asked since. -/
  isAsked : Bool := false
  /-- The hosts that have been looked up since, in order. -/
  lookedUp : List Host := []

namespace Watched

/-- A new pool. -/
def ofList (hosts : List Host) : Watched :=
  { pool := .ofList hosts, installed := hosts }

/-- The pool has been asked, and that has left it as it is given.  Both questions look up the
same hosts, since the one for a peer only looks through the resolution. -/
def asked (lookup : Lookup) (w : Watched) (pool : Pool Host Resolved) : Watched :=
  { pool
    installed := w.installed
    isAsked := true
    lookedUp := w.lookedUp ++ w.pool.lookups (Host.resolve lookup) }

/-- The pool after a call. -/
def after (lookup : Lookup) (w : Watched) : Pool.Call → Watched
  | .replace hosts => { pool := w.pool.replace hosts, installed := hosts }
  | .resolved => w.asked lookup ((Pool.resolved (Host.resolve lookup)).run.run w.pool).2
  | .authorizes peer => w.asked lookup ((Pool.authorizes lookup peer.ip).run.run w.pool).2
  | .isStale => w
  | .hasFailed => w

/-- The pool after some calls. -/
def afterAll (lookup : Lookup) (w : Watched) (calls : List Pool.Call) : Watched :=
  calls.foldl (after lookup) w

/-- What the pool returns when it is asked for its resolution. -/
def resolution (lookup : Lookup) (w : Watched) : Except Error (List Resolved) :=
  ((Pool.resolved (Host.resolve lookup)).run.run w.pool).1

/-- What the pool returns when it is asked for the right of a peer. -/
def admission (lookup : Lookup) (w : Watched) (peer : SocketAddress) : Except Error Bool :=
  ((Pool.authorizes lookup peer.ip).run.run w.pool).1

end Watched

/-- A pool that has not been asked since its list was installed has learned nothing of the list,
and one that has been asked has learned what comes out of it. -/
inductive IsInformed (lookup : Lookup) : Watched → Prop where
  | unasked {p : Pool Host Resolved} (hstale : p.isStale = true) (hfailure : p.failure = none) :
      IsInformed lookup { pool := p, installed := p.configured }
  | asked {p : Pool Host Resolved} {noted : List Host} {outcome : Except Error (List Resolved)}
      (h : LooksUp (Host.resolve lookup) p.configured noted outcome) :
      IsInformed lookup
        { pool := p.learn outcome, installed := p.configured, isAsked := true, lookedUp := noted }

namespace IsInformed

variable {lookup : Lookup} {w : Watched}

/-- A question leaves the pool settled, and so informed. -/
theorem settled (h : IsInformed lookup w) :
    IsInformed lookup (w.asked lookup (w.pool.settled (Host.resolve lookup))) := by
  cases h with
  | unasked hstale =>
    rw [Pool.settled_of_stale hstale]
    exact .asked (Pool.looksUp_lookups hstale)
  | @asked p noted outcome h =>
    have hfresh : (p.learn outcome).isStale = false := p.learn_isStale outcome
    rw [Pool.settled_of_fresh hfresh, Watched.asked, Pool.lookups_eq_nil hfresh, List.append_nil]
    exact .asked h

/-- Every call keeps a pool informed. -/
theorem after (h : IsInformed lookup w) (call : Pool.Call) :
    IsInformed lookup (w.after lookup call) := by
  cases call with
  | replace hosts => exact .unasked (p := w.pool.replace hosts) rfl rfl
  | resolved =>
    rw [Watched.after, Pool.resolved_run]
    exact h.settled
  | authorizes peer =>
    rw [Watched.after, Pool.authorizes_run]
    exact h.settled
  | isStale => exact h
  | hasFailed => exact h

theorem afterAll (h : IsInformed lookup w) (calls : List Pool.Call) :
    IsInformed lookup (w.afterAll lookup calls) := by
  induction calls generalizing w with
  | nil => exact h
  | cons call rest ih => exact ih (h.after call)

end IsInformed

/-! ## Answers -/

/-- A host that can be resolved. -/
def Host.Resolves (lookup : Lookup) (host : Host) : Prop :=
  ∃ r, host.resolve lookup = .ok r

/-- An error is reported as it is to the first question, and as one that is remembered to the
later ones. -/
def Watched.report (w : Watched) (e : Error) : Error :=
  if w.isAsked then rememberedFailure e.message else e

/-- What a pool answers, by the list that was installed last. -/
structure Answers (lookup : Lookup) (w : Watched) : Prop where
  /-- When all its hosts can be resolved, their resolutions are returned in order. -/
  resolution : (∀ host ∈ w.installed, host.Resolves lookup) →
    ∃ results, w.resolution lookup = .ok results ∧
      List.Forall₂ (fun host r => host.resolve lookup = .ok r) w.installed results
  /-- A peer is then admitted exactly if the place of its address among the IPv6 addresses is an
  alternative of one of them. -/
  admission : (∀ host ∈ w.installed, host.Resolves lookup) → ∀ peer,
    ∃ b, w.admission lookup peer = .ok b ∧
      (b = true ↔ ∃ host ∈ w.installed, ∃ r, host.resolve lookup = .ok r ∧
        ∃ place ∈ r.alternatives, peer.ip.HasPlace place)
  /-- Otherwise every question fails, with the error of the first host that cannot be resolved. -/
  failure : (¬∀ host ∈ w.installed, host.Resolves lookup) →
    ∃ before host after e, w.installed = before ++ host :: after ∧
      (∀ other ∈ before, other.Resolves lookup) ∧ host.resolve lookup = .error e ∧
      w.resolution lookup = .error (w.report e) ∧
      ∀ peer, w.admission lookup peer = .error (w.report e)
  /-- It does not matter from which port a peer speaks. -/
  port : ∀ (ip : Ip) (port port' : UInt16),
    w.admission lookup ⟨ip, port⟩ = w.admission lookup ⟨ip, port'⟩
  /-- Nor does it matter whether its address is given as `a.b.c.d` or as `::ffff:a.b.c.d`. -/
  family : ∀ (ip : Ipv4) (place : Ipv6) (port : UInt16), (Ip.v4 ip).HasPlace place →
    w.admission lookup ⟨.v4 ip, port⟩ = w.admission lookup ⟨.v6 place, port⟩
  /-- The list is stale until it is asked for. -/
  isStale : w.pool.isStale = !w.isAsked
  /-- The pool has failed when it was asked and a host cannot be resolved. -/
  hasFailed : w.pool.hasFailed = true ↔
    w.isAsked = true ∧ ∃ host ∈ w.installed, ¬host.Resolves lookup
  /-- Nothing is looked up before it is asked, and every entry once at most, in order. -/
  lookedUp : w.lookedUp <+: w.installed ∧ (w.isAsked = false → w.lookedUp = [])

section

variable {lookup : Lookup} {w : Watched}

/-- A watched pool returns what stands in it. -/
theorem resolution_eq (lookup : Lookup) (w : Watched) :
    w.resolution lookup = w.pool.standing (Host.resolve lookup) := by
  rw [Watched.resolution, Pool.resolved_run]

/-- A peer is admitted when one of the resolved hosts has its place. -/
theorem admission_eq (lookup : Lookup) (w : Watched) (peer : SocketAddress) :
    w.admission lookup peer = (w.resolution lookup).map
      fun results => results.any (·.contains peer.ip.mapped) := by
  rw [Watched.admission, Pool.authorizes_run, resolution_eq]

/-- The look-ups of the list have an outcome, and it is returned. -/
theorem IsInformed.outcome (h : IsInformed lookup w) : ∃ noted outcome,
    LooksUp (Host.resolve lookup) w.installed noted outcome ∧
      w.resolution lookup = outcome.mapError w.report ∧
      w.pool.hasFailed = (w.isAsked && !outcome.toBool) := by
  rw [resolution_eq]
  cases h with
  | @unasked p hstale hfailure =>
    refine ⟨_, _, Pool.looksUp_lookups hstale, ?_, ?_⟩
    · rw [Pool.standing, if_pos hstale]
      cases p.configured.mapM (Host.resolve lookup) <;> rfl
    · rw [Pool.hasFailed, hfailure]
      rfl
  | @asked p noted outcome h =>
    refine ⟨noted, outcome, h, ?_⟩
    cases outcome <;> exact ⟨rfl, rfl⟩

/-- A pool is stale until it has been asked about the list it was given. -/
theorem IsInformed.isStale (h : IsInformed lookup w) : w.pool.isStale = !w.isAsked := by
  cases h with
  | unasked hstale => exact hstale
  | @asked p _ outcome => exact p.learn_isStale outcome

/-- What was looked up so far is an opening of the list that was installed, and none of it before
the pool is asked. -/
theorem IsInformed.lookedUp (h : IsInformed lookup w) :
    w.lookedUp <+: w.installed ∧ (w.isAsked = false → w.lookedUp = []) := by
  cases h with
  | unasked => exact ⟨List.nil_prefix, fun _ => rfl⟩
  | asked h => exact ⟨h.isPrefix, nofun⟩

/-- A watched pool answers as its history says. -/
theorem IsInformed.answers (h : IsInformed lookup w) : Answers lookup w := by
  obtain ⟨noted, outcome, hlooks, hresolution, hfailed⟩ := h.outcome
  refine ⟨fun hall => ?_, fun hall peer => ?_, fun hnot => ?_, fun ip port port' => ?_,
    fun ip place port hplace => ?_, h.isStale, ?_, h.lookedUp⟩
  · obtain ⟨results, rfl, hresults⟩ := hlooks.of_forall hall
    exact ⟨results, hresolution, hresults⟩
  · obtain ⟨results, rfl, hresults⟩ := hlooks.of_forall hall
    refine ⟨results.any (·.contains peer.ip.mapped), ?_, ?_⟩
    · rw [admission_eq, hresolution]
      rfl
    · simp only [List.any_eq_true, Resolved.contains, List.contains_iff_mem, hasPlace_iff,
        exists_eq_right]
      exact exists_mem_iff_of_forall₂ hresults (peer.ip.mapped ∈ ·.alternatives)
  · obtain ⟨before, host, after, e, hinstalled, hbefore, hhost, rfl⟩ := hlooks.of_not_forall hnot
    refine ⟨before, host, after, e, hinstalled, hbefore, hhost, hresolution, fun peer => ?_⟩
    rw [admission_eq, hresolution]
    rfl
  · rw [admission_eq, admission_eq]
  · rw [admission_eq, admission_eq, hasPlace_iff.1 hplace]
    rfl
  · rw [hfailed, Bool.and_eq_true, Bool.not_eq_true', hlooks.toBool_eq_false_iff]
    rfl

/-- A pool of hosts answers for the list that was installed last, whatever calls came before. -/
theorem answers_afterAll (lookup : Lookup) (hosts : List Host) (calls : List Pool.Call) :
    Answers lookup ((Watched.ofList hosts).afterAll lookup calls) := by
  have hnew : IsInformed lookup (.ofList hosts) := .unasked (p := .ofList hosts) rfl rfl
  exact (hnew.afterAll calls).answers

/-- A pool that admitted `10.0.0.1` once and has been given other hosts since. -/
def readmitted : Watched :=
  (Watched.ofList [.ipv4 ⟨10, 0, 0, 1⟩]).afterAll .numeric
    [.authorizes ⟨.v4 ⟨10, 0, 0, 1⟩, 4000⟩, .replace [.ipv6 ⟨0xFE80, 0, 0, 0, 0, 0, 0, 7⟩,
      .ipv4 ⟨192, 168, 1, 7⟩], .isStale]

/-- A peer at `192.168.1.7` and one at `::ffff:192.168.1.7` are admitted, and so is one at
`fe80::7`.  The peer that was admitted before is not. -/
theorem answers_afterAll_families :
    Answers .numeric readmitted ∧
    (∀ host ∈ readmitted.installed, host.Resolves .numeric) ∧
    (Ip.v4 ⟨192, 168, 1, 7⟩).HasPlace ⟨0, 0, 0, 0, 0, 0xFFFF, 0xC0A8, 0x0107⟩ ∧
    readmitted.admission .numeric ⟨.v4 ⟨192, 168, 1, 7⟩, 4000⟩ = .ok true ∧
    readmitted.admission .numeric
      ⟨.v6 ⟨0, 0, 0, 0, 0, 0xFFFF, 0xC0A8, 0x0107⟩, 5000⟩ = .ok true ∧
    readmitted.admission .numeric ⟨.v6 ⟨0xFE80, 0, 0, 0, 0, 0, 0, 7⟩, 4000⟩ = .ok true ∧
    readmitted.admission .numeric ⟨.v4 ⟨10, 0, 0, 1⟩, 4000⟩ = .ok false := by
  have hresolves : ∀ host ∈ readmitted.installed, host.Resolves .numeric := by
    have hinstalled : readmitted.installed
        = [.ipv6 ⟨0xFE80, 0, 0, 0, 0, 0, 0, 7⟩, .ipv4 ⟨192, 168, 1, 7⟩] := rfl
    rw [hinstalled]
    exact List.forall_mem_cons.2 ⟨⟨_, rfl⟩, List.forall_mem_singleton.2 ⟨_, rfl⟩⟩
  have hplace : (Ip.v4 ⟨192, 168, 1, 7⟩).HasPlace ⟨0, 0, 0, 0, 0, 0xFFFF, 0xC0A8, 0x0107⟩ :=
    .v4 (by decide) (by decide)
  exact ⟨answers_afterAll .numeric _ _, hresolves, hplace, by decide +kernel, by decide +kernel,
    by decide +kernel, by decide +kernel⟩

/-- A name that nobody knows is looked up once, and what comes after it is not. -/
example :
    let w := (Watched.ofList [.ipv4 ⟨10, 0, 0, 1⟩, .name "nowhere", .ipv4 ⟨10, 0, 0, 2⟩]).afterAll
      .numeric [.resolved, .isStale, .authorizes ⟨.v4 ⟨10, 0, 0, 1⟩, 4000⟩]
    w.lookedUp = [.ipv4 ⟨10, 0, 0, 1⟩, .name "nowhere"] ∧ w.pool.hasFailed = true := by
  decide +kernel

end

end MediaTransport.Address
