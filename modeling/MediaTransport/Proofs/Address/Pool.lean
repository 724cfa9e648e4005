import MediaTransport.Address.Pool

/-!
# What a pool stands for

At any time a pool *stands for* a resolution of its list, or for the failure to
resolve it: for what it remembers, or, when the list is newer than the memory, for
what the list resolves to now (`Pool.standing`).  A use of the pool returns what it
stands for and settles it (`Pool.resolved_run`).

A settled pool of hosts admits the same addresses as before, whatever the name
service says afterwards (`Pool.admits_settled`).

The first use of a list is the one that counts.  Later uses recall what came of it, whatever
the name service says by then, and report a failure as a remembered one (`Pool.Recalls`).  So
one more use with the same name service makes no other difference (`Pool.remembers_settled`).
-/

namespace MediaTransport.Address

variable {α β : Type}

/-- The resolution that a pool stands for. -/
def Pool.standing (resolve : α → Except Error β) (p : Pool α β) : Except Error (List β) :=
  if p.isStale then p.configured.mapM resolve else p.remembered

/-- The pool after a use. -/
def Pool.settled (resolve : α → Except Error β) (p : Pool α β) : Pool α β :=
  if p.isStale then p.learn (p.configured.mapM resolve) else p

/-- Whether an address is an alternative of a host in the pool.  While the pool
cannot be resolved, none is. -/
def Pool.admits (lookup : Lookup) (p : Pool Host Resolved) (ip : Ip) : Bool :=
  match p.standing (Host.resolve lookup) with
  | .ok hosts => hosts.any (·.contains ip.mapped)
  | .error _ => false

/-- A list is resolved in the same order inside and outside of an activity. -/
theorem mapM_liftM (resolve : α → Except Error β) (entries : List α) :
    (entries.mapM fun a => (liftM (resolve a) : ExceptT Error Id β)).run = entries.mapM resolve := by
  induction entries with
  | nil => rfl
  | cons a rest ih =>
    rw [List.mapM_cons, List.mapM_cons]
    cases resolve a with
    | error e => rfl
    | ok b =>
      change ExceptT.run ((rest.mapM fun a => (liftM (resolve a) : ExceptT Error Id β)) >>=
        fun more => pure (b :: more)) = rest.mapM resolve >>= fun more => pure (b :: more)
      rw [ExceptT.run_bind, ← ih]
      cases (rest.mapM fun a => (liftM (resolve a) : ExceptT Error Id β)).run <;> rfl

/-- A use returns what the pool stands for. -/
theorem Pool.resolved_run (resolve : α → Except Error β) (p : Pool α β) :
    (Pool.resolved resolve).run.run p = (p.standing resolve, p.settled resolve) := by
  change Pool.resolvedBy _ p = _
  unfold Pool.resolvedBy Pool.standing Pool.settled
  rw [mapM_liftM]
  split <;> rfl

/-- Asking about a peer settles the pool, as any question does. -/
theorem Pool.authorizes_run (lookup : Lookup) (ip : Ip) (p : Pool Host Resolved) :
    (Pool.authorizes lookup ip).run.run p
      = ((p.standing (Host.resolve lookup)).map fun hosts => hosts.any (·.contains ip.mapped),
        p.settled (Host.resolve lookup)) := by
  have hrun := Pool.resolved_run (Host.resolve lookup) p
  unfold Pool.authorizes
  rw [ExceptT.run_bind, StateT.run_bind, hrun]
  cases p.standing (Host.resolve lookup) <;> rfl

/-- The list of a settled pool is not looked up again. -/
theorem Pool.admits_settled (lookup later : Lookup) (p : Pool Host Resolved) (ip : Ip) :
    (p.settled (Host.resolve lookup)).admits later ip = p.admits lookup ip := by
  cases hstale : p.isStale with
  | false => simp [Pool.admits, Pool.standing, Pool.settled, hstale]
  | true =>
    cases hlist : p.configured.mapM (Host.resolve lookup) <;>
      simp [Pool.admits, Pool.standing, Pool.settled, Pool.learn, Pool.remembered, hstale, hlist]

/-! ## Memory -/

/-- An outcome as it is remembered. -/
def remembrance (outcome : Except Error (List β)) : Except Error (List β) :=
  outcome.mapError fun e => rememberedFailure e.message

/-- An outcome, or the memory of the same failure. -/
inductive Remembers {γ : Type} : Except Error γ → Except Error γ → Prop where
  | same (outcome : Except Error γ) : Remembers outcome outcome
  | failure (e : Error) : Remembers (.error e) (.error (rememberedFailure e.message))

theorem remembers_remembrance (outcome : Except Error (List β)) :
    Remembers outcome (remembrance outcome) := by
  cases outcome with
  | error e => exact .failure e
  | ok resolution => exact .same (.ok resolution)

/-- What is done with an outcome does not tell a remembered failure from a new one. -/
theorem Remembers.bind {γ δ : Type} {outcome outcome' : Except Error γ}
    (h : Remembers outcome outcome') (f : γ → Except Error δ) :
    Remembers (outcome >>= f) (outcome' >>= f) := by
  cases h with
  | same => exact .same _
  | failure e => exact .failure e

theorem Remembers.exists_error_iff {γ : Type} {outcome outcome' : Except Error γ}
    (h : Remembers outcome outcome') : (∃ e, outcome = .error e) ↔ ∃ e, outcome' = .error e := by
  cases h with
  | same => exact .rfl
  | failure e => exact iff_of_true ⟨_, rfl⟩ ⟨_, rfl⟩

/-- The pool recalls what came of its list at the first use with a name service, or it has not been
used since the list was installed. -/
def Pool.Recalls (resolve : Lookup → α → Except Error β) (p : Pool α β) : Option Lookup → Prop
  | none => p.isStale = true
  | some first => p.isStale = false ∧ p.remembered = remembrance (p.configured.mapM (resolve first))

/-- Two pools that cannot be told apart.  What is left of a list that was used earlier may differ
while the list that was installed last has not been used. -/
structure Pool.Alike (p q : Pool α β) : Prop where
  configured : p.configured = q.configured
  isStale : p.isStale = q.isStale
  remembered : q.isStale = false → p.remembered = q.remembered

section

variable {resolve : α → Except Error β} {p q : Pool α β}

@[simp] theorem Pool.settled_configured : (p.settled resolve).configured = p.configured := by
  unfold Pool.settled
  split
  · cases p.configured.mapM resolve <;> rfl
  · rfl

@[simp] theorem Pool.settled_isStale : (p.settled resolve).isStale = false := by
  cases hstale : p.isStale with
  | false => rw [Pool.settled, hstale, if_neg Bool.false_ne_true, hstale]
  | true =>
    rw [Pool.settled, hstale, if_pos rfl]
    cases p.configured.mapM resolve <;> rfl

/-- A stale pool answers what its list resolves to now. -/
theorem Pool.standing_of_stale (h : p.isStale = true) :
    p.standing resolve = p.configured.mapM resolve :=
  if_pos h

/-- A fresh one answers from memory, whatever the name service would say now. -/
theorem Pool.standing_of_fresh (h : p.isStale = false) : p.standing resolve = p.remembered := by
  rw [Pool.standing, h, if_neg Bool.false_ne_true]

theorem Pool.settled_of_stale (h : p.isStale = true) :
    p.settled resolve = p.learn (p.configured.mapM resolve) :=
  if_pos h

theorem Pool.settled_of_fresh (h : p.isStale = false) : p.settled resolve = p := by
  rw [Pool.settled, h, if_neg Bool.false_ne_true]

theorem Pool.learn_remembered (p : Pool α β) (outcome : Except Error (List β)) :
    (p.learn outcome).remembered = remembrance outcome := by
  cases outcome <;> rfl

/-- The list of a settled pool is not looked up again. -/
theorem Pool.settled_settled (resolve later : α → Except Error β) (p : Pool α β) :
    (p.settled resolve).settled later = p.settled resolve :=
  Pool.settled_of_fresh Pool.settled_isStale

/-- A settled pool returns what the pool stands for, or reports its failure from memory. -/
theorem Pool.remembers_settled (resolve later : α → Except Error β) (p : Pool α β) :
    Remembers (p.standing resolve) ((p.settled resolve).standing later) := by
  rw [Pool.standing_of_fresh Pool.settled_isStale]
  cases hp : p.isStale with
  | true =>
    rw [Pool.standing_of_stale hp, Pool.settled_of_stale hp, Pool.learn_remembered]
    exact remembers_remembrance _
  | false =>
    rw [Pool.standing_of_fresh hp, Pool.settled_of_fresh hp]
    exact .same _

/-! ### Pools that cannot be told apart -/

/-- Pools that are alike give the same answers. -/
theorem Pool.Alike.standing (h : p.Alike q) (resolve : α → Except Error β) :
    p.standing resolve = q.standing resolve := by
  cases hq : q.isStale with
  | true =>
    rw [Pool.standing_of_stale (h.isStale.trans hq), Pool.standing_of_stale hq, h.configured]
  | false =>
    rw [Pool.standing_of_fresh (h.isStale.trans hq), Pool.standing_of_fresh hq, h.remembered hq]

/-- They stay alike when both are asked. -/
theorem Pool.Alike.settled (h : p.Alike q) (resolve : α → Except Error β) :
    (p.settled resolve).Alike (q.settled resolve) where
  configured := by rw [Pool.settled_configured, Pool.settled_configured, h.configured]
  isStale := by rw [Pool.settled_isStale, Pool.settled_isStale]
  remembered _ := by
    cases hq : q.isStale with
    | true =>
      rw [Pool.settled_of_stale (h.isStale.trans hq), Pool.settled_of_stale hq,
        Pool.learn_remembered, Pool.learn_remembered, h.configured]
    | false =>
      rw [Pool.settled_of_fresh (h.isStale.trans hq), Pool.settled_of_fresh hq, h.remembered hq]

/-- After the same replacement any two pools are alike. -/
theorem Pool.alike_replace (p q : Pool α β) (configured : List α) :
    (p.replace configured).Alike (q.replace configured) :=
  ⟨rfl, rfl, nofun⟩

end

/-! ### What a pool recalls -/

section

variable {resolve : Lookup → α → Except Error β} {p : Pool α β} {first : Option Lookup}

/-- A use is the first one, or it leaves the first one as it was. -/
theorem Pool.Recalls.settled (h : p.Recalls resolve first) (lookup : Lookup) :
    (p.settled (resolve lookup)).Recalls resolve (some (first.getD lookup)) := by
  refine ⟨Pool.settled_isStale, ?_⟩
  rw [Pool.settled_configured]
  cases first with
  | none =>
    rw [Pool.settled_of_stale h, Pool.learn_remembered]
    rfl
  | some first =>
    obtain ⟨hfresh, hremembered⟩ := h
    rw [Pool.settled_of_fresh hfresh, hremembered]
    rfl

/-- A use returns what comes of the list at the first use, and reports its failure from memory when
it is a later one. -/
theorem Pool.Recalls.standing_eq (h : p.Recalls resolve first) (lookup : Lookup) :
    p.standing (resolve lookup)
      = if first.isSome then remembrance (p.configured.mapM (resolve (first.getD lookup)))
        else p.configured.mapM (resolve (first.getD lookup)) := by
  cases first with
  | none => exact Pool.standing_of_stale h
  | some first => exact (Pool.standing_of_fresh h.1).trans h.2

/-- The answer is the one of the first lookup, or the remembrance of its failure. -/
theorem Pool.Recalls.standing (h : p.Recalls resolve first) (lookup : Lookup) :
    Remembers (p.configured.mapM (resolve (first.getD lookup))) (p.standing (resolve lookup)) := by
  rw [h.standing_eq lookup]
  split
  next => exact remembers_remembrance _
  next => exact .same _

/-- It makes no difference which of two name services is asked, when both say the same or neither is
asked. -/
theorem Pool.Recalls.agree (h : p.Recalls resolve first) {lookup lookup' : Lookup}
    (hsame : p.configured.mapM (resolve (first.getD lookup))
      = p.configured.mapM (resolve (first.getD lookup'))) :
    p.standing (resolve lookup) = p.standing (resolve lookup') ∧
      p.settled (resolve lookup) = p.settled (resolve lookup') := by
  cases first with
  | none =>
    rw [Pool.standing_of_stale h, Pool.standing_of_stale h, Pool.settled_of_stale h,
      Pool.settled_of_stale h]
    exact ⟨hsame, congrArg p.learn hsame⟩
  | some first =>
    obtain ⟨hfresh, -⟩ := h
    rw [Pool.standing_of_fresh hfresh, Pool.standing_of_fresh hfresh, Pool.settled_of_fresh hfresh,
      Pool.settled_of_fresh hfresh]
    exact ⟨rfl, rfl⟩

end

end MediaTransport.Address
