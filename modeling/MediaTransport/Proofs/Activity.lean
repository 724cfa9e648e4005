/-!
# Activities

An *activity* changes a state and may fail, and a failure keeps what the activity
has done so far.  A sequence of two activities goes on with the second one only
after the first has succeeded (`run_bind_ok`, `run_bind_error`), so a sequence that
succeeds splits in two (`exists_of_run_bind_ok`), and a handler goes on from what a
failed activity has left (`run_tryCatch_error`).

So an invariant of the states is kept by an activity that is put together from
activities which keep it (`Keeps.bind`, `Keeps.tryCatch`).  In the same way an activity
leads from a state to states that a preorder allows (`Leads.bind`), and two activities from
related states to the same outcome and to related states again (`Agrees.bind`).
-/

namespace MediaTransport

section

variable {ε σ α β : Type} {x : ExceptT ε (StateM σ) α} {s s' : σ}

theorem run_get_bind (f : σ → ExceptT ε (StateM σ) β) (s : σ) :
    ((get : ExceptT ε (StateM σ) σ) >>= f).run.run s = (f s).run.run s :=
  rfl

/-- Behind what succeeds, the rest goes on with its result and from the state that it left. -/
theorem run_bind_ok {a : α} (f : α → ExceptT ε (StateM σ) β) (h : x.run.run s = (.ok a, s')) :
    (x >>= f).run.run s = (f a).run.run s' := by
  rw [ExceptT.run_bind, StateT.run_bind, h]
  rfl

/-- What fails ends a sequence, and the state it leaves is the last one. -/
theorem run_bind_error {e : ε} (f : α → ExceptT ε (StateM σ) β)
    (h : x.run.run s = (.error e, s')) : (x >>= f).run.run s = (.error e, s') := by
  rw [ExceptT.run_bind, StateT.run_bind, h]
  rfl

/-- A sequence that succeeds is two activities that do. -/
theorem exists_of_run_bind_ok {b : β} {f : α → ExceptT ε (StateM σ) β}
    (h : (x >>= f).run.run s = (.ok b, s')) :
    ∃ a s₁, x.run.run s = (.ok a, s₁) ∧ (f a).run.run s₁ = (.ok b, s') := by
  cases hx : x.run.run s with
  | mk outcome s₁ =>
    cases outcome with
    | error e =>
      rw [run_bind_error f hx] at h
      cases h
    | ok a =>
      rw [run_bind_ok f hx] at h
      exact ⟨a, s₁, rfl, h⟩

/-- What has its outcome already leaves the state as it is. -/
theorem run_liftM_bind (outcome : Except ε α) (f : α → ExceptT ε (StateM σ) β) (s : σ) :
    ((liftM outcome : ExceptT ε (StateM σ) α) >>= f).run.run s = match outcome with
      | .ok a => (f a).run.run s
      | .error e => (.error e, s) := by
  cases outcome <;> rfl

theorem run_tryCatch_ok {a : α} (f : ε → ExceptT ε (StateM σ) α)
    (h : x.run.run s = (.ok a, s')) : (tryCatch x f).run.run s = (.ok a, s') := by
  rw [ExceptT.run_tryCatch, StateT.run_bind, h]
  rfl

/-- A handler starts from the state that the failed activity left behind, not from the one before
it. -/
theorem run_tryCatch_error {e : ε} (f : ε → ExceptT ε (StateM σ) α)
    (h : x.run.run s = (.error e, s')) :
    (tryCatch x f).run.run s = (f e).run.run s' := by
  rw [ExceptT.run_tryCatch, StateT.run_bind, h]
  rfl

end

/-! ## Invariants -/

/-- An activity keeps an invariant, whether it succeeds or fails, and its result has a
property. -/
def Keeps {ε σ α : Type} (inv : σ → Prop) (x : ExceptT ε (StateM σ) α) (result : α → Prop) :
    Prop :=
  ∀ s, inv s → inv (x.run.run s).2 ∧ ∀ a, (x.run.run s).1 = .ok a → result a

section

variable {ε σ α β : Type} {inv : σ → Prop} {x : ExceptT ε (StateM σ) α} {result : α → Prop}
  {last : β → Prop}

/-- Invariants compose: what comes second may use what is known of the first result. -/
theorem Keeps.bind {f : α → ExceptT ε (StateM σ) β} (hx : Keeps inv x result)
    (hf : ∀ a, result a → Keeps inv (f a) last) : Keeps inv (x >>= f) last := by
  intro s hs
  obtain ⟨hinv, hresult⟩ := hx s hs
  rcases hrun : x.run.run s with ⟨_ | a, s'⟩
  next e =>
    rw [hrun] at hinv
    rw [run_bind_error f hrun]
    exact ⟨hinv, nofun⟩
  next =>
    rw [hrun] at hinv hresult
    rw [run_bind_ok f hrun]
    exact hf a (hresult a rfl) s' hinv

/-- The invariant holds when a handler starts, since a failure keeps it too. -/
theorem Keeps.tryCatch {handler : ε → ExceptT ε (StateM σ) α} (hx : Keeps inv x result)
    (hhandler : ∀ e, Keeps inv (handler e) result) : Keeps inv (tryCatch x handler) result := by
  intro s hs
  obtain ⟨hinv, hresult⟩ := hx s hs
  rcases hrun : x.run.run s with ⟨_ | a, s'⟩
  next e =>
    rw [hrun] at hinv
    rw [run_tryCatch_error handler hrun]
    exact hhandler e s' hinv
  next =>
    rw [hrun] at hinv hresult
    rw [run_tryCatch_ok handler hrun]
    exact ⟨hinv, hresult⟩

theorem keeps_pure {a : α} (ha : result a) :
    Keeps inv (pure a : ExceptT ε (StateM σ) α) result := by
  intro s hs
  refine ⟨hs, ?_⟩
  rintro _ ⟨⟩
  exact ha

theorem keeps_throw (e : ε) : Keeps inv (throw e : ExceptT ε (StateM σ) α) result :=
  fun _ hs => ⟨hs, nofun⟩

theorem keeps_get : Keeps inv (get : ExceptT ε (StateM σ) σ) inv := by
  intro s hs
  refine ⟨hs, ?_⟩
  rintro _ ⟨⟩
  exact hs

theorem keeps_set {s : σ} (hs : inv s) :
    Keeps inv (set s : ExceptT ε (StateM σ) PUnit) fun _ => True :=
  fun _ _ => ⟨hs, fun _ _ => trivial⟩

theorem keeps_liftM (outcome : Except ε α) :
    Keeps inv (liftM outcome : ExceptT ε (StateM σ) α) (outcome = .ok ·) := by
  intro s hs
  cases outcome with
  | error e => exact ⟨hs, nofun⟩
  | ok a =>
    refine ⟨hs, ?_⟩
    rintro _ ⟨⟩
    rfl

end

/-! ## Preorders -/

/-- An activity leads from a state to one that the relation allows, whether it succeeds or
fails. -/
def Leads {ε σ α : Type} (rel : σ → σ → Prop) (x : ExceptT ε (StateM σ) α) (s : σ) : Prop :=
  rel s (x.run.run s).2

section

variable {ε σ α β : Type} {rel : σ → σ → Prop} {x : ExceptT ε (StateM σ) α} {s : σ}

/-- Along a sequence the relation only has to be transitive, wherever the sequence breaks off. -/
theorem Leads.bind (trans : ∀ {s s' s''}, rel s s' → rel s' s'' → rel s s'')
    {f : α → ExceptT ε (StateM σ) β} (hx : Leads rel x s) (hf : ∀ a s', Leads rel (f a) s') :
    Leads rel (x >>= f) s := by
  unfold Leads at hx ⊢
  rcases hrun : x.run.run s with ⟨_ | a, s'⟩
  next e =>
    rw [hrun] at hx
    rw [run_bind_error f hrun]
    exact hx
  next =>
    rw [hrun] at hx
    rw [run_bind_ok f hrun]
    exact trans hx (hf a s')

theorem Leads.tryCatch (trans : ∀ {s s' s''}, rel s s' → rel s' s'' → rel s s'')
    {handler : ε → ExceptT ε (StateM σ) α} (hx : Leads rel x s)
    (hhandler : ∀ e s', Leads rel (handler e) s') : Leads rel (tryCatch x handler) s := by
  unfold Leads at hx ⊢
  rcases hrun : x.run.run s with ⟨_ | a, s'⟩
  next e =>
    rw [hrun] at hx
    rw [run_tryCatch_error handler hrun]
    exact trans hx (hhandler e s')
  next =>
    rw [hrun] at hx
    rw [run_tryCatch_ok handler hrun]
    exact hx

/-- A look at the state is a look at the one where the activity starts. -/
theorem leads_get_bind {f : σ → ExceptT ε (StateM σ) β} (h : Leads rel (f s) s) :
    Leads rel (get >>= f) s :=
  h

theorem leads_pure (hrefl : rel s s) (a : α) :
    Leads rel (pure a : ExceptT ε (StateM σ) α) s :=
  hrefl

theorem leads_throw (hrefl : rel s s) (e : ε) :
    Leads rel (throw e : ExceptT ε (StateM σ) α) s :=
  hrefl

theorem leads_liftM (hrefl : rel s s) (outcome : Except ε α) :
    Leads rel (liftM outcome : ExceptT ε (StateM σ) α) s := by
  cases outcome <;> exact hrefl

end

/-! ## Two runs -/

/-- Two activities, each started in a state of its own, have the same outcome and leave
related states. -/
def Agrees {ε σ α : Type} (rel : σ → σ → Prop) (x y : ExceptT ε (StateM σ) α) (s t : σ) : Prop :=
  (x.run.run s).1 = (y.run.run t).1 ∧ rel (x.run.run s).2 (y.run.run t).2

section

variable {ε σ α β : Type} {rel : σ → σ → Prop} {x y : ExceptT ε (StateM σ) α} {s t : σ}

/-- Two sequences agree when their first parts do, and their rests do from any related states. -/
theorem Agrees.bind {f g : α → ExceptT ε (StateM σ) β} (hx : Agrees rel x y s t)
    (hf : ∀ a s' t', rel s' t' → Agrees rel (f a) (g a) s' t') :
    Agrees rel (x >>= f) (y >>= g) s t := by
  obtain ⟨houtcome, hrel⟩ := hx
  rcases hrun : x.run.run s with ⟨outcome, s'⟩
  rcases hrun' : y.run.run t with ⟨outcome', t'⟩
  rw [hrun, hrun'] at houtcome hrel
  cases houtcome
  cases outcome with
  | error e =>
    rw [Agrees, run_bind_error f hrun, run_bind_error g hrun']
    exact ⟨rfl, hrel⟩
  | ok a =>
    rw [Agrees, run_bind_ok f hrun, run_bind_ok g hrun']
    exact hf a s' t' hrel

theorem Agrees.tryCatch {handler handler' : ε → ExceptT ε (StateM σ) α} (hx : Agrees rel x y s t)
    (hhandler : ∀ e s' t', rel s' t' → Agrees rel (handler e) (handler' e) s' t') :
    Agrees rel (tryCatch x handler) (tryCatch y handler') s t := by
  obtain ⟨houtcome, hrel⟩ := hx
  rcases hrun : x.run.run s with ⟨outcome, s'⟩
  rcases hrun' : y.run.run t with ⟨outcome', t'⟩
  rw [hrun, hrun'] at houtcome hrel
  cases houtcome
  cases outcome with
  | error e =>
    rw [Agrees, run_tryCatch_error handler hrun, run_tryCatch_error handler' hrun']
    exact hhandler e s' t' hrel
  | ok a =>
    rw [Agrees, run_tryCatch_ok handler hrun, run_tryCatch_ok handler' hrun']
    exact ⟨rfl, hrel⟩

/-- A look at the states is a look at related ones. -/
theorem agrees_get_bind {f g : σ → ExceptT ε (StateM σ) β} (h : Agrees rel (f s) (g t) s t) :
    Agrees rel (get >>= f) (get >>= g) s t :=
  h

theorem agrees_set {s' t' : σ} (hrel : rel s' t') :
    Agrees rel (set s' : ExceptT ε (StateM σ) PUnit) (set t') s t :=
  ⟨rfl, hrel⟩

theorem agrees_pure (hrel : rel s t) (a : α) :
    Agrees rel (pure a : ExceptT ε (StateM σ) α) (pure a) s t :=
  ⟨rfl, hrel⟩

theorem agrees_throw (hrel : rel s t) (e : ε) :
    Agrees rel (throw e : ExceptT ε (StateM σ) α) (throw e) s t :=
  ⟨rfl, hrel⟩

theorem agrees_liftM (hrel : rel s t) (outcome : Except ε α) :
    Agrees rel (liftM outcome : ExceptT ε (StateM σ) α) (liftM outcome) s t := by
  cases outcome <;> exact ⟨rfl, hrel⟩

end

end MediaTransport
