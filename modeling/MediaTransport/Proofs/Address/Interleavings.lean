import MediaTransport.Address.Endpoint
import MediaTransport.Proofs.Address.Runs

/-!
# Calls whose steps are interleaved

The steps of several calls on one pool may follow each other in any order.  Whatever the order, a
resolution that is returned is that of a list that stood in the pool, or else the empty one of a new
pool: a step finds one or passes one on (`Crowd.has_of_step`).

A call should return one that is *current*: the list had not been replaced by any call that was
completed before this one began (`Sharing.Current`, `Sharing.IsUpToDate`).  This fails when a
caller asks while another one resolves the list, since the mark is gone before the resolution is
there, and the old resolution may even be written last.  It also fails when a list that cannot be
resolved is replaced while a caller asks, since the failure is forgotten before the pool is marked.

It holds in all other runs (`Sharing.Orderly`).  What carries the proof is that a pool that is
neither stale nor being resolved has a current resolution or a failure (`Sharing.IsSettled`), and
that a caller knows that what it is about to write or return is current (`Sharing.Knows`).  Every
step keeps both (`Sharing.Holds.concat`).
-/

namespace MediaTransport.Address

variable {α β : Type}

/-! ## Resolutions that are found -/

/-- The resolution that a caller has found or returned. -/
def Caller.found? : Caller α β → Option (List β)
  | .writeResolution resolution | .answered (.ok resolution) => some resolution
  | _ => none

/-- A resolution is in the pool, or a caller has it. -/
def Crowd.Has (c : Crowd α β) (resolution : List β) : Prop :=
  c.pool.resolution = resolution ∨ ∃ a ∈ c.callers, a.found? = some resolution

section

variable {resolve : α → Except Error β} {a : Caller α β} {resolution : List β}

/-- What a caller has after a step it had before, or it was in the pool or has been found. -/
theorem Caller.found?_step {p : Pool α β} (h : (a.step resolve p).1.found? = some resolution) :
    a.found? = some resolution ∨ p.resolution = resolution ∨
      p.configured.mapM resolve = .ok resolution := by
  cases a with
  | takeMark => cases hstale : p.isStale <;> simp [Caller.step, hstale, Caller.found?] at h
  | readList =>
    cases hlist : p.configured.mapM resolve with
    | error e => simp [Caller.step, hlist, Caller.found?] at h
    | ok found =>
      simp only [Caller.step, hlist, Caller.found?, Option.some_inj] at h
      exact .inr (.inr (h ▸ rfl))
  | readFailure => cases hfailure : p.failure <;> simp [Caller.step, hfailure, Caller.found?] at h
  | readResolution => exact .inr (.inl (Option.some.inj h))
  | answered outcome => exact .inl h
  | _ => cases h

/-- What is in the pool after a step was there before, or the caller had it. -/
theorem Caller.resolution_step {p : Pool α β} (h : (a.step resolve p).2.resolution = resolution) :
    a.found? = some resolution ∨ p.resolution = resolution := by
  cases hresolves : a.resolves with
  | false => exact .inr ((a.step_of_not_resolves hresolves).1 ▸ h)
  | true =>
    cases a with
    | writeResolution found => exact .inl (congrArg some h)
    | readList => cases hlist : p.configured.mapM resolve <;> simp_all [Caller.step]
    | rememberFailure e => exact .inr h
    | _ => cases hresolves

/-- A step finds a resolution of the list, or passes on what is there. -/
theorem Crowd.has_of_step {c : Crowd α β} {i : ℕ} (h : (c.step resolve i).Has resolution) :
    c.Has resolution ∨ c.pool.configured.mapM resolve = .ok resolution := by
  cases ha : c.callers[i]? with
  | none =>
    rw [Crowd.step_of_none ha] at h
    exact .inl h
  | some a =>
    have hmem := List.mem_of_getElem? ha
    obtain hpool | ⟨b, hb, hfound⟩ := h
    · rw [Crowd.pool_step ha] at hpool
      obtain hfound | hpool := a.resolution_step hpool
      · exact .inl (.inr ⟨a, hmem, hfound⟩)
      · exact .inl (.inl hpool)
    · rw [Crowd.step, ha] at hb
      obtain hb | rfl := List.mem_or_eq_of_mem_set hb
      · exact .inl (.inr ⟨b, hb, hfound⟩)
      · obtain hfound | hpool | hlist := Caller.found?_step hfound
        · exact .inl (.inr ⟨a, hmem, hfound⟩)
        · exact .inl (.inl hpool)
        · exact .inr hlist

end

namespace Sharing

variable {s : Sharing α β} {order : List ℕ} {i j : ℕ} {a b : Caller α β} {resolution : List β}

/-- A list that stood in the pool has this resolution. -/
def Found (s : Sharing α β) (order : List ℕ) (resolution : List β) : Prop :=
  ∃ earlier, earlier <+: order ∧ (s.after earlier).pool.configured.mapM s.resolve = .ok resolution

/-- A new pool has an empty resolution, and all others have been found. -/
theorem found_of_has (h : (s.after order).Has resolution) :
    resolution = [] ∨ s.Found order resolution := by
  induction order using List.reverseRecOn with
  | nil =>
    obtain hpool | ⟨a, ha, hfound⟩ := h
    · exact .inl hpool.symm
    · obtain ⟨call, -, rfl⟩ := List.mem_map.1 ha
      cases call <;> cases hfound
  | append_singleton order i ih =>
    rw [after_concat] at h
    obtain h | hlist := Crowd.has_of_step h
    · exact (ih h).imp_right fun ⟨earlier, hearlier, hlist⟩ =>
        ⟨earlier, hearlier.trans (List.prefix_append order [i]), hlist⟩
    · exact .inr ⟨order, List.prefix_append order [i], hlist⟩

/-! ## Current resolutions -/

/-- A call has replaced the list. -/
def Replaced (s : Sharing α β) (order : List ℕ) (i : ℕ) : Prop :=
  (s.after order).callers[i]? = some .replaced

/-- A list that stood in the pool has this resolution, and every call that had replaced the list
after the steps `begun` had written its own list by then. -/
def Current (s : Sharing α β) (order begun : List ℕ) (resolution : List β) : Prop :=
  ∃ earlier, earlier <+: order ∧
    (s.after earlier).pool.configured.mapM s.resolve = .ok resolution ∧
    ∀ i, s.Replaced begun i → i ∈ earlier

/-- Every call that returns a resolution returns one that was current when the call began. -/
def IsUpToDate (s : Sharing α β) (order : List ℕ) : Prop :=
  ∀ i resolution, (s.after order).callers[i]? = some (.answered (.ok resolution)) →
    s.Current order (before i order) resolution

/-- A resolution stays current as the run goes on, and for a call that began earlier. -/
theorem Current.mono {order' begun begun' : List ℕ} (h : s.Current order begun resolution)
    (horder : order <+: order') (hbegun : ∀ i, s.Replaced begun' i → s.Replaced begun i) :
    s.Current order' begun' resolution := by
  obtain ⟨earlier, hearlier, hresolution, hmem⟩ := h
  exact ⟨earlier, hearlier.trans horder, hresolution, fun i hi => hmem i (hbegun i hi)⟩

theorem Current.concat {begun : List ℕ} (h : s.Current order begun resolution) (i : ℕ) :
    s.Current (order ++ [i]) begun resolution :=
  h.mono (List.prefix_append order [i]) fun _ => id

/-- A list is replaced by the step that marks the pool only. -/
theorem Replaced.of_concat (ha : (s.after order).callers[i]? = some a) (hmark : a ≠ .markStale)
    (h : s.Replaced (order ++ [i]) j) : s.Replaced order j := by
  unfold Replaced at h ⊢
  rw [after_concat] at h
  by_cases hne : j = i
  · subst hne
    rw [Crowd.callers_step_self ha, Option.some_inj] at h
    rw [ha, a.replaced_of_step hmark h]
  · rwa [Crowd.callers_step_of_ne hne] at h

theorem Replaced.mem (h : s.Replaced order i) : i ∈ order :=
  mem_of_callers h rfl

/-- The pool is marked, or else a resolution is current as of now. -/
def CurrentIfUnmarked (s : Sharing α β) (order : List ℕ) (resolution : List β) : Prop :=
  (s.after order).pool.isStale = true ∨ s.Current order order resolution

/-- Only a caller that takes the mark can spoil that: while it is there the list may be replaced. -/
theorem CurrentIfUnmarked.concat (h : s.CurrentIfUnmarked order resolution)
    (ha : (s.after order).callers[i]? = some a) (htake : a ≠ .takeMark) :
    s.CurrentIfUnmarked (order ++ [i]) resolution := by
  unfold CurrentIfUnmarked
  rw [after_concat, Crowd.pool_step ha]
  by_cases hmark : a = .markStale
  · subst hmark
    exact .inl rfl
  · obtain hstale | hcurrent := h
    · exact .inl (a.isStale_step htake hstale)
    · exact .inr ((hcurrent.concat i).mono (List.prefix_refl _)
        fun _ => Replaced.of_concat ha hmark)

/-! ## Callers that are not in each other's way -/

/-- Callers that are not in each other's way. -/
structure Orderly (s : Sharing α β) (order : List ℕ) : Prop where
  /-- No two callers ask at a time. -/
  asking : ∀ earlier, earlier <+: order →
    (s.after earlier).callers.Pairwise fun a b => ¬(a.asks ∧ b.asks)
  /-- If some list cannot be resolved, none is replaced while a caller asks. -/
  replacing : s.Resolves ∨ ∀ earlier, earlier <+: order →
    ∀ a ∈ (s.after earlier).callers, ∀ b ∈ (s.after earlier).callers, ¬(a.asks ∧ b.replaces)

/-! ## What a run preserves -/

/-- What a caller knows of what it is about to write or return. -/
def Knows (s : Sharing α β) (order begun : List ℕ) : Caller α β → Prop
  | .writeResolution resolution =>
    s.Current order begun resolution ∧ s.CurrentIfUnmarked order resolution
  | .forgetFailure =>
    s.Current order begun (s.after order).pool.resolution ∧
      s.CurrentIfUnmarked order (s.after order).pool.resolution
  | .readFailure =>
    (s.after order).pool.failure = none → s.Current order begun (s.after order).pool.resolution
  | .readResolution => s.Current order begun (s.after order).pool.resolution
  | .answered (.ok resolution) => s.Current order begun resolution
  | _ => True

/-- Why a caller that finds no mark may return the resolution, or does not. -/
inductive IsSettled (s : Sharing α β) (order : List ℕ) : Prop where
  /-- It is current. -/
  | current (h : s.CurrentIfUnmarked order (s.after order).pool.resolution)
  /-- Another caller still asks. -/
  | resolving (h : ∃ a ∈ (s.after order).callers, a.resolves)
  /-- A failure is remembered, or another caller is about to mark the pool. -/
  | failed (hfails : ¬s.Resolves)
      (h : (s.after order).pool.failure ≠ none ∨ .markStale ∈ (s.after order).callers)

/-- What holds after each step. -/
structure Holds (s : Sharing α β) (order : List ℕ) : Prop where
  callers : ∀ i a, (s.after order).callers[i]? = some a → s.Knows order (before i order) a
  pool : s.IsSettled order

namespace Orderly

theorem of_concat (h : s.Orderly (order ++ [i])) : s.Orderly order where
  asking earlier hearlier := h.asking earlier (hearlier.trans (List.prefix_append order [i]))
  replacing := h.replacing.imp_right fun hreplacing earlier hearlier =>
    hreplacing earlier (hearlier.trans (List.prefix_append order [i]))

/-- Two callers that ask are the same. -/
theorem eq_of_asks (h : s.Orderly order) (ha : (s.after order).callers[i]? = some a)
    (hb : (s.after order).callers[j]? = some b) (hasks : a.asks) (hasks' : b.asks) : i = j := by
  have hpairwise := List.pairwise_iff_getElem.1 (h.asking order (List.prefix_refl order))
  obtain ⟨hi, rfl⟩ := List.getElem?_eq_some_iff.1 ha
  obtain ⟨hj, rfl⟩ := List.getElem?_eq_some_iff.1 hb
  by_contra hne
  obtain hlt | hlt := Nat.lt_or_gt_of_ne hne
  · exact hpairwise i j hi hj hlt ⟨hasks, hasks'⟩
  · exact hpairwise j i hj hi hlt ⟨hasks', hasks⟩

/-- A caller that takes the mark begins to ask. -/
theorem eq_of_takeMark (h : s.Orderly (order ++ [i]))
    (ha : (s.after order).callers[i]? = some .takeMark)
    (hb : (s.after order).callers[j]? = some b) (hasks : b.asks) : j = i := by
  by_contra hne
  have hb' := (callers_concat_of_ne hne).trans hb
  exact hne (h.eq_of_asks hb' (callers_concat_self ha) hasks (Caller.asks_step_takeMark _))

/-- While a caller asks, a step of another one is not part of a question, and forgets a failure only
where there is none. -/
theorem aside (h : s.Orderly (order ++ [i])) (ha : (s.after order).callers[i]? = some a)
    (hb : (s.after order).callers[j]? = some b) (hne : j ≠ i) (hasks : b.asks) :
    a.asks = false ∧ a ≠ .takeMark ∧ (s.Resolves ∨ a ≠ .forgetOld) := by
  refine ⟨?_, ?_, h.replacing.imp_right fun hreplacing => ?_⟩
  · rw [Bool.eq_false_iff]
    exact fun hasks' => hne (h.of_concat.eq_of_asks hb ha hasks hasks')
  · rintro rfl
    exact hne (h.eq_of_takeMark ha hb hasks)
  · rintro rfl
    exact hreplacing order (List.prefix_append order [i]) b (List.mem_of_getElem? hb) .forgetOld
      (List.mem_of_getElem? ha) ⟨hasks, rfl⟩

/-- Where a list cannot be resolved, nobody begins to ask while the pool is about to be marked. -/
theorem not_markStale (h : s.Orderly (order ++ [i])) (hfails : ¬s.Resolves)
    (ha : (s.after order).callers[i]? = some .takeMark) :
    .markStale ∉ (s.after order).callers := by
  intro hmark
  obtain ⟨j, hj⟩ := List.getElem?_of_mem hmark
  have hne : j ≠ i := by
    rintro rfl
    cases ha.symm.trans hj
  have hj' := (callers_concat_of_ne hne).trans hj
  refine h.replacing.resolve_left hfails (order ++ [i]) (List.prefix_refl _) _
    (List.mem_of_getElem? (callers_concat_self ha)) .markStale (List.mem_of_getElem? hj') ⟨?_, rfl⟩
  exact Caller.asks_step_takeMark _

end Orderly

/-- A caller that has not begun knows nothing. -/
theorem knows_of_notMem {order' begun : List ℕ} (h : i ∉ order)
    (ha : (s.after order).callers[i]? = some a) : s.Knows order' begun a := by
  obtain ⟨call, -, rfl⟩ := Option.map_eq_some_iff.1 ((callers_of_notMem h).symm.trans ha)
  cases call <;> trivial

/-- A step leaves a caller what it knows, if it leaves the pool so while the caller asks. -/
theorem Knows.concat {begun : List ℕ} (h : s.Knows order begun a)
    (hpool : a.asks → (s.after (order ++ [i])).pool.resolution = (s.after order).pool.resolution ∧
      ((s.after (order ++ [i])).pool.failure = none → (s.after order).pool.failure = none) ∧
      ∀ r, s.CurrentIfUnmarked order r → s.CurrentIfUnmarked (order ++ [i]) r) :
    s.Knows (order ++ [i]) begun a := by
  cases a with
  | writeResolution resolution =>
    obtain ⟨-, -, hcurrent⟩ := hpool rfl
    exact ⟨h.1.concat i, hcurrent _ h.2⟩
  | forgetFailure =>
    obtain ⟨hresolution, -, hcurrent⟩ := hpool rfl
    unfold Knows
    rw [hresolution]
    exact ⟨h.1.concat i, hcurrent _ h.2⟩
  | readFailure =>
    obtain ⟨hresolution, hfailure, -⟩ := hpool rfl
    unfold Knows
    rw [hresolution]
    exact fun hnone => (h (hfailure hnone)).concat i
  | readResolution =>
    obtain ⟨hresolution, -, -⟩ := hpool rfl
    unfold Knows
    rw [hresolution]
    exact Current.concat h i
  | answered outcome =>
    cases outcome with
    | error e => trivial
    | ok resolution => exact Current.concat h i
  | _ => trivial

/-- What a caller knows is not touched by a step of another one. -/
theorem Holds.others (h : s.Holds order) (horderly : s.Orderly (order ++ [i]))
    (ha : (s.after order).callers[i]? = some a) (hne : j ≠ i)
    (hb : (s.after order).callers[j]? = some b) :
    s.Knows (order ++ [i]) (before j (order ++ [i])) b := by
  by_cases hj : j ∈ order
  · rw [before_concat_of_mem hj]
    refine (h.callers j b hb).concat fun hasks' => ?_
    obtain ⟨hasks, htake, hforget⟩ := horderly.aside ha hb hne hasks'
    have hresolves : a.resolves = false :=
      Bool.eq_false_iff.2 fun hresolves => by simp [Caller.asks_of_resolves hresolves] at hasks
    have hfound : a ≠ .forgetFailure := by
      rintro rfl
      cases hasks
    obtain ⟨hresolution, hfailure⟩ := a.step_of_not_resolves hresolves
    rw [pool_concat ha]
    refine ⟨hresolution, fun hnone => ?_, fun r hr => hr.concat ha htake⟩
    obtain hresolves | hforget := hforget
    · exact (hresolves.unfailing order).failure
    · rwa [hfailure hforget hfound] at hnone
  · exact knows_of_notMem hj hb

/-- A caller that finds neither a mark nor a failure finds a current resolution. -/
theorem Holds.current_of_unmarked (h : s.Holds order) (horderly : s.Orderly (order ++ [i]))
    (ha : (s.after order).callers[i]? = some .takeMark)
    (hstale : (s.after order).pool.isStale = false)
    (hfailure : (s.after order).pool.failure = none) :
    s.Current order order (s.after order).pool.resolution := by
  obtain hcurrent | ⟨b, hb, hresolves⟩ | ⟨hfails, hremembered⟩ := h.pool
  · exact hcurrent.resolve_left (by simp [hstale])
  · obtain ⟨j, hj⟩ := List.getElem?_of_mem hb
    obtain rfl := horderly.eq_of_takeMark ha hj (Caller.asks_of_resolves hresolves)
    cases ha.symm.trans hj
    cases hresolves
  · have hmark := hremembered.resolve_left (not_not.2 hfailure)
    exact absurd hmark (horderly.not_markStale hfails ha)

/-- A caller learns what it has to know for its next step. -/
theorem Holds.own (h : s.Holds order) (horderly : s.Orderly (order ++ [i]))
    (ha : (s.after order).callers[i]? = some a) :
    s.Knows (order ++ [i]) (before i (order ++ [i]))
      (a.step s.resolve (s.after order).pool).1 := by
  have hknows := h.callers i a ha
  have hpool := pool_concat ha
  cases a with
  | takeMark =>
    rw [before_concat_self (notMem_of_takeMark ha)]
    cases hstale : (s.after order).pool.isStale with
    | true =>
      simp only [Caller.step, hstale]
      trivial
    | false =>
      simp only [Caller.step, hstale, Knows]
      rw [hpool]
      exact fun hfailure => (h.current_of_unmarked horderly ha hstale hfailure).concat i
  | readList =>
    rw [before_concat_of_mem (mem_of_callers ha rfl)]
    simp only [Caller.step]
    split
    next resolution hlist =>
      refine ⟨⟨order, List.prefix_append order [i], hlist, fun k hk => ?_⟩,
        .inr ⟨order, List.prefix_append order [i], hlist, fun k hk => ?_⟩⟩
      · exact (List.takeWhile_prefix _).subset hk.mem
      · exact (hk.of_concat ha (by simp)).mem
    next e => trivial
  | writeResolution resolution =>
    rw [before_concat_of_mem (mem_of_callers ha rfl)]
    simp only [Caller.step, Knows]
    rw [hpool]
    exact ⟨hknows.1.concat i, hknows.2.concat ha (by simp)⟩
  | forgetFailure =>
    rw [before_concat_of_mem (mem_of_callers ha rfl)]
    simp only [Caller.step, Knows]
    rw [hpool]
    exact fun _ => hknows.1.concat i
  | readFailure =>
    rw [before_concat_of_mem (mem_of_callers ha rfl)]
    cases hfailure : (s.after order).pool.failure with
    | some reason =>
      simp only [Caller.step, hfailure]
      trivial
    | none =>
      simp only [Caller.step, hfailure, Knows] at hpool ⊢
      rw [hpool]
      exact (hknows hfailure).concat i
  | readResolution =>
    rw [before_concat_of_mem (mem_of_callers ha rfl)]
    exact Current.concat hknows i
  | answered outcome =>
    rw [before_concat_of_mem (mem_of_callers ha rfl)]
    cases outcome with
    | error e => trivial
    | ok resolution => exact Current.concat hknows i
  | _ => trivial

/-- A step that is not part of a resolution leaves the pool settled. -/
theorem IsSettled.concat (h : s.IsSettled order) (ha : (s.after order).callers[i]? = some a)
    (hresolves : a.resolves = false) (hforget : a ≠ .forgetFailure)
    (hcurrent : ∀ r, s.CurrentIfUnmarked order r → s.CurrentIfUnmarked (order ++ [i]) r) :
    s.IsSettled (order ++ [i]) := by
  have hpool := pool_concat ha
  have hown := List.mem_of_getElem? (callers_concat_self ha)
  have hothers : ∀ b ∈ (s.after order).callers, b ≠ a → b ∈ (s.after (order ++ [i])).callers := by
    intro b hb hne
    obtain ⟨j, hj⟩ := List.getElem?_of_mem hb
    have hji : j ≠ i := by
      rintro rfl
      exact hne (Option.some.inj (hj.symm.trans ha))
    exact List.mem_of_getElem? ((callers_concat_of_ne hji).trans hj)
  obtain ⟨hresolution, hfailure⟩ := a.step_of_not_resolves hresolves
  rw [← hpool] at hresolution hfailure
  obtain hsettled | ⟨b, hb, hb'⟩ | ⟨hfails, hremembered | hmark⟩ := h
  · exact .current (hresolution ▸ hcurrent _ hsettled)
  · refine .resolving ⟨b, hothers b hb ?_, hb'⟩
    rintro rfl
    rw [hresolves] at hb'
    cases hb'
  · by_cases hold : a = .forgetOld
    · subst hold
      exact .failed hfails (.inr hown)
    · exact .failed hfails (.inl (hfailure hold hforget ▸ hremembered))
  · by_cases hmarks : a = .markStale
    · subst hmarks
      exact .current (.inl (by rw [hpool]; rfl))
    · exact .failed hfails (.inr (hothers _ hmark (Ne.symm hmarks)))

theorem Holds.settled (h : s.Holds order) (ha : (s.after order).callers[i]? = some a) :
    s.IsSettled (order ++ [i]) := by
  have hknows := h.callers i a ha
  have hpool := pool_concat ha
  have hown := List.mem_of_getElem? (callers_concat_self ha)
  cases a with
  | takeMark =>
    cases hstale : (s.after order).pool.isStale with
    | true => exact .resolving ⟨_, hown, by simp only [Caller.step, hstale]; rfl⟩
    | false =>
      refine h.pool.concat ha rfl (by simp) fun r hr => .inr ?_
      exact ((hr.resolve_left (by simp [hstale])).concat i).mono (List.prefix_refl _)
        fun _ => Replaced.of_concat ha (by simp)
  | readList =>
    refine .resolving ⟨_, hown, ?_⟩
    simp only [Caller.step]
    split <;> rfl
  | rememberFailure e =>
    refine .failed (fun hresolves => ?_) (.inl ?_)
    · exact (hresolves.unfailing order).callers _ (List.mem_of_getElem? ha)
    · rw [hpool]
      exact Option.some_ne_none _
  | writeResolution resolution =>
    have hcurrent := hknows.2.concat ha (by simp)
    refine .current ?_
    rw [hpool]
    exact hcurrent
  | forgetFailure =>
    have hcurrent := hknows.2.concat ha (by simp)
    refine .current ?_
    rw [hpool]
    exact hcurrent
  | _ => exact h.pool.concat ha rfl (by simp) fun r hr => hr.concat ha (by simp)

/-- A step of nobody changes nothing. -/
theorem Holds.concat_of_none (h : s.Holds order) (ha : (s.after order).callers[i]? = none) :
    s.Holds (order ++ [i]) := by
  have hsame : s.after (order ++ [i]) = s.after order := by
    rw [after_concat, Crowd.step_of_none ha]
  have hcurrent : ∀ r, s.CurrentIfUnmarked order r → s.CurrentIfUnmarked (order ++ [i]) r := by
    intro r hr
    unfold CurrentIfUnmarked
    rw [hsame]
    refine hr.imp_right fun hr => (hr.concat i).mono (List.prefix_refl _) fun j hj => ?_
    rwa [Replaced, hsame] at hj
  refine ⟨fun j b hb => ?_, ?_⟩
  · rw [hsame] at hb
    by_cases hj : j ∈ order
    · rw [before_concat_of_mem hj]
      exact (h.callers j b hb).concat fun _ => ⟨by rw [hsame], by rw [hsame]; exact id, hcurrent⟩
    · exact knows_of_notMem hj hb
  · obtain hsettled | hresolving | ⟨hfails, hfailed⟩ := h.pool
    · exact .current (hsame ▸ hcurrent _ hsettled)
    · exact .resolving (hsame ▸ hresolving)
    · exact .failed hfails (hsame ▸ hfailed)

/-- One more step, by whichever caller, keeps the invariant. -/
theorem Holds.concat (h : s.Holds order) (horderly : s.Orderly (order ++ [i])) :
    s.Holds (order ++ [i]) := by
  cases ha : (s.after order).callers[i]? with
  | none => exact h.concat_of_none ha
  | some a =>
    refine ⟨fun j b hb => ?_, h.settled ha⟩
    by_cases hne : j = i
    · subst hne
      cases (callers_concat_self ha).symm.trans hb
      exact h.own horderly ha
    · exact h.others horderly ha hne ((callers_concat_of_ne hne).symm.trans hb)

theorem Orderly.holds (h : s.Orderly order) : s.Holds order := by
  induction order using List.reverseRecOn with
  | nil =>
    refine ⟨fun i a ha => ?_, .current (.inl rfl)⟩
    exact knows_of_notMem List.not_mem_nil ha
  | append_singleton order i ih => exact (ih h.of_concat).concat h

/-- Whatever is returned has been found for some list, or is the empty resolution of a new pool.
Callers that are not in each other's way get what is up to date. -/
theorem isUpToDate (s : Sharing α β) (order : List ℕ) :
    (∀ (i : ℕ) resolution, (s.after order).callers[i]? = some (.answered (.ok resolution)) →
      resolution = [] ∨ s.Found order resolution) ∧
    (s.Orderly order → s.IsUpToDate order) := by
  refine ⟨fun i resolution ha => ?_, fun horderly i _ ha => horderly.holds.callers i _ ha⟩
  exact found_of_has (.inr ⟨_, List.mem_of_getElem? ha, rfl⟩)

/-! ## Hosts that are replaced -/

/-- A resolution that no list has had since one of the completed calls wrote its own is not up to
date. -/
theorem not_isUpToDate (i j : ℕ)
    (ha : (s.after order).callers[i]? = some (.answered (.ok resolution)))
    (hreplaced : s.Replaced (before i order) j)
    (hnone : ∀ earlier ∈ order.inits, j ∈ earlier →
      (s.after earlier).pool.configured.mapM s.resolve ≠ .ok resolution) :
    ¬s.IsUpToDate order := by
  intro h
  obtain ⟨earlier, hearlier, hresolution, hmem⟩ := h i resolution ha
  exact hnone earlier ((List.mem_inits _ _).2 hearlier) (hmem j hreplaced) hresolution

/-- Calls on a pool whose first list is one host. -/
def ofHost (calls : List (SharedCall Host)) : Sharing Host Resolved where
  resolve := Host.resolve .numeric
  initial := [.ipv4 ⟨10, 0, 0, 1⟩]
  calls

/-- A list is replaced step by step while a caller asks, and a second caller asks when the first
one has its answer. -/
theorem isUpToDate_whileAsking :
    let s := ofHost [.ask, .replace [.ipv4 ⟨10, 0, 0, 2⟩], .ask]
    let order := [0, 1, 0, 1, 0, 0, 1, 0, 0, 2, 2, 2, 2, 2, 2]
    s.Orderly order ∧ s.IsUpToDate order := by
  intro s order
  have hresolves : s.Resolves := by
    intro entries hentries
    have hone : entries = [.ipv4 ⟨10, 0, 0, 1⟩] ∨ entries = [.ipv4 ⟨10, 0, 0, 2⟩] := by
      simpa [s, ofHost] using hentries
    obtain rfl | rfl := hone <;> exact ⟨_, rfl⟩
  have horderly : s.Orderly order := by
    refine ⟨fun earlier hearlier => ?_, .inl hresolves⟩
    rw [← List.mem_inits] at hearlier
    revert earlier
    decide +kernel
  exact ⟨horderly, (isUpToDate s order).2 horderly⟩

/-- A caller has read the old list and then waits.  The list is replaced, and another caller
resolves the new one.  Then the first one goes on and writes what it found, so whoever asks later is
given the old resolution. -/
theorem not_isUpToDate_overtaken :
    ¬(ofHost [.ask, .replace [.ipv4 ⟨10, 0, 0, 2⟩], .ask, .ask]).IsUpToDate
      [0, 0, 1, 1, 1, 2, 2, 2, 2, 2, 2, 0, 0, 0, 0, 3, 3, 3] :=
  not_isUpToDate 3 1 rfl rfl (by decide +kernel)

/-- A caller asks while a list that could not be resolved is replaced.  The failure is forgotten and
the mark is not there yet, and so it is given what was found for the list before. -/
theorem not_isUpToDate_relapsed :
    ¬(ofHost [.ask, .replace [.name "nowhere"], .ask, .replace [.ipv4 ⟨10, 0, 0, 2⟩],
        .ask]).IsUpToDate [0, 0, 0, 0, 0, 0, 1, 1, 1, 2, 2, 2, 3, 3, 4, 4, 4] :=
  not_isUpToDate 4 1 rfl rfl (by decide +kernel)

end Sharing

end MediaTransport.Address
