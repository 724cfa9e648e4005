import Mathlib.Data.List.Infix
import MediaTransport.Address.SharedPool

/-!
# Runs of callers

Several calls are made on a new pool, and their steps follow each other in some order
(`Sharing.after`).  A caller that is not in the order stays where it begins, and one that is has
left its first step for good (`Sharing.callers_of_notMem`, `Sharing.ne_takeMark_of_mem`).

Only some steps touch each field of the pool, and each of these facts is stated once, for all
steps.  Where every list can be resolved no failure is ever remembered
(`Sharing.Resolves.unfailing`).
-/

namespace MediaTransport.Address

variable {α β : Type}

/-! ## Runs -/

/-- A call on a shared pool. -/
inductive SharedCall (α : Type) where
  /-- Replace the list. -/
  | replace (entries : List α)
  /-- Ask for the resolution. -/
  | ask

/-- The caller that is about to make a call. -/
def SharedCall.caller : SharedCall α → Caller α β
  | .replace entries => .replacing entries
  | .ask => .asking

/-- Calls on a new pool. -/
structure Sharing (α β : Type) where
  /-- The resolution of an entry. -/
  resolve : α → Except Error β
  /-- The list with which the pool is made. -/
  initial : List α
  /-- The calls. -/
  calls : List (SharedCall α)

/-- Whether a caller has taken its first step. -/
def Caller.hasBegun : Caller α β → Bool
  | .writeList _ | .takeMark => false
  | _ => true

/-- Whether a caller has begun to ask and has no answer yet. -/
def Caller.asks : Caller α β → Bool
  | .readList | .rememberFailure _ | .writeResolution _ | .forgetFailure | .readFailure
  | .readResolution => true
  | _ => false

/-- Whether a caller has written a list that it has not marked yet. -/
def Caller.replaces : Caller α β → Bool
  | .forgetOld | .markStale => true
  | _ => false

/-- Whether a caller has taken the mark and has not written what it found yet. -/
def Caller.resolves : Caller α β → Bool
  | .readList | .rememberFailure _ | .writeResolution _ => true
  | _ => false

namespace Sharing

/-- The crowd after steps in an order. -/
def after (s : Sharing α β) (order : List ℕ) : Crowd α β :=
  Crowd.run s.resolve ⟨.ofList s.initial, s.calls.map SharedCall.caller⟩ order

/-- The steps before the first one of a caller. -/
def before (i : ℕ) (order : List ℕ) : List ℕ :=
  order.takeWhile (· ≠ i)

/-- Every list can be resolved. -/
def Resolves (s : Sharing α β) : Prop :=
  ∀ entries, entries = s.initial ∨ .replace entries ∈ s.calls →
    ∃ resolution, entries.mapM s.resolve = .ok resolution

end Sharing

/-! ## Single steps -/

section

variable {resolve : α → Except Error β} {c : Crowd α β} {a : Caller α β} {i j : ℕ}

/-- Where no caller stands, nothing happens. -/
theorem Crowd.step_of_none (h : c.callers[i]? = none) : c.step resolve i = c := by
  rw [Crowd.step, h]

theorem Crowd.pool_step (h : c.callers[i]? = some a) :
    (c.step resolve i).pool = (a.step resolve c.pool).2 := by
  rw [Crowd.step, h]

theorem Crowd.callers_step_self (h : c.callers[i]? = some a) :
    (c.step resolve i).callers[i]? = some (a.step resolve c.pool).1 := by
  have hi : i < c.callers.length := (List.getElem?_eq_some_iff.1 h).1
  rw [Crowd.step, h]
  exact List.getElem?_set_self hi

/-- A step moves one caller only. -/
theorem Crowd.callers_step_of_ne (hne : j ≠ i) :
    (c.step resolve i).callers[j]? = c.callers[j]? := by
  cases h : c.callers[i]? with
  | none => rw [Crowd.step_of_none h]
  | some a =>
    rw [Crowd.step, h]
    exact List.getElem?_set_ne hne.symm

/-- A list has been replaced when it is marked, and not by any other step. -/
theorem Caller.replaced_of_step {p : Pool α β} (a : Caller α β) (hmark : a ≠ .markStale)
    (h : (a.step resolve p).1 = .replaced) : a = .replaced := by
  cases a with
  | markStale => exact absurd rfl hmark
  | replaced => rfl
  | takeMark => cases hstale : p.isStale <;> simp [Caller.step, hstale] at h
  | readList => cases hlist : p.configured.mapM resolve <;> simp [Caller.step, hlist] at h
  | readFailure => cases hfailure : p.failure <;> simp [Caller.step, hfailure] at h
  | _ => simp [Caller.step] at h

/-- Only asking takes the mark away. -/
theorem Caller.isStale_step {p : Pool α β} (a : Caller α β) (htake : a ≠ .takeMark)
    (h : p.isStale = true) : (a.step resolve p).2.isStale = true := by
  cases a with
  | takeMark => exact absurd rfl htake
  | markStale => rfl
  | readList => cases hlist : p.configured.mapM resolve <;> simpa [Caller.step, hlist] using h
  | readFailure => cases hfailure : p.failure <;> simpa [Caller.step, hfailure] using h
  | _ => exact h

/-- A caller that does not resolve the list leaves the resolution, and forgets a failure at most. -/
theorem Caller.step_of_not_resolves {p : Pool α β} {a : Caller α β} (h : a.resolves = false) :
    (a.step resolve p).2.resolution = p.resolution ∧
      (a ≠ .forgetOld → a ≠ .forgetFailure → (a.step resolve p).2.failure = p.failure) := by
  cases a with
  | forgetOld => exact ⟨rfl, fun hforget => absurd rfl hforget⟩
  | forgetFailure => exact ⟨rfl, fun _ hforget => absurd rfl hforget⟩
  | readFailure => cases hfailure : p.failure <;> simp [Caller.step, hfailure]
  | readList | rememberFailure _ | writeResolution _ => cases h
  | _ => exact ⟨rfl, fun _ _ => rfl⟩

theorem Caller.asks_step_takeMark (p : Pool α β) :
    ((Caller.takeMark : Caller α β).step resolve p).1.asks = true := by
  cases hstale : p.isStale <;> simp [Caller.step, hstale, Caller.asks]

/-- Who is resolving has asked. -/
theorem Caller.asks_of_resolves {a : Caller α β} (h : a.resolves) : a.asks := by
  cases a with
  | readList | rememberFailure _ | writeResolution _ => rfl
  | _ => cases h

/-- No step leads back to the start of a question. -/
theorem Caller.step_ne_takeMark {p : Pool α β} (a : Caller α β) :
    (a.step resolve p).1 ≠ .takeMark := by
  cases a with
  | takeMark => cases h : p.isStale <;> simp [Caller.step, h]
  | readList => cases h : p.configured.mapM resolve <;> simp [Caller.step, h]
  | readFailure => cases h : p.failure <;> simp [Caller.step, h]
  | _ => simp [Caller.step]

end

/-! ## Steps in an order -/

namespace Sharing

variable {s : Sharing α β} {order : List ℕ} {i j : ℕ} {a b : Caller α β} {resolution : List β}

theorem after_concat (s : Sharing α β) (order : List ℕ) (i : ℕ) :
    s.after (order ++ [i]) = (s.after order).step s.resolve i :=
  List.foldl_concat ..

theorem pool_concat (ha : (s.after order).callers[i]? = some a) :
    (s.after (order ++ [i])).pool = (a.step s.resolve (s.after order).pool).2 := by
  rw [after_concat, Crowd.pool_step ha]

theorem callers_concat_self (ha : (s.after order).callers[i]? = some a) :
    (s.after (order ++ [i])).callers[i]? = some (a.step s.resolve (s.after order).pool).1 := by
  rw [after_concat, Crowd.callers_step_self ha]

theorem callers_concat_of_ne (hne : j ≠ i) :
    (s.after (order ++ [i])).callers[j]? = (s.after order).callers[j]? := by
  rw [after_concat, Crowd.callers_step_of_ne hne]

/-- A caller that takes no step stays as it is. -/
theorem callers_of_notMem (h : i ∉ order) :
    (s.after order).callers[i]? = s.calls[i]?.map SharedCall.caller := by
  induction order using List.reverseRecOn with
  | nil => exact List.getElem?_map ..
  | append_singleton order k ih =>
    rw [List.mem_append, List.mem_singleton, not_or] at h
    rw [after_concat, Crowd.callers_step_of_ne h.2, ih h.1]

/-- A caller that has taken a step is past its first one. -/
theorem ne_takeMark_of_mem (h : i ∈ order) : (s.after order).callers[i]? ≠ some .takeMark := by
  induction order using List.reverseRecOn with
  | nil => cases h
  | append_singleton order k ih =>
    rw [after_concat]
    by_cases hne : i = k
    · subst hne
      cases ha : (s.after order).callers[i]? with
      | none => simp [Crowd.step_of_none ha, ha]
      | some a =>
        rw [Crowd.callers_step_self ha, Ne, Option.some_inj]
        exact a.step_ne_takeMark
    · rw [Crowd.callers_step_of_ne hne]
      exact ih ((List.mem_append.1 h).resolve_right fun hk => hne (List.mem_singleton.1 hk))

/-- A caller has taken no step as long as it stands at its first one. -/
theorem notMem_of_takeMark (h : (s.after order).callers[i]? = some .takeMark) : i ∉ order :=
  fun hi => ne_takeMark_of_mem hi h

/-- A caller that has begun has taken a step. -/
theorem mem_of_callers (h : (s.after order).callers[i]? = some a) (hbegun : a.hasBegun) :
    i ∈ order := by
  by_contra hi
  rw [callers_of_notMem hi, Option.map_eq_some_iff] at h
  obtain ⟨call, -, rfl⟩ := h
  cases call <;> cases hbegun

/-- What came before a caller is fixed once it has begun. -/
theorem before_concat_of_mem (h : i ∈ order) : before i (order ++ [j]) = before i order := by
  induction order with
  | nil => cases h
  | cons k rest ih =>
    unfold before at ih ⊢
    rw [List.cons_append, List.takeWhile_cons, List.takeWhile_cons]
    by_cases hk : k = i
    · rw [if_neg (by simpa using hk), if_neg (by simpa using hk)]
    · rw [ih ((List.mem_cons.1 h).resolve_left (Ne.symm hk))]

/-- A caller that begins now has everything so far before it. -/
theorem before_concat_self (h : i ∉ order) : before i (order ++ [i]) = order := by
  have hall : ∀ k ∈ order, decide (k ≠ i) = true := fun k hk =>
    decide_eq_true fun heq => h (heq ▸ hk)
  rw [before, List.takeWhile_append_of_pos hall]
  simp

/-! ## Lists that can be resolved -/

/-- A caller has found no failure, and is not about to write a list that cannot be resolved. -/
def IsUnfailing (s : Sharing α β) : Caller α β → Prop
  | .rememberFailure _ => False
  | .writeList entries => ∃ resolution, entries.mapM s.resolve = .ok resolution
  | _ => True

/-- Where every list can be resolved no failure is found. -/
structure Unfailing (s : Sharing α β) (c : Crowd α β) : Prop where
  configured : ∃ resolution, c.pool.configured.mapM s.resolve = .ok resolution
  failure : c.pool.failure = none
  callers : ∀ a ∈ c.callers, s.IsUnfailing a

/-- No step finds a failure where there can be none. -/
theorem Unfailing.step {c : Crowd α β} (h : s.Unfailing c) (i : ℕ) :
    s.Unfailing (c.step s.resolve i) := by
  cases ha : c.callers[i]? with
  | none => rwa [Crowd.step_of_none ha]
  | some a =>
    have ha' := h.callers a (List.mem_of_getElem? ha)
    have hcallers : ∀ b, s.IsUnfailing b → ∀ b' ∈ c.callers.set i b, s.IsUnfailing b' := by
      intro b hb b' hb'
      obtain hb' | rfl := List.mem_or_eq_of_mem_set hb'
      · exact h.callers b' hb'
      · exact hb
    rw [Crowd.step, ha]
    cases a with
    | writeList entries => exact ⟨ha', h.failure, hcallers _ trivial⟩
    | rememberFailure e => exact ha'.elim
    | takeMark =>
      cases hstale : c.pool.isStale <;>
        simp only [Caller.step, hstale] <;>
        exact ⟨h.configured, h.failure, hcallers _ trivial⟩
    | readList =>
      obtain ⟨resolution, hresolution⟩ := h.configured
      simp only [Caller.step, hresolution]
      exact ⟨h.configured, h.failure, hcallers _ trivial⟩
    | readFailure =>
      simp only [Caller.step, h.failure]
      exact ⟨h.configured, h.failure, hcallers _ trivial⟩
    | forgetOld | forgetFailure => exact ⟨h.configured, rfl, hcallers _ trivial⟩
    | _ => exact ⟨h.configured, h.failure, hcallers _ trivial⟩

/-- If every list can be resolved, no order of the steps comes upon a failure. -/
theorem Resolves.unfailing (h : s.Resolves) (order : List ℕ) : s.Unfailing (s.after order) := by
  induction order using List.reverseRecOn with
  | nil =>
    refine ⟨h _ (.inl rfl), rfl, fun a ha => ?_⟩
    obtain ⟨call, hcall, rfl⟩ := List.mem_map.1 ha
    cases call with
    | replace entries => exact h entries (.inr hcall)
    | ask => trivial
  | append_singleton order i ih =>
    rw [after_concat]
    exact ih.step i

end Sharing

end MediaTransport.Address
