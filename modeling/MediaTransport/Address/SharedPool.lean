import MediaTransport.Address.Pool

/-!
# Pools with several callers

Callers that share a pool do not hold it for a whole operation.  Each reading or
writing of one of its four fields is a step of its own, and the steps of
different callers may follow each other in any order.

A caller that replaces the list takes three steps: it writes the list, forgets
the failure and marks the memory as stale.  A caller that asks for the resolution
first takes the mark away.  If there was one it reads the list, looks up its
entries, and either remembers the failure, or writes the resolution and forgets
the failure.  At last it reads the failure, and the resolution if there is none.

`Crowd.run` lets callers take steps in a given order.
-/

namespace MediaTransport.Address

variable {α β : Type}

/-- Where a caller stands.  Each constructor is named for the next step. -/
inductive Caller (α β : Type) where
  /-- Write a new list. -/
  | writeList (entries : List α)
  /-- Forget the failure of the old list. -/
  | forgetOld
  /-- Mark the memory as stale. -/
  | markStale
  /-- The list has been replaced. -/
  | replaced
  /-- Take the mark away. -/
  | takeMark
  /-- Read the list and look up its entries. -/
  | readList
  /-- Remember a failure. -/
  | rememberFailure (e : Error)
  /-- Write a resolution. -/
  | writeResolution (resolution : List β)
  /-- Forget a failure that came before the resolution. -/
  | forgetFailure
  /-- Read the failure. -/
  | readFailure
  /-- Read the resolution. -/
  | readResolution
  /-- The call has an answer. -/
  | answered (outcome : Except Error (List β))

/-- A caller that is about to replace the list. -/
def Caller.replacing (entries : List α) : Caller α β := .writeList entries

/-- A caller that is about to ask for the resolution. -/
def Caller.asking : Caller α β := .takeMark

/-- One step of a caller.  A caller that is done takes none. -/
def Caller.step (resolve : α → Except Error β) (p : Pool α β) :
    Caller α β → Caller α β × Pool α β
  | .writeList entries => (.forgetOld, { p with configured := entries })
  | .forgetOld => (.markStale, { p with failure := none })
  | .markStale => (.replaced, { p with isStale := true })
  | .replaced => (.replaced, p)
  | .takeMark => (if p.isStale then .readList else .readFailure, { p with isStale := false })
  | .readList =>
    match p.configured.mapM resolve with
    | .ok resolution => (.writeResolution resolution, p)
    | .error e => (.rememberFailure e, p)
  | .rememberFailure e => (.answered (.error e), { p with failure := some e.message })
  | .writeResolution resolution => (.forgetFailure, { p with resolution })
  | .forgetFailure => (.readFailure, { p with failure := none })
  | .readFailure =>
    match p.failure with
    | some reason => (.answered (.error (rememberedFailure reason)), p)
    | none => (.readResolution, p)
  | .readResolution => (.answered (.ok p.resolution), p)
  | .answered outcome => (.answered outcome, p)

/-- A pool and the callers that share it. -/
structure Crowd (α β : Type) where
  /-- The pool. -/
  pool : Pool α β
  /-- The callers. -/
  callers : List (Caller α β)

/-- The crowd after a step of the caller with a given number. -/
def Crowd.step (resolve : α → Except Error β) (c : Crowd α β) (i : Nat) : Crowd α β :=
  match c.callers[i]? with
  | none => c
  | some caller =>
    let (caller, pool) := caller.step resolve c.pool
    ⟨pool, c.callers.set i caller⟩

/-- The crowd after steps of callers in the given order. -/
def Crowd.run (resolve : α → Except Error β) (c : Crowd α β) (order : List Nat) : Crowd α β :=
  order.foldl (Crowd.step resolve) c

end MediaTransport.Address
