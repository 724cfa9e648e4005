import MediaTransport.Address.Endpoint

/-!
# Address pools

A pool holds a configured list of hosts or endpoints and remembers what it
resolved to.  Replacing the list only marks the memory as stale; the next use
resolves every entry in order.  When an entry cannot be resolved, the pool
remembers the failure and reports it on every use, without another look-up, until
the list is replaced.

Resolution is an effect of the surroundings, so `Pool.resolvedBy` takes the
look-up of an entry in any monad.  `Pool.resolved` is the case of a look-up that
is a function of the entry.
-/

namespace MediaTransport.Address

/-- A configured list and its resolution. -/
structure Pool (α β : Type) where
  /-- The list. -/
  configured : List α
  /-- Whether the list is newer than the resolution. -/
  isStale : Bool
  /-- The last complete resolution. -/
  resolution : List β
  /-- Why the list cannot be resolved, if that is known. -/
  failure : Option String
  deriving DecidableEq, Repr

variable {α β : Type}

/-- A pool with a list that has not been resolved. -/
def Pool.ofList (configured : List α) : Pool α β :=
  ⟨configured, true, [], none⟩

/-- The pool with another list. -/
def Pool.replace (p : Pool α β) (configured : List α) : Pool α β :=
  { p with configured, isStale := true, failure := none }

/-- Whether the list is known to have an entry that cannot be resolved. -/
def Pool.hasFailed (p : Pool α β) : Bool :=
  p.failure.isSome

/-- The error that a remembered failure is reported as. -/
def rememberedFailure (reason : String) : Error :=
  .resolution "address set" reason

/-- What the pool remembers. -/
def Pool.remembered (p : Pool α β) : Except Error (List β) :=
  match p.failure with
  | some reason => .error (rememberedFailure reason)
  | none => .ok p.resolution

/-- The pool after its list has been resolved, or has turned out not to be. -/
def Pool.learn (p : Pool α β) : Except Error (List β) → Pool α β
  | .ok resolution => { p with isStale := false, resolution, failure := none }
  | .error e => { p with isStale := false, failure := some e.message }

/-- The resolution of the list, from memory when the list has not changed.
Entries are looked up in order, up to the first that fails. -/
def Pool.resolvedBy {m : Type → Type} [Monad m] (resolve : α → ExceptT Error m β)
    (p : Pool α β) : m (Except Error (List β) × Pool α β) := do
  if p.isStale then
    let outcome ← (p.configured.mapM resolve).run
    return (outcome, p.learn outcome)
  else return (p.remembered, p)

/-- The resolution of the list, when looking up is a function of the entry. -/
def Pool.resolved (resolve : α → Except Error β) :
    ExceptT Error (StateM (Pool α β)) (List β) :=
  Pool.resolvedBy fun a => (liftM (resolve a) : ExceptT Error Id β)

/-- Whether an address is an alternative of a host in the pool. -/
def Pool.authorizes (lookup : Lookup) (ip : Ip) :
    ExceptT Error (StateM (Pool Host Resolved)) Bool := do
  let hosts ← Pool.resolved (Host.resolve lookup)
  return hosts.any (·.contains ip.mapped)

end MediaTransport.Address
