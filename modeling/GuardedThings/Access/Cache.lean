import GuardedThings.Access.Enforcer

/-!
# Enforcer cache

The cache keeps the enforcers of at most `capacity` policies. An enforcer is
served for exactly the revision it was built from, and only until one of its
subjects expires; otherwise it is built anew and counts as inserted last. When
there are too many, the one inserted first goes. Deleted policies have no
enforcer and are never kept.
-/

set_option autoImplicit false

namespace GuardedThings

instance (kind : EntityKind) : Key (EntityId kind) where
  names id := [id.text]
  names_injective {a b} h := by
    obtain ⟨_, _⟩ := a
    obtain ⟨_, _⟩ := b
    simp only [List.cons.injEq, and_true] at h
    cases h
    rfl

/-- The settings of a cache. -/
structure CacheConfig where
  /-- How many enforcers are kept; zero keeps none. -/
  maxEntries : UInt64
deriving DecidableEq

/-- Settings that keep 1024 enforcers. -/
def CacheConfig.standard : CacheConfig := ⟨1024⟩

/-- The fields of the settings. -/
def CacheConfig.fields {σ : Type} [Source σ] : Fields σ CacheConfig :=
  (Fields.defaulted "max_entries" standard.maxEntries Wire.decode).map
    fun maxEntries => ⟨maxEntries⟩

instance : Wire CacheConfig where
  encode c := Json.ofFields [("max_entries", some (.ofWord c.maxEntries))]
  decode := CacheConfig.fields.decode

/-- The enforcers that are kept. -/
structure EnforcerCache where
  capacity : Nat
  enforcers : Dict PolicyId Enforcer
  /-- The ids of the kept enforcers, the one inserted first in front. -/
  queue : List PolicyId

namespace EnforcerCache

/-- The empty cache. -/
def new (config : CacheConfig) : EnforcerCache := ⟨config.maxEntries.toNat, .empty, []⟩

/-- The number of enforcers kept. -/
def size (c : EnforcerCache) : Nat := c.enforcers.size

/-- The revision of the enforcer kept for a policy. -/
def revision? (c : EnforcerCache) (id : PolicyId) : Option Revision :=
  (c.enforcers.get? id).map (·.revision)

/-- The cache without the enforcer of a policy. -/
def invalidate (c : EnforcerCache) (id : PolicyId) : EnforcerCache :=
  if c.enforcers.contains id then
    { c with enforcers := c.enforcers.erase id, queue := c.queue.filter (· ≠ id) }
  else c

/-- Drops what is kept for the ids in front of the queue until no more than the capacity is left. -/
def evict {α : Type} (capacity : Nat) (kept : Dict PolicyId α) :
    List PolicyId → Dict PolicyId α × List PolicyId
  | [] => (kept, [])
  | id :: rest =>
    if capacity < kept.size then evict capacity (kept.erase id) rest
    else (kept, id :: rest)

/-- The cache with an enforcer inserted last. -/
def insert (c : EnforcerCache) (e : Enforcer) : EnforcerCache :=
  if c.capacity = 0 then c
  else
    let queue :=
      if c.enforcers.contains e.policyId then c.queue.filter (· ≠ e.policyId) else c.queue
    let (enforcers, queue) :=
      evict c.capacity (c.enforcers.insert e.policyId e) (queue ++ [e.policyId])
    { c with enforcers, queue }

/-- The kept enforcer, if it can be served for this policy at `now`. -/
def served? (c : EnforcerCache) (policy : Policy) (now : Timestamp) : Option Enforcer :=
  (c.enforcers.get? policy.id).filter fun e =>
    e.revision = policy.book.revision && !e.isStale now

/-- The enforcer of a policy at `now`, kept or built, and the cache afterwards; none if the policy
was deleted. -/
def getOrBuild (c : EnforcerCache) (policy : Policy) (now : Timestamp) :
    Option Enforcer × EnforcerCache :=
  if policy.isDeleted then (none, c.invalidate policy.id)
  else
    match c.served? policy now with
    | some e => (some e, c)
    | none =>
      let e := Enforcer.asOf policy now
      (some e, c.insert e)

end EnforcerCache

end GuardedThings
