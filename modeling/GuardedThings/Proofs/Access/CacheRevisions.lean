import GuardedThings.Proofs.Access.CacheHistory
import GuardedThings.Proofs.Dictionaries

/-!
# Revisions noted beside the enforcers

An enforcer knows the revision it was built from, so a cache need not store it. A
cache that notes the revision of the policy beside the enforcer, and the id as a
key (`NotedCache`), compares what it noted. It noted what the enforcer knows
(`NotedCache.Faithful`), whatever the cache was used for, and so it does the same
and gives the same answers as the cache that stores enforcers alone
(`NotedCache.toCache_after`, `NotedCache.getOrBuild_toCache`).
-/

set_option autoImplicit false

namespace GuardedThings

/-- An enforcer with the revision it is kept for. -/
structure NotedEnforcer where
  revision : Revision
  enforcer : Enforcer

/-- A cache that notes the revisions of the enforcers. -/
structure NotedCache where
  capacity : Nat
  entries : Dict PolicyId NotedEnforcer
  /-- The ids of the kept enforcers, the one inserted first in front. -/
  queue : List PolicyId

namespace NotedCache

/-- The empty cache. -/
def new (config : CacheConfig) : NotedCache := ⟨config.maxEntries.toNat, .empty, []⟩

/-- The cache without the enforcer of a policy. -/
def invalidate (c : NotedCache) (id : PolicyId) : NotedCache :=
  if c.entries.contains id then
    { c with entries := c.entries.erase id, queue := c.queue.filter (· ≠ id) }
  else c

/-- The cache with an enforcer inserted last, for a policy and its revision. -/
def insert (c : NotedCache) (id : PolicyId) (noted : NotedEnforcer) : NotedCache :=
  if c.capacity = 0 then c
  else
    let queue := if c.entries.contains id then c.queue.filter (· ≠ id) else c.queue
    let (entries, queue) :=
      EnforcerCache.evict c.capacity (c.entries.insert id noted) (queue ++ [id])
    { c with entries, queue }

/-- The kept enforcer, if the noted revision is that of the policy and it is not stale at `now`. -/
def served? (c : NotedCache) (policy : Policy) (now : Timestamp) : Option Enforcer :=
  ((c.entries.get? policy.id).filter fun noted =>
    noted.revision = policy.book.revision && !noted.enforcer.isStale now).map (·.enforcer)

/-- The enforcer of a policy at `now`, kept or built, and the cache afterwards; none if the policy
was deleted. -/
def getOrBuild (c : NotedCache) (policy : Policy) (now : Timestamp) :
    Option Enforcer × NotedCache :=
  if policy.isDeleted then (none, c.invalidate policy.id)
  else
    match c.served? policy now with
    | some e => (some e, c)
    | none =>
      let e := Enforcer.asOf policy now
      (some e, c.insert policy.id ⟨policy.book.revision, e⟩)

/-- The cache after one use. -/
def use (c : NotedCache) : CacheUse → NotedCache
  | .lookup policy now => (c.getOrBuild policy now).2
  | .invalidate id => c.invalidate id

/-- The cache after a history. -/
def after (c : NotedCache) (uses : List CacheUse) : NotedCache := uses.foldl use c

/-- The cache without its notes. -/
def toCache (c : NotedCache) : EnforcerCache :=
  ⟨c.capacity, c.entries.mapValues fun _ noted => noted.enforcer, c.queue⟩

/-- What is noted is what the enforcer knows. -/
def Faithful (c : NotedCache) : Prop :=
  ∀ id noted, c.entries.get? id = some noted →
    noted.revision = noted.enforcer.revision ∧ noted.enforcer.policyId = id

/-! ## The notes make no difference -/

/-- Forgetting the noted revisions commutes with an invalidation. -/
theorem toCache_invalidate (c : NotedCache) (id : PolicyId) :
    (c.invalidate id).toCache = c.toCache.invalidate id := by
  have hcontains : c.toCache.enforcers.contains id = c.entries.contains id :=
    Dict.contains_mapValues _ c.entries id
  unfold invalidate EnforcerCache.invalidate
  rw [hcontains]
  split
  · unfold toCache
    rw [Dict.mapValues_erase]
  · rfl

/-- What is dropped depends on the ids alone. -/
theorem evict_mapValues {α β : Type} (f : α → β) (capacity : Nat) (kept : Dict PolicyId α)
    (queue : List PolicyId) :
    EnforcerCache.evict capacity (kept.mapValues fun _ => f) queue =
      ((EnforcerCache.evict capacity kept queue).1.mapValues fun _ => f,
        (EnforcerCache.evict capacity kept queue).2) := by
  induction queue generalizing kept with
  | nil => rfl
  | cons id rest ih =>
    rw [EnforcerCache.evict, EnforcerCache.evict, Dict.size_mapValues]
    split
    · rw [← Dict.mapValues_erase, ih]
    · rfl

/-- Forgetting the noted revisions commutes with the insertion of an enforcer under its own id. -/
theorem toCache_insert (c : NotedCache) {id : PolicyId} (noted : NotedEnforcer)
    (hid : noted.enforcer.policyId = id) :
    (c.insert id noted).toCache = c.toCache.insert noted.enforcer := by
  have hcontains : c.toCache.enforcers.contains id = c.entries.contains id :=
    Dict.contains_mapValues _ c.entries id
  have hevict := evict_mapValues NotedEnforcer.enforcer c.capacity (c.entries.insert id noted)
  simp only [Dict.mapValues_insert] at hevict
  unfold insert EnforcerCache.insert
  simp only [hid, hcontains]
  show (if c.capacity = 0 then c else _).toCache = if c.capacity = 0 then c.toCache else _
  split
  · rfl
  · simp only [toCache, hevict]

/-- Where the noted revisions are those of the enforcers, both layouts serve the same enforcers. -/
theorem served?_toCache {c : NotedCache} (h : c.Faithful) (policy : Policy) (now : Timestamp) :
    c.toCache.served? policy now = c.served? policy now := by
  have hget : c.toCache.enforcers.get? policy.id =
      (c.entries.get? policy.id).map fun noted => noted.enforcer :=
    Dict.get?_mapValues _ c.entries policy.id
  unfold served? EnforcerCache.served?
  rw [hget]
  cases hnoted : c.entries.get? policy.id with
  | none => rfl
  | some noted =>
    have hrevision := (h policy.id noted hnoted).1
    simp only [Option.map_some, Option.filter_some, hrevision]
    split
    · rfl
    · rfl

/-- The answers are the same, and so are the caches afterwards. -/
theorem getOrBuild_toCache {c : NotedCache} (h : c.Faithful) (policy : Policy) (now : Timestamp) :
    c.toCache.getOrBuild policy now =
      ((c.getOrBuild policy now).1, (c.getOrBuild policy now).2.toCache) := by
  unfold getOrBuild EnforcerCache.getOrBuild
  rw [served?_toCache h]
  cases policy.isDeleted with
  | true => exact congrArg (Prod.mk none) (toCache_invalidate c policy.id).symm
  | false =>
    cases c.served? policy now with
    | some e => rfl
    | none =>
      have hid : (Enforcer.asOf policy now).policyId = policy.id := rfl
      have hinsert := c.toCache_insert ⟨policy.book.revision, _⟩ hid
      exact congrArg (Prod.mk _) hinsert.symm

/-- Forgetting the noted revisions commutes with every use. -/
theorem toCache_use {c : NotedCache} (h : c.Faithful) (use : CacheUse) :
    (c.use use).toCache = use.apply c.toCache := by
  cases use with
  | lookup policy now => exact (congrArg Prod.snd (getOrBuild_toCache h policy now)).symm
  | invalidate id => exact toCache_invalidate c id

/-! ## The notes stay faithful -/

/-- An invalidation drops enforcers, and those that stay keep their notes. -/
theorem Faithful.invalidate {c : NotedCache} (h : c.Faithful) (id : PolicyId) :
    (c.invalidate id).Faithful := by
  unfold NotedCache.invalidate
  split
  · intro other noted hget
    rw [Dict.get?_erase] at hget
    split at hget
    · cases hget
    · exact h other noted hget
  · exact h

/-- An enforcer that is inserted with its own revision is noted rightly. -/
theorem Faithful.insert {c : NotedCache} (h : c.Faithful) {id : PolicyId} (noted : NotedEnforcer)
    (hrevision : noted.revision = noted.enforcer.revision) (hid : noted.enforcer.policyId = id) :
    (c.insert id noted).Faithful := by
  unfold NotedCache.insert
  split
  · exact h
  · intro other noted' hget
    have hget := EnforcerCache.get?_evict hget
    rw [Dict.get?_insert] at hget
    split at hget
    · rename_i hother
      cases hget
      exact ⟨hrevision, hid.trans hother.symm⟩
    · exact h other noted' hget

/-- Every use notes the revision of the enforcer that it inserts. -/
theorem Faithful.use {c : NotedCache} (h : c.Faithful) (use : CacheUse) : (c.use use).Faithful := by
  cases use with
  | invalidate id => exact h.invalidate id
  | lookup policy now =>
    show (c.getOrBuild policy now).2.Faithful
    unfold getOrBuild
    split
    · exact h.invalidate policy.id
    · split
      · exact h
      · exact h.insert ⟨policy.book.revision, Enforcer.asOf policy now⟩ rfl rfl

/-- After every history the notes are faithful, and without them the cache is the one that stores
enforcers alone. -/
theorem toCache_after (config : CacheConfig) (uses : List CacheUse) :
    ((new config).after uses).Faithful ∧
      ((new config).after uses).toCache = (EnforcerCache.new config).after uses := by
  suffices h : ∀ c : NotedCache, c.Faithful →
      (c.after uses).Faithful ∧ (c.after uses).toCache = c.toCache.after uses from
    h (new config) nofun
  induction uses with
  | nil => exact fun c hc => ⟨hc, rfl⟩
  | cons use rest ih =>
    intro c hc
    have hrest := ih (c.use use) (hc.use use)
    rw [toCache_use hc] at hrest
    exact hrest

end NotedCache

end GuardedThings
