import GuardedThings.Access.Cache

/-!
# Caches and their histories

A cache answers a lookup with an enforcer that was built at some earlier lookup.
What it keeps is described by its history alone (`kept_of_history`): each kept
enforcer was built from the policy of some lookup, at the time of that lookup,
whatever was evicted or invalidated since.

A history is coherent if policies with the same id and revision are the same and
time never runs backwards. Then a kept enforcer that is served is the one that
would be built now: the policy is the same, and no subject expired between the
two times, since the earliest expiry has not been reached
(`asOf_eq_of_not_isStale`). `ReadyFor` names the caches that such a history has
led to; all they ever answer is `getOrBuild_fst`.
-/

set_option autoImplicit false

namespace GuardedThings

/-! ## Enforcers that stay what they are -/

namespace Timestamp

/-- A time is reached as soon as the clock is not before it. -/
theorem reached_iff (t now : Timestamp) :
    t.reached now = true ↔ t.millis.toNat ≤ now.millis.toNat := by
  unfold reached
  rw [decide_eq_true_iff, UInt64.le_iff_toNat_le]

/-- What is reached at a time is reached at every later one. -/
theorem reached_trans {t u v : Timestamp} (h : t.reached u = true) (h' : u.reached v = true) :
    t.reached v = true := by
  rw [reached_iff] at *
  exact Nat.le_trans h h'

/-- The earlier of two times is reached iff one of them is. -/
theorem earlier_reached_iff (t u now : Timestamp) :
    (t.earlier u).reached now = true ↔ t.reached now = true ∨ u.reached now = true := by
  unfold earlier
  simp only [reached_iff]
  split
  · rename_i hle
    rw [UInt64.le_iff_toNat_le] at hle
    omega
  · rename_i hlt
    rw [UInt64.le_iff_toNat_le] at hlt
    omega

/-- The earliest of some times is reached iff one of them is. -/
theorem foldl_earlier_reached_iff (times : List Timestamp) (t now : Timestamp) :
    (times.foldl earlier t).reached now = true ↔
      t.reached now = true ∨ ∃ u ∈ times, u.reached now = true := by
  induction times generalizing t with
  | nil => simp
  | cons u rest ih =>
    rw [List.foldl_cons, ih, earlier_reached_iff]
    simp [or_assoc]

end Timestamp

namespace Enforcer

/-- An enforcer is stale as soon as one of the expiries it was built with is reached. -/
theorem isStale_build_iff (counts : Subject → Bool) (policy : Policy) (now : Timestamp) :
    (build counts policy).isStale now = true ↔
      ∃ t ∈ expiries counts policy, t.reached now = true := by
  unfold isStale build
  dsimp only
  cases expiries counts policy with
  | nil => simp [earliest?]
  | cons t rest => simp [earliest?, Timestamp.foldl_earlier_reached_iff]

/-- The expiry of a subject that counts is among the expiries of the policy. -/
theorem mem_expiries (counts : Subject → Bool) {policy : Policy} {label : Label} {body : EntryBody}
    {id : SubjectId} {subject : Subject} {t : Timestamp}
    (hbody : policy.entries.get? label = some body)
    (hsubject : body.subjects.get? id = some subject)
    (hcounts : counts subject = true) (ht : subject.expiry = some t) :
    t ∈ expiries counts policy := by
  unfold expiries
  refine List.mem_flatMap.mpr ⟨body, ?_, List.mem_filterMap.mpr ⟨subject, ?_, ht⟩⟩
  · exact List.mem_map_of_mem ((policy.entries.mem_toList_iff _ _).mpr hbody)
  · refine List.mem_filter.mpr ⟨?_, hcounts⟩
    exact List.mem_map_of_mem ((body.subjects.mem_toList_iff _ _).mpr hsubject)

/-- As long as no subject expires, the enforcer does not change. -/
theorem asOf_eq_of_not_isStale {policy : Policy} {t now : Timestamp} (h : t.reached now = true)
    (hfresh : (asOf policy t).isStale now = false) : asOf policy t = asOf policy now := by
  have hexpired : ∀ label body id subject, policy.entries.get? label = some body →
      body.subjects.get? id = some subject → subject.isExpired t = subject.isExpired now := by
    intro label body id subject hbody hsubject
    unfold Subject.isExpired
    cases hexpiry : subject.expiry with
    | none => rfl
    | some expiry =>
      dsimp only
      by_cases hreached : expiry.reached t = true
      · rw [hreached, Timestamp.reached_trans hreached h]
      · -- The subject still counted at the time of the build, so its expiry is among those watched.
        have hcounted : subject.isExpired t = false := by
          unfold Subject.isExpired
          rw [hexpiry]
          exact Bool.eq_false_iff.mpr hreached
        have hkept : (policy.removeExpired t).entries.get? label =
            some { body with subjects := body.subjects.withoutExpired t } := by
          unfold Policy.removeExpired
          rw [Dict.get?_mapValues, hbody]
          rfl
        have hnamed : (body.subjects.withoutExpired t).get? id = some subject := by
          unfold Subjects.withoutExpired
          rw [Dict.get?_filter, hsubject]
          simp [hcounted]
        have hwatched := mem_expiries (fun _ => true) hkept hnamed rfl hexpiry
        have hunreached : expiry.reached now = false := by
          rw [Bool.eq_false_iff]
          intro hnow
          have hstale := (isStale_build_iff _ _ now).mpr ⟨expiry, hwatched, hnow⟩
          exact Bool.eq_false_iff.mp hfresh hstale
        rw [Bool.eq_false_iff.mpr hreached, hunreached]
  have hremoved : policy.removeExpired t = policy.removeExpired now := by
    unfold Policy.removeExpired
    congr 1
    refine Dict.ext_get? fun label => ?_
    rw [Dict.get?_mapValues, Dict.get?_mapValues]
    cases hbody : policy.entries.get? label with
    | none => rfl
    | some body =>
      simp only [Option.map_some]
      congr 2
      refine Dict.ext_get? fun id => ?_
      unfold Subjects.withoutExpired
      rw [Dict.get?_filter, Dict.get?_filter]
      cases hsubject : body.subjects.get? id with
      | none => rfl
      | some subject =>
        simp only [Option.filter_some, hexpired label body id subject hbody hsubject]
  unfold asOf
  rw [hremoved]

end Enforcer

/-! ## Histories -/

/-- One use of a cache. -/
inductive CacheUse where
  /-- The enforcer of a policy is asked for, at a time. -/
  | lookup (policy : Policy) (now : Timestamp)
  /-- The enforcer of a policy is to be forgotten. -/
  | invalidate (id : PolicyId)

namespace CacheUse

/-- The lookups of a history. -/
def lookups (uses : List CacheUse) : List (Policy × Timestamp) :=
  uses.filterMap fun
    | lookup policy now => some (policy, now)
    | invalidate _ => none

/-- What the cache is afterwards. -/
def apply (c : EnforcerCache) : CacheUse → EnforcerCache
  | lookup policy now => (c.getOrBuild policy now).2
  | invalidate id => c.invalidate id

end CacheUse

/-- Lookups of policies that stay the same as long as their revision does. -/
def Consistent (lookups : List (Policy × Timestamp)) : Prop :=
  ∀ policy now policy' now', (policy, now) ∈ lookups → (policy', now') ∈ lookups →
    policy.id = policy'.id → policy.book.revision = policy'.book.revision → policy = policy'

/-- Lookups by a clock that never runs backwards. -/
def Ordered (lookups : List (Policy × Timestamp)) : Prop :=
  lookups.Pairwise fun before after => before.2.reached after.2 = true

/-- Lookups of policies that stay the same as long as their revision does, by a clock that never
runs backwards. -/
structure Coherent (lookups : List (Policy × Timestamp)) : Prop where
  consistent : Consistent lookups
  ordered : Ordered lookups

namespace EnforcerCache

/-- The cache after a history. -/
def after (c : EnforcerCache) (uses : List CacheUse) : EnforcerCache := uses.foldl CacheUse.apply c

/-- Every kept enforcer was built at one of the lookups. -/
def BuiltAt (c : EnforcerCache) (lookups : List (Policy × Timestamp)) : Prop :=
  ∀ id e, c.enforcers.get? id = some e →
    ∃ policy now, (policy, now) ∈ lookups ∧ policy.id = id ∧ e = Enforcer.asOf policy now

/-- What is left after dropping from the front was kept before. -/
theorem get?_evict {α : Type} {capacity : Nat} {kept : Dict PolicyId α} {queue : List PolicyId}
    {id : PolicyId} {a : α} (h : (evict capacity kept queue).1.get? id = some a) :
    kept.get? id = some a := by
  induction queue generalizing kept with
  | nil => exact h
  | cons first rest ih =>
    rw [evict] at h
    split at h
    · have herased := ih h
      rw [Dict.get?_erase] at herased
      split at herased
      · cases herased
      · exact herased
    · exact h

/-- What is kept after an insertion was inserted or was kept before. -/
theorem get?_insert {c : EnforcerCache} {inserted : Enforcer} {id : PolicyId} {e : Enforcer}
    (h : (c.insert inserted).enforcers.get? id = some e) :
    (id = inserted.policyId ∧ e = inserted) ∨ c.enforcers.get? id = some e := by
  unfold insert at h
  split at h
  · exact .inr h
  · have hinserted := get?_evict h
    rw [Dict.get?_insert] at hinserted
    split at hinserted
    · rename_i hid
      cases hinserted
      exact .inl ⟨hid, rfl⟩
    · exact .inr hinserted

/-- What is kept after an id was forgotten was kept before. -/
theorem get?_invalidate {c : EnforcerCache} {forgotten id : PolicyId} {e : Enforcer}
    (h : (c.invalidate forgotten).enforcers.get? id = some e) : c.enforcers.get? id = some e := by
  unfold invalidate at h
  split at h
  · rw [Dict.get?_erase] at h
    split at h
    · cases h
    · exact h
  · exact h

/-- One use adds at most the enforcer built for its own lookup. -/
theorem BuiltAt.apply {c : EnforcerCache} {uses : List CacheUse} (use : CacheUse)
    (h : c.BuiltAt (CacheUse.lookups uses)) :
    (use.apply c).BuiltAt (CacheUse.lookups (uses ++ [use])) := by
  intro id e hkept
  have hbefore : c.enforcers.get? id = some e →
      ∃ policy now, (policy, now) ∈ CacheUse.lookups (uses ++ [use]) ∧ policy.id = id ∧
        e = Enforcer.asOf policy now := by
    intro hget
    obtain ⟨policy, now, hmem, hrest⟩ := h id e hget
    refine ⟨policy, now, ?_, hrest⟩
    unfold CacheUse.lookups at hmem ⊢
    rw [List.filterMap_append]
    exact List.mem_append_left _ hmem
  cases use with
  | invalidate forgotten => exact hbefore (get?_invalidate hkept)
  | lookup policy now =>
    unfold CacheUse.apply getOrBuild at hkept
    dsimp only at hkept
    split at hkept
    · exact hbefore (get?_invalidate hkept)
    · split at hkept
      · exact hbefore hkept
      · rcases get?_insert hkept with ⟨hid, rfl⟩ | hget
        · refine ⟨policy, now, ?_, hid.symm, rfl⟩
          simp [CacheUse.lookups]
        · exact hbefore hget

/-- What is kept after a history was built at its lookups. -/
theorem kept_of_history (config : CacheConfig) (uses : List CacheUse) :
    ((new config).after uses).BuiltAt (CacheUse.lookups uses) := by
  suffices h : ∀ (rest done : List CacheUse) (c : EnforcerCache),
      c.BuiltAt (CacheUse.lookups done) →
        (c.after rest).BuiltAt (CacheUse.lookups (done ++ rest)) by
    exact h uses [] (new config) nofun
  intro rest
  induction rest with
  | nil =>
    intro done c hbuilt
    rw [List.append_nil]
    exact hbuilt
  | cons use rest ih =>
    intro done c hbuilt
    have hnext := ih (done ++ [use]) (use.apply c) (hbuilt.apply use)
    rw [List.append_assoc] at hnext
    exact hnext

/-- A cache with a coherent history that the given lookup continues. -/
def ReadyFor (c : EnforcerCache) (policy : Policy) (now : Timestamp) : Prop :=
  ∃ config uses, c = (new config).after uses ∧
    Coherent (CacheUse.lookups uses ++ [(policy, now)])

/-- A cache that was never used is ready for any lookup. -/
theorem readyFor_new (config : CacheConfig) (policy : Policy) (now : Timestamp) :
    (new config).ReadyFor policy now := by
  refine ⟨config, [], rfl, ?_, List.pairwise_singleton _ _⟩
  intro p t p' t' hmem hmem' _ _
  cases List.mem_singleton.mp hmem
  cases List.mem_singleton.mp hmem'
  rfl

/-- A cache stays ready for the lookup it has just answered. -/
theorem ReadyFor.again {c : EnforcerCache} {policy : Policy} {now : Timestamp}
    (h : c.ReadyFor policy now) : (c.getOrBuild policy now).2.ReadyFor policy now := by
  obtain ⟨config, uses, rfl, hcoherent⟩ := h
  have hlookups : CacheUse.lookups (uses ++ [.lookup policy now]) =
      CacheUse.lookups uses ++ [(policy, now)] := by
    unfold CacheUse.lookups
    rw [List.filterMap_append]
    rfl
  refine ⟨config, uses ++ [.lookup policy now], ?_, ?_, ?_⟩
  · unfold after
    rw [List.foldl_append]
    rfl
  · have hmem : ∀ lookup ∈ CacheUse.lookups uses ++ [(policy, now)] ++ [(policy, now)],
        lookup ∈ CacheUse.lookups uses ++ [(policy, now)] := by
      intro lookup h
      rcases List.mem_append.mp h with h | h
      · exact h
      · exact List.mem_append_right _ h
    rw [hlookups]
    intro p t p' t' h h'
    exact hcoherent.consistent p t p' t' (hmem _ h) (hmem _ h')
  · rw [hlookups]
    refine List.pairwise_append.mpr ⟨hcoherent.ordered, List.pairwise_singleton _ _, ?_⟩
    intro before hbefore last hlast
    cases List.mem_singleton.mp hlast
    rcases List.mem_append.mp hbefore with hearlier | hself
    · exact (List.pairwise_append.mp hcoherent.ordered).2.2 _ hearlier _ List.mem_cons_self
    · cases List.mem_singleton.mp hself
      exact (Timestamp.reached_iff _ _).mpr (Nat.le_refl _)

/-- What is served after a coherent history is what would be built. -/
theorem ReadyFor.eq_of_served {c : EnforcerCache} {policy : Policy} {now : Timestamp}
    {e : Enforcer} (h : c.ReadyFor policy now) (hserved : c.served? policy now = some e) :
    e = Enforcer.asOf policy now := by
  obtain ⟨config, uses, rfl, hcoherent⟩ := h
  unfold served? at hserved
  obtain ⟨hkept, husable⟩ := Option.filter_eq_some_iff.mp hserved
  rw [Bool.and_eq_true, decide_eq_true_iff] at husable
  obtain ⟨hrevision, hfresh⟩ := husable
  obtain ⟨built, t, hmem, hid, rfl⟩ := kept_of_history config uses policy.id e hkept
  have hsame : built = policy :=
    hcoherent.consistent built t policy now (List.mem_append_left _ hmem)
      (List.mem_append_right _ List.mem_cons_self) hid hrevision
  subst hsame
  have hnot_after : t.reached now = true :=
    (List.pairwise_append.mp hcoherent.ordered).2.2 _ hmem _ List.mem_cons_self
  exact Enforcer.asOf_eq_of_not_isStale hnot_after (by simpa using hfresh)

/-- After a coherent history the answer to a lookup is the enforcer of the policy at the time, and
none if the policy was deleted. -/
theorem ReadyFor.getOrBuild_fst {c : EnforcerCache} {policy : Policy} {now : Timestamp}
    (h : c.ReadyFor policy now) :
    (c.getOrBuild policy now).1 =
      if policy.isDeleted then none else some (Enforcer.asOf policy now) := by
  unfold getOrBuild
  split
  · rfl
  · cases hserved : c.served? policy now with
    | none => rfl
    | some e =>
      rw [h.eq_of_served hserved]

end EnforcerCache

end GuardedThings
