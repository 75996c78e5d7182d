import GuardedThings.Proofs.Access.CacheTransparency
import GuardedThings.Thing.Guard

/-!
# Verdicts of guards

Guards of policies and of things differ in what they do without a policy, in the
failures they give, and in that a thing keeps its id. About an entity with a
policy both do the same with the enforcer that the cache answers with: a command
is authorized iff the enforcer lets the caller through to the resource of the
part it addresses (`PolicyGuard.authorize_eq_ok_iff`, `ThingGuard.authorize_eq_ok_iff`),
and what is left of an answer is the enforcer's view from there
(`PolicyGuard.entity_filter`, `ThingGuard.entity_filter`).
-/

set_option autoImplicit false

namespace GuardedThings

variable {cache : EnforcerCache} {policy : Policy} {caller : Caller} {now : Timestamp}
  {r : Response}

/-- A command to an active policy is authorized iff the policy's enforcer permits it. -/
theorem PolicyGuard.authorize_eq_ok_iff {c : PolicyCommand} (hlive : policy.isDeleted = false) :
    (authorize cache c (some policy) caller now).1 = .ok () ↔
      ∃ e, (cache.getOrBuild policy now).1 = some e ∧
        e.permits c.request.isQuery caller c.request.part.resourceKey = true := by
  unfold authorize enforcer?
  cases hanswer : (cache.getOrBuild policy now).1 with
  | none =>
    rw [(EnforcerCache.getOrBuild_eq_none_iff _ _ _).mp hanswer] at hlive
    cases hlive
  | some e =>
    simp only [hanswer, Option.some_or, Option.some.injEq, exists_eq_left']
    split
    · rename_i hpermits
      simp [hpermits]
    · rename_i hdenied
      simp [hdenied]

/-- A command to a thing with a policy is authorized iff the policy's enforcer permits it. -/
theorem ThingGuard.authorize_eq_ok_iff {c : ThingCommand} :
    (authorize cache c (some policy) caller now).1 = .ok () ↔
      ∃ e, (cache.getOrBuild policy now).1 = some e ∧
        e.permits c.request.isQuery caller c.request.part.resourceKey = true := by
  unfold authorize PolicyGuard.enforcer?
  cases hanswer : (cache.getOrBuild policy now).1 with
  | none => simp [hanswer]
  | some e =>
    simp only [hanswer, Option.any_some, Option.some.injEq, exists_eq_left']
    split
    · rename_i hpermits
      simp [hpermits]
    · rename_i hdenied
      simp [hdenied]

/-- What a filtered response shows of a policy is the view of the caller who may read. -/
theorem PolicyGuard.entity_filter {c : PolicyCommand} :
    (filter cache c r policy caller now).1.entity =
      r.entity.bind fun entity => (cache.getOrBuild policy now).1.bind fun e =>
        e.viewAt? c.request.part.resourceKey entity caller .read := by
  unfold filter
  cases hentity : r.entity with
  | none => exact hentity
  | some entity => rfl

/-- What a filtered response shows of a thing is the view of the caller who may read, with the id
put back. -/
theorem ThingGuard.entity_filter {c : ThingCommand} :
    (filter cache c r policy caller now).1.entity =
      (r.entity.bind fun entity => (cache.getOrBuild policy now).1.bind fun e =>
        e.viewAt? c.request.part.resourceKey entity caller .read).map (keepId c) := by
  unfold filter
  cases hentity : r.entity with
  | none => exact hentity
  | some entity => rfl

end GuardedThings
