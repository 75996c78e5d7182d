import GuardedThings.Proofs.Access.CacheTransparency

/-!
# Repeated lookups

A cache that is asked again for the enforcer of the same policy at the same time
gives the same answer, whatever its history was: if it served a kept enforcer it
has not changed, and if it built one then either that one is kept, or none is
that could be served, and the same is built again (`getOrBuild_again`).

So two decisions about one policy at one time rest on the same enforcer if the
second cache differs from the first by such lookups only, or if both caches have
coherent histories. `AnswersAlike` names these pairs of caches.
-/

set_option autoImplicit false

namespace GuardedThings

namespace EnforcerCache

/-- A history in two pieces is used up one piece after the other. -/
theorem after_append (c : EnforcerCache) (before more : List CacheUse) :
    c.after (before ++ more) = (c.after before).after more := by
  unfold after
  exact List.foldl_append

/-- What is served after an insertion is the inserted enforcer or was served before. -/
theorem served?_insert {c : EnforcerCache} {inserted e : Enforcer} {policy : Policy}
    {now : Timestamp} (h : (c.insert inserted).served? policy now = some e) :
    e = inserted ∨ c.served? policy now = some e := by
  unfold served? at h ⊢
  obtain ⟨hkept, husable⟩ := Option.filter_eq_some_iff.mp h
  rcases get?_insert hkept with ⟨-, heq⟩ | hbefore
  · exact .inl heq
  · exact .inr (Option.filter_eq_some_iff.mpr ⟨hbefore, husable⟩)

/-- A lookup that is served leaves the cache as it is. -/
theorem getOrBuild_of_served {c : EnforcerCache} {policy : Policy} {now : Timestamp}
    {e : Enforcer} (hlive : policy.isDeleted = false) (h : c.served? policy now = some e) :
    c.getOrBuild policy now = (some e, c) := by
  unfold getOrBuild
  simp only [hlive, h, Bool.false_eq_true, if_false]

/-- A lookup that is not served builds the enforcer and inserts it. -/
theorem getOrBuild_of_not_served {c : EnforcerCache} {policy : Policy} {now : Timestamp}
    (hlive : policy.isDeleted = false) (h : c.served? policy now = none) :
    c.getOrBuild policy now =
      (some (Enforcer.asOf policy now), c.insert (Enforcer.asOf policy now)) := by
  unfold getOrBuild
  simp only [hlive, h, Bool.false_eq_true, if_false]

/-- The same lookup again has the same answer. -/
theorem getOrBuild_again (c : EnforcerCache) (policy : Policy) (now : Timestamp) :
    ((c.getOrBuild policy now).2.getOrBuild policy now).1 = (c.getOrBuild policy now).1 := by
  cases hdeleted : policy.isDeleted with
  | true =>
    have hnone : ∀ c : EnforcerCache, (c.getOrBuild policy now).1 = none :=
      fun c => (getOrBuild_eq_none_iff c policy now).mpr hdeleted
    rw [hnone, hnone]
  | false =>
    cases hserved : c.served? policy now with
    | some e =>
      have hfirst := getOrBuild_of_served hdeleted hserved
      simp only [hfirst]
    | none =>
      simp only [getOrBuild_of_not_served hdeleted hserved]
      cases hagain : (c.insert (Enforcer.asOf policy now)).served? policy now with
      | none => rw [getOrBuild_of_not_served hdeleted hagain]
      | some e =>
        rw [getOrBuild_of_served hdeleted hagain]
        -- Nothing could be served before, so what is served now is what was just inserted.
        rcases served?_insert hagain with rfl | hbefore
        · rfl
        · rw [hserved] at hbefore
          cases hbefore

/-- The same lookup has the same answer however often it was made before. -/
theorem getOrBuild_after_replicate (c : EnforcerCache) (policy : Policy) (now : Timestamp)
    (n : Nat) :
    ((c.after (List.replicate n (.lookup policy now))).getOrBuild policy now).1 =
      (c.getOrBuild policy now).1 := by
  induction n generalizing c with
  | zero => rfl
  | succ n ih =>
    have hstep : c.after (List.replicate (n + 1) (.lookup policy now)) =
        (c.getOrBuild policy now).2.after (List.replicate n (.lookup policy now)) := rfl
    rw [hstep, ih, getOrBuild_again]

/-- Two caches whose answers about a policy at a time are the same: they have one history but for
how often exactly this was asked last, or both have a coherent history. -/
inductive AnswersAlike (policy : Policy) (now : Timestamp) : EnforcerCache → EnforcerCache → Prop
  where
  | repeated (config : CacheConfig) (uses : List CacheUse) (m n : Nat) :
      AnswersAlike policy now
        ((new config).after (uses ++ List.replicate m (.lookup policy now)))
        ((new config).after (uses ++ List.replicate n (.lookup policy now)))
  | coherent {c c' : EnforcerCache} (ready : c.ReadyFor policy now)
      (ready' : c'.ReadyFor policy now) : AnswersAlike policy now c c'

/-- Answering alike is symmetric. -/
theorem AnswersAlike.symm {policy : Policy} {now : Timestamp} {c c' : EnforcerCache}
    (h : AnswersAlike policy now c c') : AnswersAlike policy now c' c := by
  cases h with
  | repeated config uses m n => exact .repeated config uses n m
  | coherent ready ready' => exact .coherent ready' ready

/-- What one cache answers the other answers, and it was built from some policy at some time. -/
theorem AnswersAlike.answer {policy : Policy} {now : Timestamp} {c c' : EnforcerCache}
    {e : Enforcer} (h : AnswersAlike policy now c c')
    (hanswer : (c.getOrBuild policy now).1 = some e) :
    (c'.getOrBuild policy now).1 = some e ∧ ∃ built t, e = Enforcer.asOf built t := by
  cases h with
  | repeated config uses m n =>
    constructor
    · rw [after_append, getOrBuild_after_replicate] at hanswer ⊢
      exact hanswer
    · obtain ⟨built, t, -, -, -, heq, -⟩ := getOrBuild_of_history hanswer
      exact ⟨built, t, heq⟩
  | coherent ready ready' =>
    constructor
    · rw [ready.getOrBuild_fst] at hanswer
      rw [ready'.getOrBuild_fst]
      exact hanswer
    · rw [ready.getOrBuild_fst] at hanswer
      split at hanswer
      · cases hanswer
      · exact ⟨policy, now, (Option.some.inj hanswer).symm⟩

end EnforcerCache

end GuardedThings
