import GuardedThings.Proofs.Access.Administrability
import GuardedThings.Proofs.Access.Subtree
import GuardedThings.Proofs.Policy.Adjustment

/-!
# Adding grants and adding revokes

A grant that is added to a resource can become the longest on some paths and be
inherited on others, and so can a revoke; the tree that holds it may get new
nodes. No decision turns the wrong way nevertheless. What a policy says about a
subject is said by the entries that name the subject, resource by resource
(`Policy.gives_iff`), and a policy that grants no more and revokes no less than
another (`Policy.Tighter`) grants nothing by the longest prefix that the other
does not (`Policy.Tighter.grantsByLongestPrefix`). The decisions about what is
below a key ask for this rule on longer keys, so they follow
(`Enforcer.allowsNoMore_build`).

Writing one resource of one entry changes what that entry says there and nothing
else (`Policy.effectsOn_setResource`). Hence the answers can only turn to granted
if grants are added, and only to denied if revokes are
(`Policy.decisions_monotone`).
-/

set_option autoImplicit false

namespace GuardedThings

/-- The effects grant no more than the others, and revoke no less. -/
structure Effects.Tighter (e other : Effects) : Prop where
  grants : ∀ p, e.gives .granted p = true → other.gives .granted p = true
  revokes : ∀ p, other.gives .revoked p = true → e.gives .revoked p = true

/-- Effects are as tight as themselves. -/
theorem Effects.Tighter.refl (e : Effects) : e.Tighter e := ⟨fun _ h => h, fun _ h => h⟩

namespace Policy

/-! ## What an entry says about a resource -/

/-- What an entry grants and revokes on a resource; nothing if it does not mention it. -/
def effectsOn (policy : Policy) (label : Label) (key : ResourceKey) : Effects :=
  (policy.resource? label key).getD .empty

/-- A policy gives a subject an effect iff some entry does that names the subject by a membership
that counts. -/
theorem gives_iff (counts : Subject → Bool) (policy : Policy) (id : SubjectId) (on : ResourceKey)
    (effect : Effect) (p : Permission) :
    policy.Gives counts id on effect p ↔
      ∃ label, (policy.subject? label id).any counts = true ∧
        (policy.effectsOn label on).gives effect p = true := by
  simp only [Gives, mem_statements_iff, Option.any_eq_true, subject?, effectsOn, resource?]
  constructor
  · rintro ⟨e, ⟨label, body, subject, hl, hs, hcounts, hk⟩, hgives⟩
    refine ⟨label, ⟨subject, ?_, hcounts⟩, ?_⟩
    · rw [hl]
      exact hs
    · rw [hl, Option.bind_some, hk]
      exact hgives
  · rintro ⟨label, ⟨subject, hs, hcounts⟩, hgives⟩
    obtain ⟨body, hl, hs⟩ := Option.bind_eq_some_iff.mp hs
    rw [hl, Option.bind_some] at hgives
    cases hk : body.resources.get? on with
    | none =>
      rw [hk, Option.getD_none, Effects.gives_empty] at hgives
      cases hgives
    | some e =>
      rw [hk] at hgives
      exact ⟨e, ⟨label, body, subject, hl, hs, hcounts, hk⟩, hgives⟩

/-- Writing a resource names nobody and forgets nobody. -/
theorem subject?_setResource (policy : Policy) (label l : Label) (key : ResourceKey) (e : Effects)
    (id : SubjectId) :
    (policy.setResource label key e).subject? l id = policy.subject? l id := by
  refine policy.subject?_updateEntry_of_kept label l ?_ id
  exact fun _ => rfl

/-- Writing a resource changes what its entry says about it, and nothing else. -/
theorem effectsOn_setResource (policy : Policy) (label l : Label) (key on : ResourceKey)
    (e : Effects) :
    (policy.setResource label key e).effectsOn l on =
      if l = label ∧ on = key then e else policy.effectsOn l on := by
  unfold setResource updateEntry effectsOn resource?
  by_cases hl : l = label
  · subst hl
    rw [Dict.get?_insert_self, Option.bind_some]
    show (((((policy.entries.get? l).getD .empty).resources.insert key e).get? on).getD _) = _
    rw [Dict.get?_insert]
    by_cases hon : on = key
    · rw [if_pos hon, if_pos ⟨rfl, hon⟩]
      rfl
    · rw [if_neg hon, if_neg fun h => hon h.2]
      cases policy.entries.get? l with
      | none => rfl
      | some body => rfl
  · rw [Dict.get?_insert_of_ne _ hl, if_neg fun h => hl h.1]

/-! ## Policies that grant no more and revoke no less -/

/-- The policy grants no more than the other, and revokes no less. -/
structure Tighter (counts : Subject → Bool) (policy other : Policy) : Prop where
  grants : ∀ (id : SubjectId) (on : ResourceKey) (p : Permission),
    policy.Gives counts id on .granted p → other.Gives counts id on .granted p
  revokes : ∀ (id : SubjectId) (on : ResourceKey) (p : Permission),
    other.Gives counts id on .revoked p → policy.Gives counts id on .revoked p

variable {counts : Subject → Bool} {policy other : Policy}

/-- What the longest prefix grants by a policy, it grants by one that the policy is tighter than:
the same grant is there, and longer revokes are not. -/
theorem Tighter.grantsByLongestPrefix (h : policy.Tighter counts other) {id : SubjectId}
    {key : ResourceKey} {p : Permission}
    (hgranted : policy.grantsByLongestPrefix counts id key p = true) :
    other.grantsByLongestPrefix counts id key p = true := by
  obtain ⟨g, hg, hgives, hlongest⟩ := grantsByLongestPrefix_iff.mp hgranted
  refine grantsByLongestPrefix_iff.mpr ⟨g, hg, h.grants id g p hgives, fun r hr hrevoked => ?_⟩
  exact hlongest r hr (h.revokes id r p hrevoked)

/-- What expires does so in both policies alike. -/
theorem Tighter.removeExpired {now : Timestamp}
    (h : policy.Tighter (Subject.countsAt now) other) :
    (policy.removeExpired now).Tighter (fun _ => true) (other.removeExpired now) where
  grants id on p hgives :=
    gives_removeExpired_iff.mpr (h.grants id on p (gives_removeExpired_iff.mp hgives))
  revokes id on p hgives :=
    gives_removeExpired_iff.mpr (h.revokes id on p (gives_removeExpired_iff.mp hgives))

/-- Policies whose entries name the same subjects are compared resource by resource. -/
theorem tighter_of_effectsOn
    (hsubjects : ∀ label id, policy.subject? label id = other.subject? label id)
    (heffects : ∀ label on, (policy.effectsOn label on).Tighter (other.effectsOn label on)) :
    policy.Tighter counts other where
  grants id on p hgives := by
    obtain ⟨label, hnamed, hgranted⟩ := (gives_iff _ _ _ _ _ _).mp hgives
    rw [hsubjects] at hnamed
    exact (gives_iff _ _ _ _ _ _).mpr ⟨label, hnamed, (heffects label on).grants p hgranted⟩
  revokes id on p hgives := by
    obtain ⟨label, hnamed, hrevoked⟩ := (gives_iff _ _ _ _ _ _).mp hgives
    rw [← hsubjects] at hnamed
    exact (gives_iff _ _ _ _ _ _).mpr ⟨label, hnamed, (heffects label on).revokes p hrevoked⟩

/-- A policy is tighter than what it becomes by effects that are less tight than those before. -/
theorem tighter_setResource {label : Label} {key : ResourceKey} {e : Effects}
    (h : (policy.effectsOn label key).Tighter e) :
    policy.Tighter counts (policy.setResource label key e) := by
  refine tighter_of_effectsOn (fun l id => (policy.subject?_setResource label l key e id).symm)
    fun l on => ?_
  rw [effectsOn_setResource]
  split
  · rename_i hwritten
    rw [hwritten.1, hwritten.2]
    exact h
  · exact Effects.Tighter.refl _

/-- What a policy becomes by effects that are tighter than those before is tighter than the
policy. -/
theorem setResource_tighter {label : Label} {key : ResourceKey} {e : Effects}
    (h : e.Tighter (policy.effectsOn label key)) :
    (policy.setResource label key e).Tighter counts policy := by
  refine tighter_of_effectsOn (fun l id => policy.subject?_setResource label l key e id)
    fun l on => ?_
  rw [effectsOn_setResource]
  split
  · rename_i hwritten
    rw [hwritten.1, hwritten.2]
    exact h
  · exact Effects.Tighter.refl _

end Policy

/-! ## Decisions of enforcers -/

namespace Enforcer

/-- Whatever the enforcer allows, the other allows as well: on a resource, at or below it, and on it
with everything below. -/
structure AllowsNoMore (e other : Enforcer) : Prop where
  onResource : ∀ (caller : Caller) (key : ResourceKey) (permissions : Permissions),
    e.hasPermission caller key permissions = true →
      other.hasPermission caller key permissions = true
  atOrBelow : ∀ (caller : Caller) (key : ResourceKey) (permissions : Permissions),
    e.hasPermissionAtOrBelow caller key permissions = true →
      other.hasPermissionAtOrBelow caller key permissions = true
  throughout : ∀ (caller : Caller) (key : ResourceKey) (permissions : Permissions),
    e.hasUnrestrictedPermission caller key permissions = true →
      other.hasUnrestrictedPermission caller key permissions = true

/-- A decision follows from another if, for each subject and permission, the tree does. -/
theorem decide_of_tree {question : AccessTree → Permission → List String → Bool}
    (hq : ∀ p path, question .empty p path = false) {e other : Enforcer} {key : ResourceKey}
    (htree : ∀ id p, question (e.tree id key.type) p key.path.segments = true →
      question (other.tree id key.type) p key.path.segments = true)
    {caller : Caller} {permissions : Permissions}
    (h : e.decide question caller key permissions = true) :
    other.decide question caller key permissions = true := by
  rw [decide_iff _ hq] at h ⊢
  obtain ⟨hsome, hall⟩ := h
  refine ⟨hsome, fun p hp => ?_⟩
  obtain ⟨id, hid, hgranted⟩ := hall p hp
  exact ⟨id, hid, htree id p hgranted⟩

/-- An enforcer of a tighter policy allows no more: its trees grant no more on any path, and on the
paths at and below a key that is all that the other two decisions ask. -/
theorem allowsNoMore_build {counts : Subject → Bool} {policy other : Policy}
    (h : policy.Tighter counts other) :
    (build counts policy).AllowsNoMore (build counts other) := by
  have hgrants : ∀ (id : SubjectId) (key : ResourceKey) (p : Permission),
      ((build counts policy).tree id key.type).grants p key.path.segments = true →
        ((build counts other).tree id key.type).grants p key.path.segments = true := by
    intro id key p hgranted
    rw [grants_tree_iff] at hgranted ⊢
    exact h.grantsByLongestPrefix hgranted
  have hwf := wellFormed_tree_build counts
  constructor
  · intro caller key permissions
    exact decide_of_tree grants_empty fun id p => hgrants id key p
  · intro caller key permissions
    refine decide_of_tree AccessTree.grantsAtOrBelow_empty fun id p hgranted => ?_
    obtain ⟨rest, hrest, hgranted⟩ := ((hwf policy id key.type).grantsAtOrBelow_iff p _).mp hgranted
    exact ((hwf other id key.type).grantsAtOrBelow_iff p _).mpr
      ⟨rest, hrest, hgrants id (key.extend rest hrest) p hgranted⟩
  · intro caller key permissions
    refine decide_of_tree AccessTree.grantsThroughout_empty fun id p hgranted => ?_
    rw [(hwf policy id key.type).grantsThroughout_iff] at hgranted
    refine ((hwf other id key.type).grantsThroughout_iff p _).mpr fun rest hrest => ?_
    exact hgrants id (key.extend rest hrest) p (hgranted rest hrest)

end Enforcer

namespace Policy

/-- Whatever is allowed by the policy is allowed by the other: by all memberships, by those of a
kind that counts, and by those that are not over at a time. -/
def AllowsNoMore (policy other : Policy) : Prop :=
  (∀ counts : Subject → Bool,
    (Enforcer.build counts policy).AllowsNoMore (Enforcer.build counts other)) ∧
  ∀ now : Timestamp, (Enforcer.asOf policy now).AllowsNoMore (Enforcer.asOf other now)

/-- A policy that is tighter, whichever subjects count, allows no more by any decision. -/
theorem allowsNoMore_of_tighter {policy other : Policy}
    (h : ∀ counts, policy.Tighter counts other) : policy.AllowsNoMore other := by
  constructor
  · intro counts
    exact Enforcer.allowsNoMore_build (h counts)
  · intro now
    exact Enforcer.allowsNoMore_build (h (Subject.countsAt now)).removeExpired

/-- Writing a resource that grants more and revokes the same turns no decision from granted to
denied, and writing one that revokes more and grants the same turns none from denied to granted.
What is compared is the entry's resource as it was, or nothing if there was none. -/
theorem decisions_monotone (policy : Policy) (label : Label) (key : ResourceKey)
    (effects : Effects) :
    ((∀ p, (policy.effectsOn label key).grant.contains p = true →
        effects.grant.contains p = true) →
      effects.revoke = (policy.effectsOn label key).revoke →
        policy.AllowsNoMore (policy.setResource label key effects)) ∧
    ((∀ p, (policy.effectsOn label key).revoke.contains p = true →
        effects.revoke.contains p = true) →
      effects.grant = (policy.effectsOn label key).grant →
        (policy.setResource label key effects).AllowsNoMore policy) := by
  constructor
  · intro hmore hsame
    refine allowsNoMore_of_tighter fun counts => tighter_setResource ⟨hmore, fun p hrevoked => ?_⟩
    show (policy.effectsOn label key).revoke.contains p = true
    rw [← hsame]
    exact hrevoked
  · intro hmore hsame
    refine allowsNoMore_of_tighter fun counts => setResource_tighter ⟨fun p hgranted => ?_, hmore⟩
    show (policy.effectsOn label key).grant.contains p = true
    rw [← hsame]
    exact hgranted

/-- The lamp among the features, about which the entry of `Enforcer.groupedPolicy` says nothing: it
lies below a revoke, which lies below a grant. -/
def lampFeature : ResourceKey := .thing (.ofSegments ["features", "lamp"])

/-- The caller whom the entry names. -/
def lampUser : Caller :=
  .ofIds (Enforcer.groupedPolicy.entries.values.flatMap fun body => body.subjects.keys)

/-- A grant on the lamp shows it below what is hidden, and a revoke at the root hides everything. -/
theorem decisions_monotone_lampFeature :
    (Enforcer.groupedPolicy.resource? ⟨"user", by decide⟩ lampFeature = none ∧
      Enforcer.groupedPolicy.AllowsNoMore
        (Enforcer.groupedPolicy.setResource ⟨"user", by decide⟩ lampFeature ⟨.read, .empty⟩) ∧
      (Enforcer.ofPolicy Enforcer.groupedPolicy).hasPermission lampUser lampFeature .read = false ∧
      (Enforcer.ofPolicy (Enforcer.groupedPolicy.setResource ⟨"user", by decide⟩ lampFeature
        ⟨.read, .empty⟩)).hasPermission lampUser lampFeature .read = true) ∧
    (Enforcer.groupedPolicy.resource? ⟨"user", by decide⟩ (.thing .root) = some ⟨.read, .empty⟩ ∧
      (Enforcer.groupedPolicy.setResource ⟨"user", by decide⟩ (.thing .root)
        ⟨.read, .read⟩).AllowsNoMore Enforcer.groupedPolicy ∧
      (Enforcer.ofPolicy Enforcer.groupedPolicy).hasPermissionAtOrBelow lampUser (.thing .root)
        .read = true ∧
      (Enforcer.ofPolicy (Enforcer.groupedPolicy.setResource ⟨"user", by decide⟩ (.thing .root)
        ⟨.read, .read⟩)).hasPermissionAtOrBelow lampUser (.thing .root) .read = false) := by
  have habsent : Enforcer.groupedPolicy.effectsOn ⟨"user", by decide⟩ lampFeature = .empty := by
    decide
  have hgranted : Enforcer.groupedPolicy.effectsOn ⟨"user", by decide⟩ (.thing .root) =
      ⟨.read, .empty⟩ := by
    decide
  refine ⟨⟨by decide, ?_, by decide, by decide⟩, ⟨by decide, ?_, by decide, by decide⟩⟩
  · refine (decisions_monotone _ _ _ _).1 (fun p hp => ?_) (by decide)
    rw [habsent] at hp
    cases hp
  · refine (decisions_monotone _ _ _ _).2 (fun p hp => ?_) (by decide)
    rw [hgranted] at hp
    cases hp

end Policy

end GuardedThings
