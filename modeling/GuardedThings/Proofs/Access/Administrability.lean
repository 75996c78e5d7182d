import GuardedThings.Access.Administration
import GuardedThings.Proofs.Access.LongestPrefix
import Mathlib.Tactic.ByContra

/-!
# Administrators as time goes by

The rule about administrators looks at permanent memberships only, but at any
time the expiring memberships that are not over yet count as well. They may
grant more, and they may also revoke. So a policy can meet the rule and have,
for a while, nobody who holds the required permissions
(`isMet_not_sufficient`).

What decides is whether an administrator has a required permission suspended:
an expiring membership revokes it on some resource at or above the root, and no
grant that counts is longer (`Policy.SuspendedAt`). An administrator who has
none suspended holds all of them, and otherwise somebody else has to
(`AdminRule.administrable_iff`). Where expiring memberships revoke nothing that
matters, meeting the rule is enough at all times
(`AdminRule.administrable_of_no_expiring_revoke`).
-/

set_option autoImplicit false

namespace GuardedThings

namespace Subject

/-- Whether the subject counts at a time. -/
def countsAt (now : Timestamp) (s : Subject) : Bool := !s.isExpired now

/-- Whether the subject counts at a time, but not forever. -/
def countsForNow (now : Timestamp) (s : Subject) : Bool := !s.isPermanent && s.countsAt now

/-- What counts at a time is what never expires and what has not expired yet. -/
theorem countsAt_eq (now : Timestamp) (s : Subject) :
    s.countsAt now = (s.isPermanent || s.countsForNow now) := by
  unfold countsForNow countsAt isPermanent isExpired
  cases s.expiry with
  | none => rfl
  | some expiry => simp

end Subject

namespace Policy

variable {policy : Policy} {id : SubjectId} {key : ResourceKey} {p : Permission}
  {now : Timestamp}

/-- Where a membership counts in one of two ways, what a policy says is said by memberships that
count in the one way or in the other. -/
theorem gives_or_iff {counts one other : Subject → Bool} {on : ResourceKey} {effect : Effect}
    (h : ∀ s, counts s = (one s || other s)) :
    policy.Gives counts id on effect p ↔
      policy.Gives one id on effect p ∨ policy.Gives other id on effect p := by
  simp only [Gives, mem_statements_iff, h, Bool.or_eq_true]
  constructor
  · rintro ⟨e, ⟨l, body, subject, hl, hs, hcounts | hcounts, hk⟩, hgives⟩
    · exact .inl ⟨e, ⟨l, body, subject, hl, hs, hcounts, hk⟩, hgives⟩
    · exact .inr ⟨e, ⟨l, body, subject, hl, hs, hcounts, hk⟩, hgives⟩
  · rintro (⟨e, ⟨l, body, subject, hl, hs, hcounts, hk⟩, hgives⟩ |
      ⟨e, ⟨l, body, subject, hl, hs, hcounts, hk⟩, hgives⟩)
    · exact ⟨e, ⟨l, body, subject, hl, hs, .inl hcounts, hk⟩, hgives⟩
    · exact ⟨e, ⟨l, body, subject, hl, hs, .inr hcounts, hk⟩, hgives⟩

/-- What a policy says at a time is said by permanent memberships or by those that count for now. -/
theorem gives_countsAt_iff {on : ResourceKey} {effect : Effect} :
    policy.Gives (Subject.countsAt now) id on effect p ↔
      policy.Gives Subject.isPermanent id on effect p ∨
        policy.Gives (Subject.countsForNow now) id on effect p :=
  gives_or_iff (Subject.countsAt_eq now)

/-- What a policy says at all is said by memberships that count at a time or by expired ones. -/
theorem gives_all_iff {on : ResourceKey} {effect : Effect} :
    policy.Gives (fun _ => true) id on effect p ↔
      policy.Gives (Subject.countsAt now) id on effect p ∨
        policy.Gives (fun s => s.isExpired now) id on effect p :=
  gives_or_iff fun s => by rw [Subject.countsAt, Bool.not_or_self]

/-- What a policy says without its expired subjects is what it says at the time. -/
theorem gives_removeExpired_iff {on : ResourceKey} {effect : Effect} :
    (policy.removeExpired now).Gives (fun _ => true) id on effect p ↔
      policy.Gives (Subject.countsAt now) id on effect p := by
  simp only [Gives, mem_statements_iff]
  refine exists_congr fun e => and_congr_left fun _ => ?_
  simp only [removeExpired, Dict.get?_mapValues, Option.map_eq_some_iff]
  constructor
  · rintro ⟨l, _, subject, ⟨body, hl, rfl⟩, hs, -, hk⟩
    rw [Subjects.withoutExpired, Dict.get?_filter, Option.filter_eq_some_iff] at hs
    exact ⟨l, body, subject, hl, hs.1, hs.2, hk⟩
  · rintro ⟨l, body, subject, hl, hs, hcounts, hk⟩
    refine ⟨l, _, subject, ⟨body, hl, rfl⟩, ?_, trivial, hk⟩
    rw [Subjects.withoutExpired, Dict.get?_filter, Option.filter_eq_some_iff]
    exact ⟨hs, hcounts⟩

/-- Some resource at or above the key has the longest path of those that say something. -/
theorem exists_deepest {counts : Subject → Bool} {effect : Effect}
    (h : ∃ on : ResourceKey, on.covers key = true ∧ policy.Gives counts id on effect p) :
    ∃ on : ResourceKey, on.covers key = true ∧ policy.Gives counts id on effect p ∧
      ∀ other : ResourceKey, other.covers key = true → policy.Gives counts id other effect p →
        other.path.level ≤ on.path.level := by
  obtain ⟨on, hon⟩ := h
  obtain ⟨e, hmem⟩ := exists_relevant_iff.mpr hon
  cases hdeepest : Statement.deepest? (policy.statements counts id) key effect p with
  | none =>
    rw [Statement.deepest?_eq_none_iff] at hdeepest
    rw [hdeepest] at hmem
    cases hmem
  | some n =>
    obtain ⟨⟨⟨deepest, e'⟩, hdeep, rfl⟩, hmax⟩ :=
      (Statement.deepest?_eq_some_iff _ _ _ _ _).mp hdeepest
    obtain ⟨hcovers, hgives⟩ := exists_relevant_iff.mp ⟨e', hdeep⟩
    refine ⟨deepest, hcovers, hgives, fun other hother hothergives => ?_⟩
    obtain ⟨e'', hmem'⟩ := exists_relevant_iff.mpr ⟨hother, hothergives⟩
    exact hmax (other, e'') hmem'

/-! ## Suspended permissions -/

/-- A permission of a subject is suspended at a time if an expiring membership revokes it on a
resource at or above the key, and no membership grants it on a longer one. -/
def SuspendedAt (policy : Policy) (now : Timestamp) (id : SubjectId) (key : ResourceKey)
    (p : Permission) : Prop :=
  ∃ r : ResourceKey, r.covers key = true ∧
    policy.Gives (Subject.countsForNow now) id r .revoked p ∧
      ∀ g : ResourceKey, g.covers key = true →
        policy.Gives (Subject.countsAt now) id g .granted p → g.path.level ≤ r.path.level

/-- Who is granted a permission permanently is granted it at a time iff it is not suspended. -/
theorem grantsByLongestPrefix_countsAt_iff
    (h : policy.grantsByLongestPrefix Subject.isPermanent id key p = true) :
    policy.grantsByLongestPrefix (Subject.countsAt now) id key p = true ↔
      ¬ policy.SuspendedAt now id key p := by
  rw [grantsByLongestPrefix_iff] at h ⊢
  obtain ⟨permanent, hpermanent, hgrants, hpermanentall⟩ := h
  constructor
  · rintro ⟨g, hg, hgives, hall⟩ ⟨r, hr, hrevokes, hlongest⟩
    have hlt : r.path.level < g.path.level :=
      hall r hr (gives_countsAt_iff.mpr (.inr hrevokes))
    have hle : g.path.level ≤ r.path.level := hlongest g hg hgives
    omega
  · intro hsuspended
    -- The longest grant at the time outdoes every revoke, permanent or not.
    have hgrantsnow : policy.Gives (Subject.countsAt now) id permanent .granted p :=
      gives_countsAt_iff.mpr (.inl hgrants)
    obtain ⟨g, hg, hgives, hmax⟩ := exists_deepest ⟨permanent, hpermanent, hgrantsnow⟩
    refine ⟨g, hg, hgives, fun r hr hrevokes => ?_⟩
    rcases gives_countsAt_iff.mp hrevokes with hpermanently | hfornow
    · have hlt : r.path.level < permanent.path.level := hpermanentall r hr hpermanently
      have hle : permanent.path.level ≤ g.path.level :=
        hmax permanent hpermanent hgrantsnow
      omega
    · by_contra hnot
      refine hsuspended ⟨r, hr, hfornow, fun g' hg' hgives' => ?_⟩
      have hle : g'.path.level ≤ g.path.level := hmax g' hg' hgives'
      omega

end Policy

/-! ## The rule at a time -/

namespace Enforcer

/-- The subjects that hold permissions at a time are those to whom the longest prefix rule grants
them by the memberships that count then. -/
theorem contains_subjectsWith_asOf_iff (policy : Policy) (now : Timestamp) (key : ResourceKey)
    (permissions : Permissions) (id : SubjectId) :
    ((asOf policy now).subjectsWith key permissions).contains id = true ↔
      permissions.isEmpty = false ∧ ∀ p, permissions.contains p = true →
        policy.grantsByLongestPrefix (Subject.countsAt now) id key p = true := by
  unfold asOf ofPolicy
  rw [contains_subjectsWith_build_iff]
  simp only [Policy.grantsByLongestPrefix_iff, Policy.gives_removeExpired_iff]

end Enforcer

namespace AdminRule

/-- The administrators are the subjects to whom the longest prefix rule grants all that is required
by their permanent memberships. -/
theorem contains_administrators_iff (rule : AdminRule) (policy : Policy) (id : SubjectId) :
    (rule.administrators policy).contains id = true ↔
      rule.requiredPermissions.isEmpty = false ∧
        ∀ p, rule.requiredPermissions.contains p = true →
          policy.grantsByLongestPrefix Subject.isPermanent id rule.rootResource p = true :=
  Enforcer.contains_subjectsWith_build_iff _ policy _ _ id

/-- A rule is met iff there is an administrator. -/
theorem isMet_iff (rule : AdminRule) (policy : Policy) :
    rule.isMet policy = true ↔ ∃ id, (rule.administrators policy).contains id = true := by
  unfold isMet
  rw [Bool.not_eq_true', KeySet.isEmpty_eq_false_iff]

/-- An administrator holds what is required at a time iff none of it is suspended then. -/
theorem administrator_holds_iff {rule : AdminRule} {policy : Policy} {id : SubjectId}
    (now : Timestamp) (h : (rule.administrators policy).contains id = true) :
    ((Enforcer.asOf policy now).subjectsWith rule.rootResource
        rule.requiredPermissions).contains id = true ↔
      ∀ p, rule.requiredPermissions.contains p = true →
        ¬ policy.SuspendedAt now id rule.rootResource p := by
  obtain ⟨hrequired, hgranted⟩ := (rule.contains_administrators_iff policy id).mp h
  rw [Enforcer.contains_subjectsWith_asOf_iff]
  constructor
  · rintro ⟨_, hall⟩ p hp
    exact (Policy.grantsByLongestPrefix_countsAt_iff (hgranted p hp)).mp (hall p hp)
  · intro hnone
    refine ⟨hrequired, fun p hp => ?_⟩
    exact (Policy.grantsByLongestPrefix_countsAt_iff (hgranted p hp)).mpr (hnone p hp)

/-- Where no expiring membership revokes a required permission on a resource at or above the root,
a policy that meets the rule has a holder of the required permissions at every time. -/
theorem administrable_of_no_expiring_revoke (rule : AdminRule) (policy : Policy) (now : Timestamp)
    (hmet : rule.isMet policy = true)
    (hrevokes : ∀ (id : SubjectId) (on : ResourceKey) (p : Permission),
      rule.requiredPermissions.contains p = true → on.covers rule.rootResource = true →
        ¬ policy.Gives (Subject.countsForNow now) id on .revoked p) :
    ((Enforcer.asOf policy now).subjectsWith rule.rootResource
      rule.requiredPermissions).isEmpty = false := by
  obtain ⟨id, hadmin⟩ := (rule.isMet_iff policy).mp hmet
  refine (KeySet.isEmpty_eq_false_iff _).mpr ⟨id, (administrator_holds_iff now hadmin).mpr ?_⟩
  rintro p hp ⟨r, hr, hrevoked, -⟩
  exact hrevokes id r p hp hr hrevoked

/-- A policy that meets the rule has a holder of the required permissions at a time iff one of its
administrators has none of them suspended then, or somebody who is no administrator is granted all
of them by the memberships that count then. -/
theorem administrable_iff (rule : AdminRule) (policy : Policy) (now : Timestamp)
    (hmet : rule.isMet policy = true) :
    ((Enforcer.asOf policy now).subjectsWith rule.rootResource
        rule.requiredPermissions).isEmpty = false ↔
      (∃ id, (rule.administrators policy).contains id = true ∧
        ∀ p, rule.requiredPermissions.contains p = true →
          ¬ policy.SuspendedAt now id rule.rootResource p) ∨
      (∃ id, (rule.administrators policy).contains id = false ∧
        ∀ p, rule.requiredPermissions.contains p = true →
          policy.grantsByLongestPrefix (Subject.countsAt now) id rule.rootResource p = true) := by
  rw [KeySet.isEmpty_eq_false_iff]
  constructor
  · rintro ⟨id, hholds⟩
    cases hadmin : (rule.administrators policy).contains id with
    | true => exact .inl ⟨id, hadmin, (administrator_holds_iff now hadmin).mp hholds⟩
    | false =>
      exact .inr ⟨id, hadmin, ((Enforcer.contains_subjectsWith_asOf_iff _ _ _ _ _).mp hholds).2⟩
  · rintro (⟨id, hadmin, hnone⟩ | ⟨id, _, hgranted⟩)
    · exact ⟨id, (administrator_holds_iff now hadmin).mpr hnone⟩
    · obtain ⟨admin, hadmin⟩ := (rule.isMet_iff policy).mp hmet
      have hrequired := ((rule.contains_administrators_iff policy admin).mp hadmin).1
      exact ⟨id, (Enforcer.contains_subjectsWith_asOf_iff _ _ _ _ _).mpr ⟨hrequired, hgranted⟩⟩

/-- A policy whose only administrator is also a guest: an entry that expires revokes what the
permanent one grants. -/
def guestAdministrator : Policy :=
  ((Policy.new ⟨"org.example:p", by decide⟩).setEntry
    { label := ⟨"admin", by decide⟩
      body := ⟨Dict.empty.insert ⟨"s:admin", by decide⟩ ⟨"generated", none⟩,
        Dict.empty.insert (.policy .root) ⟨.write, .empty⟩⟩ }).setEntry
    { label := ⟨"guest", by decide⟩
      body := ⟨Dict.empty.insert ⟨"s:admin", by decide⟩ ⟨"generated", some ⟨1000⟩⟩,
        Dict.empty.insert (.policy .root) ⟨.empty, .write⟩⟩ }

/-- Before the guest entry expires nobody has a required permission that is not suspended; once it
has expired somebody does. -/
theorem administrable_iff_guestAdministrator :
    standard.isMet guestAdministrator = true ∧
      (¬ ∃ id, (standard.administrators guestAdministrator).contains id = true ∧
        ∀ p, standard.requiredPermissions.contains p = true →
          ¬ guestAdministrator.SuspendedAt ⟨999⟩ id standard.rootResource p) ∧
      ((Enforcer.asOf guestAdministrator ⟨1000⟩).subjectsWith standard.rootResource
        standard.requiredPermissions).isEmpty = false := by
  have hmet : standard.isMet guestAdministrator = true := by decide
  refine ⟨hmet, fun hadmin => ?_, by decide⟩
  have hsome := (administrable_iff standard guestAdministrator ⟨999⟩ hmet).mpr (.inl hadmin)
  exact absurd hsome (by decide)

/-- Meeting the rule is not enough: the policy meets it and nobody holds what is required. -/
theorem isMet_not_sufficient :
    standard.isMet guestAdministrator = true ∧
      ((Enforcer.asOf guestAdministrator ⟨0⟩).subjectsWith standard.rootResource
        standard.requiredPermissions).isEmpty = true := by
  decide

end AdminRule

end GuardedThings
