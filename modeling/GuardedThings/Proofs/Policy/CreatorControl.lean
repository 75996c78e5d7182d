import GuardedThings.Policy.Guard
import GuardedThings.Proofs.Access.CacheTransparency
import GuardedThings.Proofs.Access.Subtree
import GuardedThings.Proofs.Policy.Adjustment
import GuardedThings.Proofs.Policy.StandingAdministrator

/-!
# Creators and the policies they create

Who creates a policy has to be granted write access to all of it by the policy
itself. The guard reads this off the proposed document without the memberships
that are over; what is stored has their expiries rounded up, and rounding can
bring a membership back. A membership that is back may revoke, so a creator
whom the guard lets through can be shut out by the very command
(`revived_guest_shuts_creator_out`).

Write access to everything comes down to two conditions on a subject: some
membership grants it on the root, and none revokes it anywhere in the policy
(`Enforcer.hasUnrestrictedPermission_root_iff`). The guard asks this of the
memberships that count (`PolicyGuard.authorize_creation_iff`), and the stored
policy answers for all of them (`Setting.gives_adjustPolicy_iff`). So the creator
is in control exactly if some subject of the caller meets both conditions by all
memberships proposed, whether over or not, and always if no membership that is
over revokes (`creator_in_control_iff`).
-/

set_option autoImplicit false

namespace GuardedThings

/-! ## Write access to everything -/

namespace Policy

/-- The subject is granted write access to the root of the policy, and nothing revokes it on any
part of the policy. -/
def InControl (counts : Subject → Bool) (policy : Policy) (id : SubjectId) : Prop :=
  policy.Gives counts id (.policy .root) .granted .write ∧
    ∀ on : ResourceKey, on.type = "policy" → ¬ policy.Gives counts id on .revoked .write

/-- The root of policies covers all keys of policies and no others. -/
theorem root_covers_iff (on : ResourceKey) :
    (ResourceKey.policy .root).covers on = true ↔ on.type = "policy" := by
  rw [ResourceKey.covers_iff]
  constructor
  · rintro ⟨htype, -⟩
    exact htype.symm
  · intro htype
    exact ⟨htype.symm, List.nil_prefix⟩

/-- Only the root of policies covers the root of policies. -/
theorem eq_root_of_covers {on : ResourceKey} (h : on.covers (.policy .root) = true) :
    on = .policy .root := by
  obtain ⟨htype, hpath⟩ := (ResourceKey.covers_iff _ _).mp h
  obtain ⟨_, ⟨segments, _⟩, _⟩ := on
  cases htype
  cases List.prefix_nil.mp hpath
  rfl

/-- The longest prefix rule grants write access to all parts of a policy iff the subject is in
control: a revoke anywhere decides at its own place, where no grant is longer. -/
theorem inControl_iff (counts : Subject → Bool) (policy : Policy) (id : SubjectId) :
    policy.InControl counts id ↔
      ∀ key : ResourceKey, (ResourceKey.policy .root).covers key = true →
        policy.grantsByLongestPrefix counts id key .write = true := by
  simp only [grantsByLongestPrefix_iff]
  constructor
  · rintro ⟨hgranted, hrevoked⟩ key hkey
    refine ⟨.policy .root, hkey, hgranted, fun r hr hgives => ?_⟩
    obtain ⟨htype, -⟩ := (ResourceKey.covers_iff _ _).mp hr
    exact absurd hgives (hrevoked r (htype.trans ((root_covers_iff key).mp hkey)))
  · intro hall
    constructor
    · obtain ⟨g, hg, hgives, -⟩ := hall (.policy .root) ((root_covers_iff _).mpr rfl)
      rwa [eq_root_of_covers hg] at hgives
    · intro on htype hrevoked
      obtain ⟨g, hg, -, hlonger⟩ := hall on ((root_covers_iff on).mpr htype)
      have hself : on.covers on = true :=
        (ResourceKey.covers_iff _ _).mpr ⟨rfl, List.prefix_refl _⟩
      have hlt : on.path.level < g.path.level := hlonger on hself hrevoked
      have hle : g.path.level ≤ on.path.level :=
        ((ResourceKey.covers_iff _ _).mp hg).2.length_le
      omega

/-- What the guard asks about is what counts at the time. -/
theorem inControl_removeExpired_iff (policy : Policy) (now : Timestamp) (id : SubjectId) :
    (policy.removeExpired now).InControl (fun _ => true) id ↔
      policy.InControl (Subject.countsAt now) id := by
  simp only [InControl, gives_removeExpired_iff]

end Policy

namespace Enforcer

/-- A caller has write access to a whole policy iff one of its subjects is in control. -/
theorem hasUnrestrictedPermission_root_iff (counts : Subject → Bool) (policy : Policy)
    (caller : Caller) :
    (build counts policy).hasUnrestrictedPermission caller (.policy .root) .write = true ↔
      ∃ id, caller.ids.contains id = true ∧ policy.InControl counts id := by
  have hthroughout : ∀ id,
      ((build counts policy).tree id "policy").grantsThroughout .write [] = true ↔
        policy.InControl counts id := by
    intro id
    rw [(wellFormed_tree_build counts policy id _).grantsThroughout_iff, Policy.inControl_iff]
    constructor
    · intro hall key hkey
      obtain ⟨rest, hrest, rfl⟩ := (ResourceKey.covers_iff_extend _ _).mp hkey
      exact (grants_tree_iff counts policy id _ .write).mp (hall rest hrest)
    · intro hall rest hrest
      exact (grants_tree_iff counts policy id ((ResourceKey.policy .root).extend rest hrest)
        .write).mpr (hall _ ((ResourceKey.covers_iff_extend _ _).mpr ⟨rest, hrest, rfl⟩))
  unfold hasUnrestrictedPermission
  rw [decide_iff _ AccessTree.grantsThroughout_empty]
  constructor
  · rintro ⟨-, hall⟩
    obtain ⟨id, hid, hgrants⟩ := hall .write (by decide)
    exact ⟨id, hid, (hthroughout id).mp hgrants⟩
  · rintro ⟨id, hid, hcontrol⟩
    refine ⟨by decide, fun p hp => ?_⟩
    have hwrite : p = .write := by simpa [Permissions.write] using hp
    subst hwrite
    exact ⟨id, hid, (hthroughout id).mpr hcontrol⟩

/-- At a time this is decided by the memberships that count then. -/
theorem hasUnrestrictedPermission_asOf_root_iff (policy : Policy) (now : Timestamp)
    (caller : Caller) :
    (asOf policy now).hasUnrestrictedPermission caller (.policy .root) .write = true ↔
      ∃ id, caller.ids.contains id = true ∧ policy.InControl (Subject.countsAt now) id := by
  unfold asOf ofPolicy
  rw [hasUnrestrictedPermission_root_iff]
  simp only [Policy.inControl_removeExpired_iff]

end Enforcer

/-! ## The guard of a creation -/

namespace PolicyGuard

variable {cache : EnforcerCache} {c : PolicyCommand} {policy : Option Policy} {caller : Caller}
  {now : Timestamp} {proposed : Policy}

/-- There is no enforcer for a policy that does not exist or was deleted. -/
theorem enforcer?_eq_none (hnone : Aggregate.active? policy = none) :
    (enforcer? cache policy now).1 = none := by
  cases policy with
  | none => rfl
  | some p =>
    have hinactive : ¬ p.book.lifecycle.isActive = true :=
      Option.filter_eq_none_iff.mp hnone p rfl
    refine (EnforcerCache.getOrBuild_eq_none_iff cache p now).mpr ?_
    unfold Policy.isDeleted
    cases hlifecycle : p.book.lifecycle with
    | active => exact absurd (by rw [hlifecycle]; rfl) hinactive
    | deleted => rfl

/-- A creation is authorized iff the proposed policy, without the memberships that are over, grants
the caller write access to all of it. -/
theorem authorize_creation_iff
    (hasked : c.request = .create proposed ∨ c.request = .replace proposed)
    (hnone : Aggregate.active? policy = none) :
    (authorize cache c policy caller now).1 = .ok () ↔
      (Enforcer.asOf proposed now).hasUnrestrictedPermission caller (.policy .root) .write =
        true := by
  have hproposed : proposed? c.request = some proposed := by
    rcases hasked with hasked | hasked
    · rw [hasked]; rfl
    · rw [hasked]; rfl
  have hpermits : (Enforcer.asOf proposed now).permits c.request.isQuery caller
      c.request.part.resourceKey =
        (Enforcer.asOf proposed now).hasUnrestrictedPermission caller (.policy .root) .write := by
    rcases hasked with hasked | hasked
    · rw [hasked]; rfl
    · rw [hasked]; rfl
  rw [← hpermits]
  unfold authorize
  simp only [enforcer?_eq_none hnone, hproposed, Option.map_some, Option.none_or]
  split
  · rename_i hpermitted
    exact ⟨fun _ => hpermitted, fun _ => rfl⟩
  · rename_i hdenied
    exact ⟨nofun, fun hpermitted => absurd hpermitted hdenied⟩

end PolicyGuard

/-! ## The stored policy -/

namespace PolicyRules

/-- The policy that a creation stores says at the time of the command what the proposed policy says
when all of its memberships count. -/
theorem inControl_stored_iff {config : PolicyConfig} {now : Timestamp} {policy : Option Policy}
    {revision : Revision} {c : PolicyCommand} {proposed stored : Policy}
    {event : Event .policy PolicyChange} {response : Response} {created deleted : Bool}
    (hasked : c.request = .create proposed ∨ c.request = .replace proposed)
    (hnone : Aggregate.active? policy = none)
    (hdecided : (policyRules config).decide now policy revision c =
      .mutation event response created deleted)
    (happlied : Aggregate.apply event policy = .ok stored) (id : SubjectId) :
    stored.InControl (Subject.countsAt now) id ↔ proposed.InControl (fun _ => true) id := by
  obtain ⟨change, rfl, haccepts⟩ := decide_mutation hdecided
  rw [hnone] at haccepts
  cases haccepts with
  | created proposed' p asked adjusted fits administered =>
    have hsame : proposed' = proposed := by
      rcases hasked with hasked | hasked
      · rcases asked with asked | asked
        · exact PolicyRequest.create.inj (asked.symm.trans hasked)
        · cases asked.symm.trans hasked
      · rcases asked with asked | asked
        · cases asked.symm.trans hasked
        · exact PolicyRequest.replace.inj (asked.symm.trans hasked)
    subst hsame
    rcases Policy.apply_cases happlied with ⟨p', hchange, -, hentries⟩ | ⟨_, _, hsome, -, -, -⟩
    · cases hchange
      have hstored : ∀ on effect,
          stored.Gives (Subject.countsAt now) id on effect .write ↔
            p.Gives (Subject.countsAt now) id on effect .write := by
        intro on effect
        simp only [Policy.Gives, Policy.mem_statements_iff, hentries]
      simp only [Policy.InControl, hstored, Setting.gives_adjustPolicy_iff adjusted]
    · rw [hnone] at hsome
      cases hsome

/-- Who was authorized to create a policy has write access to all of the stored policy iff some
subject of the caller is in control by all memberships proposed, those included that were over and
are brought back by rounding. If no membership of the caller's that is over revokes write access on
a part of the policy, the caller is in control. -/
theorem creator_in_control_iff {config : PolicyConfig} {cache : EnforcerCache} {c : PolicyCommand}
    {policy : Option Policy} {caller : Caller} {now : Timestamp} {proposed : Policy}
    {event : Event .policy PolicyChange} {response : Response} {created deleted : Bool}
    (hasked : c.request = .create proposed ∨ c.request = .replace proposed)
    (hnone : Aggregate.active? policy = none)
    (hauthorized : (PolicyGuard.authorize cache c policy caller now).1 = .ok ())
    (hexecuted : (policyRules config).execute now policy c =
      .mutation event response created deleted) :
    ∃ stored, Aggregate.apply event policy = .ok stored ∧
      ((Enforcer.asOf stored now).hasUnrestrictedPermission caller (.policy .root) .write = true ↔
        ∃ id, caller.ids.contains id = true ∧ proposed.InControl (fun _ => true) id) ∧
      ((∀ (id : SubjectId) (on : ResourceKey), caller.ids.contains id = true →
          on.type = "policy" → ¬ proposed.Gives (fun s => s.isExpired now) id on .revoked .write) →
        (Enforcer.asOf stored now).hasUnrestrictedPermission caller (.policy .root) .write =
          true) := by
  obtain ⟨-, decided, stored, hdecided, happlied, -⟩ := CommandRules.execute_mutation hexecuted
  have hstored : (Enforcer.asOf stored now).hasUnrestrictedPermission caller (.policy .root)
      .write = true ↔
        ∃ id, caller.ids.contains id = true ∧ proposed.InControl (fun _ => true) id := by
    rw [Enforcer.hasUnrestrictedPermission_asOf_root_iff]
    simp only [inControl_stored_iff hasked hnone hdecided happlied]
  refine ⟨stored, happlied, hstored, fun hrevokes => hstored.mpr ?_⟩
  obtain ⟨id, hid, hgranted, hunrevoked⟩ :=
    (Enforcer.hasUnrestrictedPermission_asOf_root_iff _ _ _).mp
      ((PolicyGuard.authorize_creation_iff hasked hnone).mp hauthorized)
  refine ⟨id, hid, Policy.gives_all_iff.mpr (.inl hgranted), fun on htype hon => ?_⟩
  rcases Policy.gives_all_iff.mp hon with hcounts | hexpired
  · exact hunrevoked on htype hcounts
  · exact hrevokes id on hid htype hexpired

/-! ## A guest brought back -/

/-- A policy of a creator who was also a guest until 400; being a guest revokes write access on a
resource. -/
def guestUntil400 (key : ResourceKey) : Policy :=
  ((Policy.new ⟨"org.example:studio", by decide⟩).setEntry
    { label := ⟨"admins", by decide⟩
      body := ⟨Dict.empty.insert ⟨"s:creator", by decide⟩ ⟨"generated", none⟩,
        Dict.empty.insert (.policy .root) ⟨.write, .empty⟩⟩ }).setEntry
    { label := ⟨"guests", by decide⟩
      body := ⟨Dict.empty.insert ⟨"s:creator", by decide⟩ ⟨"generated", some ⟨400⟩⟩,
        Dict.empty.insert key ⟨.empty, .write⟩⟩ }

/-- Settings that round expiries up to full seconds. -/
def fullSeconds : PolicyConfig := { PolicyConfig.standard with expiryGranularity := 1000 }

/-- The command to create the policy. -/
def createGuestUntil400 (key : ResourceKey) : PolicyCommand :=
  ⟨⟨"org.example:studio", by decide⟩, .empty, .create (guestUntil400 key)⟩

/-- The creator. -/
def creator : Caller := .single ⟨"s:creator", by decide⟩

/-- The policy with the guest brought back until 1000, as its creation at 500 stores it. -/
def guestUntil1000 (key : ResourceKey) : Policy :=
  (guestUntil400 key).setSubject ⟨"guests", by decide⟩ ⟨"s:creator", by decide⟩
    ⟨"generated", some ⟨1000⟩⟩

/-- The event of creating the policy at 500. -/
def guestCreated (key : ResourceKey) : Event .policy PolicyChange :=
  (createGuestUntil400 key).event ⟨1⟩ ⟨500⟩ (.created (guestUntil1000 key))

/-- A guest who may not write to the thing is brought back, and the creator stays in control of the
policy. -/
theorem creator_in_control_iff_thingGuest :
    (PolicyGuard.authorize (.new .standard) (createGuestUntil400 (.thing .root)) none creator
        ⟨500⟩).1 = .ok () ∧
      (∃ response, (policyRules fullSeconds).execute ⟨500⟩ none
        (createGuestUntil400 (.thing .root)) =
          .mutation (guestCreated (.thing .root)) response true false) ∧
      (∀ (id : SubjectId) (on : ResourceKey), creator.ids.contains id = true →
        on.type = "policy" → ¬ (guestUntil400 (.thing .root)).Gives
          (fun s => s.isExpired ⟨500⟩) id on .revoked .write) ∧
      ∃ stored, Aggregate.apply (guestCreated (.thing .root)) none = .ok stored ∧
        (Enforcer.asOf stored ⟨500⟩).hasUnrestrictedPermission creator (.policy .root) .write =
          true := by
  have hauthorized : (PolicyGuard.authorize (.new .standard) (createGuestUntil400 (.thing .root))
      none creator ⟨500⟩).1 = .ok () :=
    (PolicyGuard.authorize_creation_iff (.inl rfl) rfl).mpr (by decide +kernel)
  have hdecided : (policyRules fullSeconds).decide ⟨500⟩ none ⟨1⟩
      (createGuestUntil400 (.thing .root)) =
        .mutation (guestCreated (.thing .root))
          (Setting.response ⟨fullSeconds, ⟨500⟩, ⟨1⟩, createGuestUntil400 (.thing .root)⟩ .created
            (some ({ guestUntil1000 (.thing .root) with
              book := { Bookkeeping.fresh with revision := ⟨1⟩ } } : Policy).toJson))
          true false := by
    decide +kernel
  have happlied : Aggregate.apply (guestCreated (.thing .root)) none =
      .ok { guestUntil1000 (.thing .root) with book := ⟨.active, ⟨1⟩, some ⟨500⟩, some ⟨500⟩⟩ } :=
    rfl
  have hexecuted := CommandRules.execute_eq_mutation rfl hdecided happlied
  have hrevokes : ∀ (id : SubjectId) (on : ResourceKey), creator.ids.contains id = true →
      on.type = "policy" → ¬ (guestUntil400 (.thing .root)).Gives
        (fun s => s.isExpired ⟨500⟩) id on .revoked .write := by
    rintro id on hid htype ⟨e, hmem, -⟩
    have hid : id = ⟨"s:creator", by decide⟩ := by simpa [creator, Caller.single] using hid
    subst hid
    have hstatements : (guestUntil400 (.thing .root)).statements (fun s => s.isExpired ⟨500⟩)
        ⟨"s:creator", by decide⟩ = [(.thing .root, ⟨.empty, .write⟩)] := by
      decide +kernel
    rw [hstatements, List.mem_singleton] at hmem
    cases hmem
    exact absurd htype (by decide)
  obtain ⟨stored, hstored, -, hcontrol⟩ :=
    creator_in_control_iff (.inl rfl) rfl hauthorized hexecuted
  exact ⟨hauthorized, ⟨_, hexecuted⟩, hrevokes, stored, hstored, hcontrol hrevokes⟩

/-- A guest who may not write to the policy is brought back, and the creator, whom the guard let
through, has no write access to the stored policy. -/
theorem revived_guest_shuts_creator_out :
    (PolicyGuard.authorize (.new .standard) (createGuestUntil400 (.policy .root)) none creator
        ⟨500⟩).1 = .ok () ∧
      (∃ response, (policyRules fullSeconds).execute ⟨500⟩ none
        (createGuestUntil400 (.policy .root)) =
          .mutation (guestCreated (.policy .root)) response true false) ∧
      ∃ stored, Aggregate.apply (guestCreated (.policy .root)) none = .ok stored ∧
        (Enforcer.asOf stored ⟨500⟩).hasUnrestrictedPermission creator (.policy .root) .write =
          false := by
  have hdecided : (policyRules fullSeconds).decide ⟨500⟩ none ⟨1⟩
      (createGuestUntil400 (.policy .root)) =
        .mutation (guestCreated (.policy .root))
          (Setting.response ⟨fullSeconds, ⟨500⟩, ⟨1⟩, createGuestUntil400 (.policy .root)⟩ .created
            (some ({ guestUntil1000 (.policy .root) with
              book := { Bookkeeping.fresh with revision := ⟨1⟩ } } : Policy).toJson))
          true false := by
    decide +kernel
  have happlied : Aggregate.apply (guestCreated (.policy .root)) none =
      .ok { guestUntil1000 (.policy .root) with book := ⟨.active, ⟨1⟩, some ⟨500⟩, some ⟨500⟩⟩ } :=
    rfl
  have hauthorized : (PolicyGuard.authorize (.new .standard)
      (createGuestUntil400 (.policy .root)) none creator ⟨500⟩).1 = .ok () :=
    (PolicyGuard.authorize_creation_iff (.inl rfl) rfl).mpr (by decide +kernel)
  exact ⟨hauthorized, ⟨_, CommandRules.execute_eq_mutation rfl hdecided happlied⟩, _, happlied,
    by decide +kernel⟩

end PolicyRules

end GuardedThings
