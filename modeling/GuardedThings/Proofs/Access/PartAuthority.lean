import GuardedThings.Proofs.Access.VisibleAuthorized
import GuardedThings.Proofs.Policy.PartAddresses
import GuardedThings.Proofs.Thing.PartAddresses

/-!
# Authority over parts

A command is authorized by the resource that protects the part it addresses. The
keys of these resources are faithful to the parts (`PolicyPart.faithful`,
`ThingPart.faithful`): no two parts share a key or its text, so what is granted
on one part is never taken for another.

A change needs unrestricted write access to the resource. Who has it has it for
every key below, subject by subject (`Enforcer.hasUnrestrictedPermission_of_covers`),
and the keys of the parts inside a part lie below the key of the part
(`Spelled.covers_of_inside`). So who may change a part may change the parts
inside.
-/

set_option autoImplicit false

namespace GuardedThings

/-- Where one cache's enforcer lets a change through, the other's lets changes below through. -/
theorem EnforcerCache.AnswersAlike.permits_below {cache cache' : EnforcerCache} {policy : Policy}
    {caller : Caller} {now : Timestamp} {key below : ResourceKey}
    (alike : AnswersAlike policy now cache cache') (hcovers : key.covers below = true)
    (h : ∃ e, (cache.getOrBuild policy now).1 = some e ∧ e.permits false caller key = true) :
    ∃ e, (cache'.getOrBuild policy now).1 = some e ∧ e.permits false caller below = true := by
  obtain ⟨e, hanswer, hpermits⟩ := h
  obtain ⟨hsame, built, t, rfl⟩ := alike.answer hanswer
  have hheld : (Enforcer.asOf built t).hasUnrestrictedPermission caller key .write = true :=
    hpermits
  exact ⟨_, hsame, Enforcer.hasUnrestrictedPermission_of_covers hheld hcovers⟩

/-- Two commands to policies, and two commands to things whose pointers are not the root, have the
same resource key, and the same text of it, exactly if they address the same part, and the key of
one extends that of the other exactly if the part of the one is inside that of the other. So whoever
may change a part of an entity with an active policy may change every part inside it, where the two
decisions rest on caches that answer alike: on one history of lookups, up to how often this policy
was looked up last at this time, or on coherent histories. -/
theorem part_addresses_faithful_and_closed :
    (∀ c c' : PolicyCommand,
      Faithful PolicyPart.holder? PolicyPart.resourceKey c.request.part c'.request.part) ∧
    (∀ c c' : ThingCommand, c.request.part.isMisplaced = false →
      c'.request.part.isMisplaced = false →
        Faithful ThingPart.holder? ThingPart.resourceKey c.request.part c'.request.part) ∧
    ∀ (policy : Policy) (caller : Caller) (now : Timestamp) (cache cache' : EnforcerCache),
      policy.isDeleted = false → EnforcerCache.AnswersAlike policy now cache cache' →
        (∀ c c' : PolicyCommand, c.request.isQuery = false → c'.request.isQuery = false →
          Inside PolicyPart.holder? c.request.part c'.request.part →
            (PolicyGuard.authorize cache c (some policy) caller now).1 = .ok () →
              (PolicyGuard.authorize cache' c' (some policy) caller now).1 = .ok ()) ∧
        (∀ c c' : ThingCommand, c.request.isQuery = false → c'.request.isQuery = false →
          Inside ThingPart.holder? c.request.part c'.request.part →
            (ThingGuard.authorize cache c (some policy) caller now).1 = .ok () →
              (ThingGuard.authorize cache' c' (some policy) caller now).1 = .ok ()) := by
  refine ⟨fun c c' => PolicyPart.faithful _ _, fun c c' => ThingPart.faithful, ?_⟩
  intro policy caller now cache cache' hlive alike
  constructor
  · intro c c' hchange hchange' inside hauthorized
    rw [PolicyGuard.authorize_eq_ok_iff hlive, hchange] at hauthorized
    rw [PolicyGuard.authorize_eq_ok_iff hlive, hchange']
    exact alike.permits_below (PolicyPart.covers_of_inside inside) hauthorized
  · intro c c' hchange hchange' inside hauthorized
    rw [ThingGuard.authorize_eq_ok_iff, hchange] at hauthorized
    rw [ThingGuard.authorize_eq_ok_iff, hchange']
    exact alike.permits_below (ThingPart.covers_of_inside inside) hauthorized

/-! ## Running a mill -/

/-- The label of the only entry. -/
def millers : Label := ⟨"millers", by decide⟩

/-- The wheel of the mill. -/
def wheel : FeatureId := ⟨"wheel", by decide⟩

/-- A policy by which the miller may write who the millers are, and what the wheel should do. -/
def millPolicy : Policy :=
  (Policy.new ⟨"org.example:mill", by decide⟩).setEntry
    { label := millers
      body := ⟨Dict.empty.insert ⟨"nginx:miller", by decide⟩ ⟨"generated", none⟩,
        (Dict.empty.insert (PolicyPart.subjects millers).resourceKey ⟨.write, .empty⟩).insert
          (ThingPart.properties .desired wheel).resourceKey ⟨.write, .empty⟩⟩ }

/-- The caller whom the policy names. -/
def miller : Caller := .single ⟨"nginx:miller", by decide⟩

/-- The miller may clear the list of millers and let go of the wheel, and so may enlist an
apprentice and set a single property of the wheel, whose name has a slash in it. That property is
not the one that two names lead to. -/
theorem part_addresses_faithful_and_closed_miller :
    let clear : PolicyCommand := ⟨millPolicy.id, .empty, .replaceGroup (.subjects millers .empty)⟩
    let apprentice : SubjectId := ⟨"nginx:mill/apprentice", by decide⟩
    let enlist : PolicyCommand :=
      ⟨millPolicy.id, .empty, .write (.subject millers apprentice ⟨"generated", none⟩)⟩
    let mill : ThingId := ⟨"org.example:mill", by decide⟩
    let release : ThingCommand := ⟨mill, .empty, .remove (.properties .desired wheel)⟩
    let turn (pointer : Pointer) : ThingCommand :=
      ⟨mill, .empty, .write (.property .desired wheel pointer (.integer 12))⟩
    let cleared := PolicyGuard.authorize (.new .standard) clear (some millPolicy) miller ⟨0⟩
    let released := ThingGuard.authorize (.new .standard) release (some millPolicy) miller ⟨0⟩
    cleared.1 = .ok () ∧ released.1 = .ok () ∧
      (PolicyGuard.authorize cleared.2 enlist (some millPolicy) miller ⟨0⟩).1 = .ok () ∧
      (ThingGuard.authorize released.2 (turn (.ofSegments ["turns/min"])) (some millPolicy)
        miller ⟨0⟩).1 = .ok () ∧
      enlist.request.part.resourceKey.text =
        "policy:/entries/millers/subjects/nginx:mill~1apprentice" ∧
      (turn (.ofSegments ["turns/min"])).request.part.resourceKey.text ≠
        (turn (.ofSegments ["turns", "min"])).request.part.resourceKey.text := by
  intro clear apprentice enlist mill release turn cleared released
  have alike : EnforcerCache.AnswersAlike millPolicy ⟨0⟩ (.new .standard)
      ((EnforcerCache.new .standard).getOrBuild millPolicy ⟨0⟩).2 :=
    .repeated .standard [] 0 1
  obtain ⟨-, faithful, closed⟩ := part_addresses_faithful_and_closed
  obtain ⟨closed, closed'⟩ := closed millPolicy miller ⟨0⟩ _ _ rfl alike
  have hcleared : cleared.1 = .ok () := rfl
  have hreleased : released.1 = .ok () := rfl
  have apart := faithful (turn (.ofSegments ["turns/min"])) (turn (.ofSegments ["turns", "min"]))
    rfl rfl
  refine ⟨hcleared, hreleased, closed clear enlist rfl rfl (.held rfl .self) hcleared,
    closed' release _ rfl rfl (.held rfl .self) hreleased, by decide +kernel, ?_⟩
  rw [ne_eq, apart.text_eq_iff]
  decide

end GuardedThings
