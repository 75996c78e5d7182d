import GuardedThings.Proofs.Aggregate.BookkeepingHistory
import GuardedThings.Proofs.Aggregate.TagCoherence
import GuardedThings.Proofs.Policy.DocumentEdits
import GuardedThings.Proofs.Thing.WriteConfinement

/-!
# The shape of outcomes

What a client can read off an outcome without knowing the entity. Only a request
that is no query ends in a mutation, and only a query in an answer. A mutation
that put something where nothing was shows it as created, any other mutation has
no content; its tag is missing iff the part was removed; and two flags tell
whether the entity begins or ends (`Addressing.OutcomeShape`).

The rules test by hand, for each request, whether something was there, and the
tag is looked up by another table. `Addressing.Marks` lists what a decided
mutation has to say, in terms of the document, and the shape follows from it once
for both kinds of entities (`Addressing.Governs.shapes`). Policies meet the list
in every state. Things meet it because they always have a policy: assigning one is
answered as the change of a part that was there.
-/

set_option autoImplicit false

namespace GuardedThings

/-- A response tells whether the addressed part was there: what is new is shown as created. -/
def Response.Tells (response : Response) (existed : Bool) : Prop :=
  if existed then response.status = .noContent ∧ response.entity = none
  else response.status = .created ∧ response.entity.isSome = true

/-- From a response that tells whether a part was there, it can be read off, either way. -/
theorem Response.tells_iff {response : Response} {existed : Bool} (h : response.Tells existed) :
    (response.status = .created ∧ response.entity.isSome = true ↔ existed = false) ∧
      (response.status = .noContent ∧ response.entity = none ↔ existed = true) := by
  cases existed with
  | true =>
    obtain ⟨hstatus, hentity⟩ : response.status = .noContent ∧ response.entity = none := h
    rw [hstatus, hentity]
    simp
  | false =>
    obtain ⟨hstatus, hentity⟩ : response.status = .created ∧ response.entity.isSome = true := h
    rw [hstatus, hentity]
    simp

variable {α γ ρ : Type} {kind : EntityKind} [Change γ] [Aggregate α kind γ]

/-! ## The shape -/

/-- What a mutation tells about the command, the part that it addresses, and the entity. -/
structure Addressing.MutationShape (A : Addressing ρ) (rules : CommandRules α kind γ ρ)
    (entity : Option α) (c : Command kind ρ) (event : Event kind γ) (response : Response)
    (created deleted : Bool) : Prop where
  modifies : rules.isQuery c.request = false
  new : response.status = .created ∧ response.entity.isSome = true ↔
    rules.currentTag entity c.request = none
  old : response.status = .noContent ∧ response.entity = none ↔
    rules.currentTag entity c.request ≠ none
  untagged : response.headers.etag = none ↔ A.isRemoval c.request = true
  begins : created = true ↔ Aggregate.active? entity = none
  ends : ∃ next, Aggregate.apply event entity = .ok next ∧
    (deleted = true ↔
      Aggregate.active? entity ≠ none ∧ (Aggregate.book next).lifecycle = .deleted)

/-- The outcomes that a command on an entity may have, but for the reasons of failures. -/
def Addressing.OutcomeShape (A : Addressing ρ) (rules : CommandRules α kind γ ρ) (entity : Option α)
    (c : Command kind ρ) : Outcome kind γ → Prop
  | .mutation event response created deleted =>
    A.MutationShape rules entity c event response created deleted
  | .query _ => rules.isQuery c.request = true
  | .failed _ => True

/-- The shape of an outcome that is a mutation. -/
theorem Addressing.OutcomeShape.exists_mutationShape {A : Addressing ρ}
    {rules : CommandRules α kind γ ρ} {entity : Option α} {c : Command kind ρ}
    {outcome : Outcome kind γ} (h : A.OutcomeShape rules entity c outcome)
    (hmutation : outcome.isMutation = true) :
    ∃ event response created deleted, outcome = .mutation event response created deleted ∧
      A.MutationShape rules entity c event response created deleted := by
  obtain ⟨event, response, created, deleted, rfl⟩ := Outcome.isMutation_iff.mp hmutation
  exact ⟨event, response, created, deleted, rfl, h⟩

/-- Whether something stands at the place that a request addresses in the active entity. -/
def Addressing.isThere (A : Addressing ρ) (entity : Option α) (r : ρ) : Bool :=
  (Aggregate.active? entity).any fun current =>
    ((A.place r).get? (Aggregate.toJson current)).isSome

/-- What the shape needs of a decided mutation. -/
structure Addressing.Marks (A : Addressing ρ) (rules : CommandRules α kind γ ρ)
    (life : LifeEvents) (entity : Option α) (c : Command kind ρ) (event : Event kind γ)
    (response : Response) (created deleted : Bool) : Prop where
  modifies : rules.isQuery c.request = false
  tells : response.Tells (A.isThere entity c.request)
  begins : created = Change.isCreation event.change
  ends : deleted = true ↔ Change.eventType event.change = life.deletion
  clears : A.isRemoval c.request = true → ∀ next, Aggregate.apply event entity = .ok next →
    Aggregate.isActive next = true → (A.place c.request).get? (Aggregate.toJson next) = none

namespace Addressing.Governs

variable {A : Addressing ρ} {rules : CommandRules α kind γ ρ}

/-- The tag of a part is missing iff nothing stands at its place. -/
theorem currentTag_eq_none_iff (h : A.Governs rules) (entity : Option α) (r : ρ) :
    rules.currentTag entity r = none ↔ A.isThere entity r = false := by
  unfold CommandRules.currentTag isThere
  cases Aggregate.active? entity with
  | none => simp
  | some current =>
    rw [Option.bind_some, h.tag_eq, Option.map_eq_none_iff, Option.any_some,
      Option.isSome_eq_false_iff, Option.isNone_iff_eq_none]

/-- After a mutation the addressed part has no tag iff the mutation removed it. -/
theorem currentTag_next_eq_none_iff (h : A.Governs rules) {life : LifeEvents} {now : Timestamp}
    {entity : Option α} {revision : Revision} {c : Command kind ρ} {event : Event kind γ}
    {response : Response} {created deleted : Bool} {next : α}
    (hdecided : rules.decide now entity revision c = .mutation event response created deleted)
    (hmarks : A.Marks rules life entity c event response created deleted)
    (happlied : Aggregate.apply event entity = .ok next) :
    rules.currentTag (some next) c.request = none ↔ A.isRemoval c.request = true := by
  constructor
  · intro hnone
    by_contra hkept
    obtain ⟨hactive, hsome⟩ :=
      h.keeps _ _ _ _ _ _ _ _ _ hdecided (eq_false_of_ne_true hkept) happlied
    have hlive : Aggregate.active? (some next) = some next :=
      Option.filter_eq_some_iff.mpr ⟨rfl, hactive⟩
    obtain ⟨content, hcontent⟩ := Option.isSome_iff_exists.mp hsome
    rw [h.currentTag_eq hlive hcontent] at hnone
    cases hnone
  · intro hremoval
    by_contra hsome
    obtain ⟨tag, htag⟩ := Option.ne_none_iff_exists'.mp hsome
    obtain ⟨current, content, hlive, hcontent, -⟩ := h.exists_of_currentTag htag
    obtain ⟨heq, hactive⟩ := Option.filter_eq_some_iff.mp hlive
    cases heq
    rw [hmarks.clears hremoval next happlied hactive] at hcontent
    cases hcontent

/-- Outcomes have their shape if decided mutations say what they have to. -/
theorem shapes [LawfulAggregate α] (h : A.Governs rules) {life : LifeEvents}
    (hkeeps : rules.KeepsBooks life) {entity : Option α}
    (hmarks : ∀ (now : Timestamp) (revision : Revision) (c : Command kind ρ) (event : Event kind γ)
      (response : Response) (created deleted : Bool),
      rules.decide now entity revision c = .mutation event response created deleted →
        A.Marks rules life entity c event response created deleted)
    (now : Timestamp) (c : Command kind ρ) :
    A.OutcomeShape rules entity c (rules.execute now entity c) := by
  cases hexecuted : rules.execute now entity c with
  | failed failure => trivial
  | query response => exact (h.of_execute_query hexecuted).1
  | mutation event response created deleted =>
    obtain ⟨-, decided, next, hdecided, happlied, rfl⟩ := CommandRules.execute_mutation hexecuted
    have hmark := hmarks _ _ _ _ _ _ _ hdecided
    have hmoves := hkeeps.moves hdecided happlied
    have hthere := h.currentTag_eq_none_iff entity c.request
    obtain ⟨hnew, hold⟩ := Response.tells_iff hmark.tells
    exact
      { modifies := hmark.modifies
        new := hnew.trans hthere.symm
        old := by rw [Ne, hthere, Bool.not_eq_false]; exact hold
        untagged := h.currentTag_next_eq_none_iff hdecided hmark happlied
        begins := by
          rw [hmark.begins]
          rcases Aggregate.apply_cases happlied with
            ⟨hcreation, hnone, -⟩ | ⟨hother, current, -, hsome, -⟩
          · rw [hcreation, hnone]
            simp
          · rw [hother, hsome]
            simp
        ends := by
          refine ⟨next, happlied, hmark.ends.trans ?_⟩
          rw [hmoves.ends]
          refine ⟨fun hdeletion => ⟨fun hnone => ?_, hdeletion⟩, And.right⟩
          -- An event that ends an entity is no creation, so it applies to an active one.
          rcases Aggregate.apply_cases happlied with
            ⟨hcreation, -, -⟩ | ⟨-, current, -, hsome, -⟩
          · have htype := (hkeeps.creation_iff event.change).mpr hcreation
            exact hkeeps.distinct (htype.symm.trans hdeletion)
          · rw [hnone] at hsome
            cases hsome }

end Addressing.Governs

/-! ## Policies -/

namespace PolicyPart

variable {p : Policy} {l : Label}

/-- A policy has the part of an entry iff it has the entry. -/
theorem isSome_get?_entry : ((entry l).get? p).isSome = p.entries.contains l := Option.isSome_map

variable {body : EntryBody} (h : p.entries.get? l = some body)

include h

/-- An entry that is there has a part for its subjects. -/
theorem isSome_get?_subjects : ((subjects l).get? p).isSome = true := by
  simp only [get?, h, Option.map_some, Option.isSome_some]

/-- An entry that is there has a part for its resources. -/
theorem isSome_get?_resources : ((resources l).get? p).isSome = true := by
  simp only [get?, h, Option.map_some, Option.isSome_some]

/-- An entry has the part of a subject iff it has the subject. -/
theorem isSome_get?_subject (id : SubjectId) :
    ((subject l id).get? p).isSome = body.subjects.contains id := by
  simp only [get?, Policy.subject?, h, Option.bind_some, Option.isSome_map]
  rfl

/-- An entry has the part of a resource iff it has the resource. -/
theorem isSome_get?_resource (key : ResourceKey) :
    ((resource l key).get? p).isSome = body.resources.contains key := by
  simp only [get?, Policy.resource?, h, Option.bind_some, Option.isSome_map]
  rfl

end PolicyPart

/-- The part of an item that is not the whole is not the whole either. -/
theorem PolicyItem.part_ne_whole {item : PolicyItem} (inside : item ≠ .whole) :
    item.part ≠ .whole := by
  cases item with
  | whole => exact absurd rfl inside
  | entry | subject | resource => exact nofun

/-- What is removed from a policy is no longer there. -/
theorem PolicyItem.get?_removeFrom {p : Policy} {item : PolicyItem} (inside : item ≠ .whole)
    (found : (item.part.get? p).isSome = true) : item.part.get? (item.removeFrom p) = none := by
  obtain ⟨removed, hremoved⟩ := PolicyItem.toJson_removeFrom inside found
  rw [PolicyPart.get?_eq_get?_place]
  exact Json.getPath?_removePath?_self hremoved

namespace PolicyRules

namespace Setting.Accepts

variable {s : Setting} {policy : Option Policy} {change : PolicyChange} {response : Response}
  {created deleted : Bool}

/-- No accepted request is a query. -/
theorem isQuery_eq_false (haccepts : s.Accepts policy change response created deleted) :
    s.command.request.isQuery = false := by
  cases haccepts with
  | created _ _ asked =>
    rcases asked with hasked | hasked
    · rw [hasked]
      rfl
    · rw [hasked]
      rfl
  | replaced _ _ _ asked | entriesReplaced _ _ _ _ asked | subjectsReplaced _ _ _ _ _ asked
  | resourcesReplaced _ _ _ _ asked | entryWritten _ _ _ asked
  | subjectWritten _ _ _ _ _ _ asked | resourceWritten _ _ _ _ _ asked | deleted _ asked
  | entryRemoved _ _ _ asked | subjectRemoved _ _ _ _ asked | resourceRemoved _ _ _ _ asked =>
    rw [asked]
    rfl

/-- A response tells what the hand-written tests have found, and they agree with what the addressed
part holds. -/
theorem tells (haccepts : s.Accepts policy change response created deleted) :
    response.Tells (policy.any fun p => (s.command.request.part.get? p).isSome) := by
  have hkept : ∀ {p : Policy} {part : PolicyPart}, (part.get? p).isSome = true →
      (s.response .noContent none).Tells ((some p).any fun p => (part.get? p).isSome) := by
    intro p part hsome
    rw [Option.any_some, hsome]
    exact ⟨rfl, rfl⟩
  have hput : ∀ {p : Policy} {part : PolicyPart} {existed : Bool} {piece : PolicyPiece},
      (part.get? p).isSome = existed →
        (s.putResponse existed piece).Tells ((some p).any fun p => (part.get? p).isSome) := by
    intro p part existed piece hsome
    rw [Option.any_some, hsome]
    cases existed with
    | true => exact ⟨rfl, rfl⟩
    | false => exact ⟨rfl, rfl⟩
  cases haccepts with
  | created => exact ⟨rfl, rfl⟩
  | replaced _ _ _ asked => rw [asked]; exact hkept rfl
  | entriesReplaced _ _ _ _ asked => rw [asked]; exact hkept rfl
  | subjectsReplaced _ _ _ _ _ asked found =>
    rw [asked]
    exact hkept (PolicyPart.isSome_get?_subjects found)
  | resourcesReplaced _ _ _ _ asked found =>
    rw [asked]
    exact hkept (PolicyPart.isSome_get?_resources found)
  | entryWritten _ _ _ asked adjusted =>
    rw [asked, label_of_adjustEntry adjusted]
    exact hput PolicyPart.isSome_get?_entry
  | subjectWritten _ _ _ id _ _ asked found =>
    rw [asked]
    exact hput (PolicyPart.isSome_get?_subject found id)
  | resourceWritten _ _ _ key _ asked found =>
    rw [asked]
    exact hput (PolicyPart.isSome_get?_resource found key)
  | deleted _ asked => rw [asked]; exact hkept rfl
  | entryRemoved _ _ _ asked found =>
    rw [asked]
    refine hkept (PolicyPart.isSome_get?_entry.trans ?_)
    exact Option.isSome_of_eq_some found
  | subjectRemoved _ _ _ id asked found named =>
    rw [asked]
    exact hkept ((PolicyPart.isSome_get?_subject found id).trans named)
  | resourceRemoved _ _ _ key asked found named =>
    rw [asked]
    exact hkept ((PolicyPart.isSome_get?_resource found key).trans named)

/-- The flags of an outcome tell of which kind the change is. -/
theorem flags (haccepts : s.Accepts policy change response created deleted) :
    created = Change.isCreation change ∧ (deleted = true ↔ change = .removed .whole) := by
  cases haccepts with
  | created | replaced | entriesReplaced | subjectsReplaced | resourcesReplaced | entryWritten
  | subjectWritten | resourceWritten | entryRemoved | subjectRemoved | resourceRemoved =>
    exact ⟨rfl, nofun, nofun⟩
  | deleted => exact ⟨rfl, fun _ => rfl, fun _ => rfl⟩

/-- A removal removes an item that is there. -/
theorem removed_of_isRemoval (haccepts : s.Accepts policy change response created deleted)
    (hremoval : PolicyRequest.addressing.isRemoval s.command.request = true) :
    ∃ p item, policy = some p ∧ s.command.request.part = item.part ∧ change = .removed item ∧
      (item.part.get? p).isSome = true := by
  cases haccepts with
  | created _ _ asked =>
    rcases asked with hasked | hasked
    · rw [hasked] at hremoval
      cases hremoval
    · rw [hasked] at hremoval
      cases hremoval
  | replaced _ _ _ asked | entriesReplaced _ _ _ _ asked | subjectsReplaced _ _ _ _ _ asked
  | resourcesReplaced _ _ _ _ asked | entryWritten _ _ _ asked
  | subjectWritten _ _ _ _ _ _ asked | resourceWritten _ _ _ _ _ asked =>
    rw [asked] at hremoval
    cases hremoval
  | deleted p asked =>
    rw [asked]
    exact ⟨p, .whole, rfl, rfl, rfl, rfl⟩
  | entryRemoved p _ l asked found =>
    rw [asked]
    refine ⟨p, .entry l, rfl, rfl, rfl, PolicyPart.isSome_get?_entry.trans ?_⟩
    exact Option.isSome_of_eq_some found
  | subjectRemoved p _ l id asked found named =>
    rw [asked]
    refine ⟨p, .subject l id, rfl, rfl, rfl, ?_⟩
    exact (PolicyPart.isSome_get?_subject found id).trans named
  | resourceRemoved p _ l key asked found named =>
    rw [asked]
    refine ⟨p, .resource l key, rfl, rfl, rfl, ?_⟩
    exact (PolicyPart.isSome_get?_resource found key).trans named

end Setting.Accepts

/-- What is decided about a policy says what the shape of outcomes needs, in every state. -/
theorem marks {config : PolicyConfig} {now : Timestamp} {policy : Option Policy}
    {revision : Revision} {c : PolicyCommand} {event : Event .policy PolicyChange}
    {response : Response} {created deleted : Bool}
    (h : decide config now policy revision c = .mutation event response created deleted) :
    PolicyRequest.addressing.Marks (policyRules config) PolicyChange.lifeEvents policy c event
      response created deleted := by
  obtain ⟨change, rfl, haccepts⟩ := decide_mutation h
  obtain ⟨hbegins, hends⟩ := haccepts.flags
  refine ⟨haccepts.isQuery_eq_false, ?_, hbegins, ?_, ?_⟩
  · have htells := haccepts.tells
    simp only [PolicyPart.get?_eq_get?_place] at htells
    exact htells
  · exact hends.trans (PolicyChange.eventType_eq_deletion_iff _).symm
  · intro hremoval next happlied hactive
    show c.request.part.place.get? next.toJson = none
    obtain ⟨current, item, hcurrent, hpart, rfl, found⟩ := haccepts.removed_of_isRemoval hremoval
    obtain ⟨modified, hmodified, rfl⟩ := Aggregate.modified_of_apply hcurrent happlied
    cases hmodified
    by_cases inside : item = .whole
    · -- The whole is still there, but it is not active.
      subst inside
      cases hactive
    · have hremoved := PolicyItem.get?_removeFrom inside found
      rw [← PolicyPart.get?_eq_get?_place, show c.request.part = item.part from hpart]
      exact (PolicyPart.get?_withBook _ _ (PolicyItem.part_ne_whole inside)).trans hremoved

end PolicyRules

/-! ## Things -/

/-- The part of an item that is not the whole is not the whole either. -/
theorem ThingItem.part_ne_whole {item : ThingItem} (inside : item ≠ .whole) :
    item.part ≠ .whole := by
  cases item with
  | whole => exact absurd rfl inside
  | definition | attributes | attributeAt | features | feature | properties | property =>
    exact nofun

/-- What is removed from a thing is no longer there. -/
theorem ThingItem.get?_place_removeFrom {t : Thing} {item : ThingItem} (inside : item ≠ .whole)
    (placed : item.part.isMisplaced = false) (found : (item.part.get? t).isSome = true) :
    item.part.place.get? (item.removeFrom t).toJson = none := by
  obtain ⟨removed, hremoved⟩ := ThingItem.toJson_removeFrom inside placed found
  exact Json.getPath?_removePath?_self hremoved

namespace ThingRules

namespace Setting.Accepts

variable {s : Setting} {thing : Option Thing} {change : ThingChange}

/-- The tests for what is there agree with what stands at the place of the addressed part, given
that a thing has a policy. -/
theorem tells (haccepts : s.Accepts thing change)
    (hpolicy : ∀ t, thing = some t → t.policyId.isSome = true) :
    (s.responseTo change).Tells
      (thing.any fun t => (s.command.request.part.place.get? t.toJson).isSome) := by
  cases haccepts with
  | created => exact ⟨rfl, rfl⟩
  | replaced t _ _ asked => rw [asked]; exact ⟨rfl, rfl⟩
  | policyAssigned t _ asked =>
    rw [asked]
    have hplace : ThingPart.policyId.place.get? t.toJson = t.policyId.map Wire.encode :=
      t.getPath?_toJson_policyId
    show Response.Tells _ (ThingPart.policyId.place.get? t.toJson).isSome
    rw [hplace, Option.isSome_map, hpolicy t rfl]
    exact ⟨rfl, rfl⟩
  | written t piece asked placed =>
    rw [asked]
    show Response.Tells _ (piece.part.place.get? t.toJson).isSome
    rw [← ThingPart.get?_eq_get?_place t piece.part placed]
    cases (piece.part.get? t).isSome with
    | true => exact ⟨rfl, rfl⟩
    | false => exact ⟨rfl, rfl⟩
  | deleted t asked => rw [asked]; exact ⟨rfl, rfl⟩
  | removed t item _ asked placed _ found =>
    rw [asked]
    show Response.Tells _ (item.part.place.get? t.toJson).isSome
    rw [← ThingPart.get?_eq_get?_place t item.part placed, found]
    exact ⟨rfl, rfl⟩

/-- A removal removes an item that is there. -/
theorem removed_of_isRemoval (haccepts : s.Accepts thing change)
    (hremoval : ThingRequest.addressing.isRemoval s.command.request = true) :
    ∃ t item, thing = some t ∧ s.command.request.part = item.part ∧ change = .removed item ∧
      item.part.isMisplaced = false ∧ (item.part.get? t).isSome = true := by
  cases haccepts with
  | created _ _ asked =>
    rcases asked with hasked | hasked
    · rw [hasked] at hremoval
      cases hremoval
    · rw [hasked] at hremoval
      cases hremoval
  | replaced _ _ _ asked | policyAssigned _ _ asked | written _ _ asked =>
    rw [asked] at hremoval
    cases hremoval
  | deleted t asked =>
    rw [asked]
    exact ⟨t, .whole, rfl, rfl, rfl, rfl, rfl⟩
  | removed t item _ asked placed _ found =>
    rw [asked]
    exact ⟨t, item, rfl, rfl, rfl, placed, found⟩

end Setting.Accepts

/-- What is decided about a thing with a policy says what the shape of outcomes needs. -/
theorem marks {config : ThingConfig} {now : Timestamp} {thing : Option Thing}
    {revision : Revision} {c : ThingCommand} {event : Event .thing ThingChange}
    {response : Response} {created deleted : Bool}
    (hpolicy : ∀ t, thing = some t → t.policyId.isSome = true)
    (h : decide config now thing revision c = .mutation event response created deleted) :
    ThingRequest.addressing.Marks (thingRules config) ThingChange.lifeEvents thing c event
      response created deleted := by
  obtain ⟨hresponse, hbegins, hends⟩ := tells_of_decide h
  obtain ⟨change, rfl, haccepts⟩ := decide_mutation h
  refine ⟨haccepts.isQuery_eq_false, ?_, hbegins, ?_, ?_⟩
  · rw [hresponse]
    refine haccepts.tells fun t ht => hpolicy t ?_
    exact (Option.filter_eq_some_iff.mp ht).1
  · exact hends.trans (ThingChange.eventType_eq_deletion_iff _).symm
  · intro hremoval next happlied hactive
    show c.request.part.place.get? next.toJson = none
    obtain ⟨current, item, hcurrent, hpart, rfl, placed, found⟩ :=
      haccepts.removed_of_isRemoval hremoval
    obtain ⟨modified, hmodified, rfl⟩ := Aggregate.modified_of_apply hcurrent happlied
    cases hmodified
    by_cases inside : item = .whole
    · subst inside
      cases hactive
    · rw [show c.request.part = item.part from hpart]
      exact (ThingPart.get?_place_withBook _ _ (ThingItem.part_ne_whole inside)).trans
        (ThingItem.get?_place_removeFrom inside placed found)

end ThingRules

/-! ## Policies and things -/

/-- Whatever was done to a policy or a thing before, the next command on it ends in an outcome of
the right shape, whatever the settings. -/
theorem outcomes_have_shape (policies : PolicyConfig) (things : ThingConfig) :
    (∀ (id : PolicyId) (steps : List (Timestamp × PolicyCommand)) (now : Timestamp)
      (c : PolicyCommand),
      let policy := ((AggregateRoot.new id).run (policyRules policies) steps).state
      PolicyRequest.addressing.OutcomeShape (policyRules policies) policy c
        ((policyRules policies).execute now policy c)) ∧
    ∀ (id : ThingId) (steps : List (Timestamp × ThingCommand)) (now : Timestamp)
      (c : ThingCommand),
      let thing := ((AggregateRoot.new id).run (thingRules things) steps).state
      ThingRequest.addressing.OutcomeShape (thingRules things) thing c
        ((thingRules things).execute now thing c) := by
  constructor
  · intro id steps now c
    refine (PolicyRules.governs policies).shapes (PolicyRules.keepsBooks policies) ?_ now c
    intro now revision c event response created deleted hdecided
    exact PolicyRules.marks hdecided
  · intro id steps now c
    refine (ThingRules.governs things).shapes (ThingRules.keepsBooks things) ?_ now c
    intro now revision c event response created deleted hdecided
    exact ThingRules.marks (ThingRules.policyId_run things id steps) hdecided

/-! ## A signpost -/

/-- A signpost without an inscription. -/
def signpost : Thing := { id := ⟨"org.example:signpost", by decide⟩ }

/-- The command to inscribe it. -/
def inscribe (text : String) : ThingCommand :=
  ⟨signpost.id, .empty, .write (.attributeAt (.ofSegments ["text"]) (.string text))⟩

/-- The signpost is put up and inscribed. -/
def signpostRun : List (Timestamp × ThingCommand) :=
  [(⟨0⟩, ⟨signpost.id, .empty, .create signpost⟩), (⟨1⟩, inscribe "north")]

/-- The first inscription is shown as created, with a tag; the second replaces it, also with a tag
but without content; and to remove it leaves neither. -/
theorem outcomes_have_shape_signpost :
    let rules := thingRules .standard
    let blank := ((AggregateRoot.new signpost.id).run rules (signpostRun.take 1)).state
    let inscribed := ((AggregateRoot.new signpost.id).run rules signpostRun).state
    let erase : ThingCommand :=
      ⟨signpost.id, .empty, .remove (.attributeAt (.ofSegments ["text"]))⟩
    (∃ event response created deleted, rules.execute ⟨1⟩ blank (inscribe "north") =
        .mutation event response created deleted ∧
      response.status = .created ∧ response.entity.isSome = true ∧
        response.headers.etag ≠ none) ∧
    (∃ event response created deleted, rules.execute ⟨2⟩ inscribed (inscribe "south") =
        .mutation event response created deleted ∧
      response.status = .noContent ∧ response.entity = none ∧ response.headers.etag ≠ none) ∧
    ∃ event response created deleted, rules.execute ⟨2⟩ inscribed erase =
        .mutation event response created deleted ∧
      response.status = .noContent ∧ response.entity = none ∧ response.headers.etag = none := by
  intro rules blank inscribed erase
  obtain ⟨hnew, hold, hgone⟩ :
      ((rules.execute ⟨1⟩ blank (inscribe "north")).isMutation = true ∧
        rules.currentTag blank (inscribe "north").request = none) ∧
      ((rules.execute ⟨2⟩ inscribed (inscribe "south")).isMutation = true ∧
        rules.currentTag inscribed (inscribe "south").request ≠ none) ∧
      (rules.execute ⟨2⟩ inscribed erase).isMutation = true ∧
        rules.currentTag inscribed erase.request ≠ none := by
    decide +kernel
  have hblank : ∀ now c, ThingRequest.addressing.OutcomeShape rules blank c
      (rules.execute now blank c) :=
    (outcomes_have_shape .standard .standard).2 signpost.id (signpostRun.take 1)
  have hinscribed : ∀ now c, ThingRequest.addressing.OutcomeShape rules inscribed c
      (rules.execute now inscribed c) :=
    (outcomes_have_shape .standard .standard).2 signpost.id signpostRun
  -- From here on the states are any two with these properties, so that nothing runs them again.
  clear_value blank inscribed
  refine ⟨?_, ?_, ?_⟩
  · obtain ⟨event, response, created, deleted, heq, shape⟩ :=
      (hblank ⟨1⟩ (inscribe "north")).exists_mutationShape hnew.1
    obtain ⟨hstatus, hentity⟩ := shape.new.mpr hnew.2
    exact ⟨event, response, created, deleted, heq, hstatus, hentity,
      fun hnone => nomatch shape.untagged.mp hnone⟩
  · obtain ⟨event, response, created, deleted, heq, shape⟩ :=
      (hinscribed ⟨2⟩ (inscribe "south")).exists_mutationShape hold.1
    obtain ⟨hstatus, hentity⟩ := shape.old.mpr hold.2
    exact ⟨event, response, created, deleted, heq, hstatus, hentity,
      fun hnone => nomatch shape.untagged.mp hnone⟩
  · obtain ⟨event, response, created, deleted, heq, shape⟩ :=
      (hinscribed ⟨2⟩ erase).exists_mutationShape hgone.1
    obtain ⟨hstatus, hentity⟩ := shape.old.mpr hgone.2
    exact ⟨event, response, created, deleted, heq, hstatus, hentity, shape.untagged.mpr rfl⟩

end GuardedThings
