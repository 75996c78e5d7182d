import GuardedThings.Proofs.Aggregate.BookkeepingHistory
import GuardedThings.Proofs.Aggregate.Refusals

/-!
# Applicable events

Deciding a command and applying its event are two pieces of code, and the second
may refuse what the first has emitted: an event about another entity, a creation
of what is there, a change of what is not, entries with the same label twice. It
never does so for a command that is addressed to the root of the entity
(`AggregateRoot.carries_out`).

What is decided depends on whether there is an active entity, as does what
applies, and repeated labels are found when the command is decided: the entries
that are emitted are those that were indexed then (`CommandRules.Emits`). For the
ids it takes that the entity of a root has the id of the root, which holds after
every run.

So a root answers with what was decided, and when it fails then for the reason
for which the conditional headers or the rules fail. None of them is one of the
server's (`CommandRules.checkHeaders_fails_fairly`, `PolicyRules.decide_fails_fairly`).
-/

set_option autoImplicit false

namespace GuardedThings

variable {α γ ρ : Type} {kind : EntityKind} [Change γ] [Aggregate α kind γ]

/-- The events of decided mutations create an entity where there is no active one, and change an
active one, and both succeed. -/
structure CommandRules.Emits (rules : CommandRules α kind γ ρ) : Prop where
  creates : ∀ {now : Timestamp} {entity : Option α} {revision : Revision} {c : Command kind ρ}
    {event : Event kind γ} {response : Response} {created deleted : Bool},
    rules.decide now entity revision c = .mutation event response created deleted →
      Aggregate.active? entity = none →
        Change.isCreation event.change = true ∧ ∃ begun : α, Aggregate.create event = .ok begun
  changes : ∀ {now : Timestamp} {entity : Option α} {revision : Revision} {c : Command kind ρ}
    {event : Event kind γ} {response : Response} {created deleted : Bool} {current : α},
    rules.decide now entity revision c = .mutation event response created deleted →
      Aggregate.active? entity = some current →
        Change.isCreation event.change = false ∧
          ∃ modified, Aggregate.modify event current = .ok modified

namespace CommandRules

variable {rules : CommandRules α kind γ ρ}

/-- The event of a decided mutation applies to an entity of the addressed id. -/
theorem Emits.exists_apply (hemits : rules.Emits) (haddressed : rules.Addressed) {now : Timestamp}
    {entity : Option α} {revision : Revision} {c : Command kind ρ} {event : Event kind γ}
    {response : Response} {created deleted : Bool}
    (hown : ∀ current, entity = some current → Aggregate.id current = c.entityId)
    (hdecided : rules.decide now entity revision c = .mutation event response created deleted) :
    ∃ next, Aggregate.apply event entity = .ok next := by
  have hid : event.entityId = c.entityId := haddressed _ _ _ _ _ _ _ _ hdecided
  have hsame : (entity.any fun current => Aggregate.id current ≠ event.entityId) = false := by
    cases entity with
    | none => rfl
    | some current =>
      rw [Option.any_some, hown current rfl, hid]
      exact decide_eq_false (not_not_intro rfl)
  unfold Aggregate.apply
  rw [hsame]
  cases hactive : Aggregate.active? entity with
  | none =>
    obtain ⟨hcreation, begun, hbegun⟩ := hemits.creates hdecided hactive
    refine ⟨Aggregate.stamp event (Aggregate.withCreated begun event.timestamp), ?_⟩
    rw [hcreation]
    show (do return Aggregate.stamp event (Aggregate.withCreated (← Aggregate.create event) _)) = _
    rw [hbegun]
    rfl
  | some current =>
    obtain ⟨hother, modified, hmodified⟩ := hemits.changes hdecided hactive
    refine ⟨Aggregate.stamp event modified, ?_⟩
    rw [hother]
    show (do return Aggregate.stamp event (← Aggregate.modify event current)) = _
    rw [hmodified]
    rfl

/-- What conditional headers refuse is a failed precondition, no fault of the server. -/
theorem checkHeaders_fails_fairly (rules : CommandRules α kind γ ρ) {entity : Option α}
    {c : Command kind ρ} {failure : Failure}
    (h : rules.checkHeaders entity c = some (.failed failure)) :
    failure.status ≠ .internalServerError := by
  simp only [checkHeaders] at h
  split at h
  · cases h
    intro heq
    cases heq
  · split at h
    · split at h
      · cases h
      · cases h
        intro heq
        cases heq
    · cases h

/-- If the events of what is decided apply, then an executed command fails as its conditional
headers or its decision do. -/
theorem execute_failed {now : Timestamp} {entity : Option α} {c : Command kind ρ}
    {failure : Failure}
    (happlies : ∀ event response created deleted,
      rules.decide now entity (Aggregate.revision entity).next c =
        .mutation event response created deleted →
          ∃ next, Aggregate.apply event entity = .ok next)
    (h : rules.execute now entity c = .failed failure) :
    rules.checkHeaders entity c = some (.failed failure) ∨
      (rules.checkHeaders entity c = none ∧
        rules.decide now entity (Aggregate.revision entity).next c = .failed failure) := by
  unfold execute at h
  split at h
  · rename_i outcome hheaders
    subst h
    exact .inl hheaders
  · rename_i hheaders
    refine .inr ⟨hheaders, ?_⟩
    unfold attachTag at h
    split at h
    · rename_i event response created deleted hdecided
      obtain ⟨next, happlied⟩ := happlies event response created deleted hdecided
      rw [happlied] at h
      cases h
    · cases h
    · rename_i hdecided
      cases h
      exact hdecided

end CommandRules

/-! ## Policies and things -/

/-- What the rules of policies promise about the events that they emit. -/
theorem PolicyRules.emits (config : PolicyConfig) : (policyRules config).Emits where
  creates := by
    intro now policy revision c event response created deleted hdecided hnone
    obtain ⟨change, rfl, haccepts⟩ := decide_mutation hdecided
    rw [hnone] at haccepts
    cases haccepts with
    | created => exact ⟨rfl, _, rfl⟩
  changes := by
    intro now policy revision c event response created deleted current hdecided hsome
    obtain ⟨change, rfl, haccepts⟩ := decide_mutation hdecided
    rw [hsome] at haccepts
    cases haccepts with
    | entriesReplaced _ next _ es _ _ indexed =>
      -- The labels were compared when the command was decided.
      exact ⟨rfl, next, indexed⟩
    | replaced | subjectsReplaced | resourcesReplaced | entryWritten | subjectWritten
    | resourceWritten | deleted | entryRemoved | subjectRemoved | resourceRemoved =>
      exact ⟨rfl, _, rfl⟩

/-- What the rules of things promise about the events that they emit. -/
theorem ThingRules.emits (config : ThingConfig) : (thingRules config).Emits where
  creates := by
    intro now thing revision c event response created deleted hdecided hnone
    obtain ⟨change, rfl, haccepts⟩ := decide_mutation hdecided
    rw [hnone] at haccepts
    cases haccepts with
    | created => exact ⟨rfl, _, rfl⟩
  changes := by
    intro now thing revision c event response created deleted current hdecided hsome
    obtain ⟨change, rfl, haccepts⟩ := decide_mutation hdecided
    rw [hsome] at haccepts
    cases haccepts with
    | replaced | policyAssigned | written | deleted | removed => exact ⟨rfl, _, rfl⟩

namespace AggregateRoot

/-- What a root guarantees about a command: the event of a mutation applies, whatever its revision;
the answer is what was executed; and a failure is one of the conditional headers or of the decision,
and not one of the server. -/
structure CarriesOut (rules : CommandRules α kind γ ρ) (root : AggregateRoot α kind)
    (now : Timestamp) (c : Command kind ρ) : Prop where
  applies : ∀ (revision : Revision) (event : Event kind γ) (response : Response)
    (created deleted : Bool),
    rules.decide now root.state revision c = .mutation event response created deleted →
      ∃ next, Aggregate.apply event root.state = .ok next
  answers : (root.handle rules now c).2 = rules.execute now root.state c
  fails : ∀ failure, rules.execute now root.state c = .failed failure →
    (rules.checkHeaders root.state c = some (.failed failure) ∨
      (rules.checkHeaders root.state c = none ∧
        rules.decide now root.state (Aggregate.revision root.state).next c = .failed failure)) ∧
      failure.status ≠ .internalServerError

/-- A root carries out commands that are addressed to it and to the entity that it has. -/
theorem carriesOut {rules : CommandRules α kind γ ρ} {root : AggregateRoot α kind}
    {now : Timestamp} {c : Command kind ρ} (hemits : rules.Emits) (haddressed : rules.Addressed)
    (hroot : c.entityId = root.id)
    (hown : ∀ current, root.state = some current → Aggregate.id current = root.id)
    (hfair : ∀ failure, rules.decide now root.state (Aggregate.revision root.state).next c =
      .failed failure → failure.status ≠ .internalServerError) :
    root.CarriesOut rules now c := by
  have happlies : ∀ revision event response created deleted,
      rules.decide now root.state revision c = .mutation event response created deleted →
        ∃ next, Aggregate.apply event root.state = .ok next := by
    intro revision event response created deleted hdecided
    exact hemits.exists_apply haddressed (fun current h => (hown current h).trans hroot.symm)
      hdecided
  refine ⟨happlies, ?_, ?_⟩
  · unfold handle
    rw [if_neg (not_not_intro hroot)]
    cases hexecuted : rules.execute now root.state c with
    | query response => rfl
    | failed failure => rfl
    | mutation event response created deleted =>
      obtain ⟨-, decided, next, hdecided, happlied, -⟩ := CommandRules.execute_mutation hexecuted
      simp only [happlied]
  · intro failure hfailed
    have hreason := CommandRules.execute_failed (happlies _) hfailed
    refine ⟨hreason, ?_⟩
    rcases hreason with hheaders | ⟨-, hdecided⟩
    · exact rules.checkHeaders_fails_fairly hheaders
    · exact hfair failure hdecided

/-- Whatever was asked of a root before, it carries out every command that is addressed to it: for
policies and for things. -/
theorem carries_out (policies : PolicyConfig) (things : ThingConfig) :
    (∀ (id : PolicyId) (steps : List (Timestamp × PolicyCommand)) (now : Timestamp)
      (headers : Headers) (request : PolicyRequest),
      ((new id : AggregateRoot Policy .policy).run (policyRules policies) steps).CarriesOut
        (policyRules policies) now ⟨id, headers, request⟩) ∧
    ∀ (id : ThingId) (steps : List (Timestamp × ThingCommand)) (now : Timestamp)
      (headers : Headers) (request : ThingRequest),
      ((new id : AggregateRoot Thing .thing).run (thingRules things) steps).CarriesOut
        (thingRules things) now ⟨id, headers, request⟩ := by
  constructor
  · intro id steps now headers request
    obtain ⟨-, htold⟩ := told_run (PolicyRules.addressed policies) (PolicyRules.keepsBooks policies)
      id steps
    refine carriesOut (PolicyRules.emits policies) (PolicyRules.addressed policies)
      (id_run (policyRules policies) id steps).symm (fun current h => (htold current h).1) ?_
    intro failure hdecided
    exact PolicyRules.decide_fails_fairly hdecided
  · intro id steps now headers request
    obtain ⟨-, htold⟩ := told_run (ThingRules.addressed things) (ThingRules.keepsBooks things)
      id steps
    refine carriesOut (ThingRules.emits things) (ThingRules.addressed things)
      (id_run (thingRules things) id steps).symm (fun current h => (htold current h).1) ?_
    intro failure hdecided
    exact ThingRules.decide_fails_fairly hdecided

end AggregateRoot

end GuardedThings
