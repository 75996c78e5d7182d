import GuardedThings.Proofs.Aggregate.BookkeepingHistory
import GuardedThings.Proofs.Policy.Adjustment
import Mathlib.Data.List.Induction

/-!
# Lives of an entity

An entity can be created, ended and created again. Which sequences of events can
be applied to nothing, one after another, is decided by their types alone, as
long as they are about one entity: each event has to be a creation if it comes
first or right after one that ends the entity, and must not be one otherwise
(`LifeEvents.InOrder`).

What an applied event leaves behind depends on the event and not on what was
there: an ended entity or an active one, of the id that the event brings along
or is about (`Aggregate.Lifecycles.of_apply`). Whether it applies depends only on
whether there is an active entity (`Aggregate.Lifecycles.applies_iff`), so on the
event before it. The sequence grows at its end, and with it both facts
(`Aggregate.Lifecycles.lives`).

A replacement is the event to look at: the entity it brings has a lifecycle and
an id of its own. The lifecycle is not taken over, the id is.
-/

set_option autoImplicit false

namespace GuardedThings

variable {α γ : Type} {kind : EntityKind} [Change γ] [Aggregate α kind γ]

/-! ## Sequences of events -/

namespace Aggregate

/-- The entity after a sequence of events. -/
def applyAll (entity : Option α) (events : List (Event kind γ)) : Except Failure (Option α) :=
  events.foldlM (fun entity event => do return some (← apply event entity)) entity

/-- The last event is applied to what the events before it have made. -/
theorem applyAll_concat_eq_ok_iff (start after : Option α) (front : List (Event kind γ))
    (event : Event kind γ) :
    applyAll start (front ++ [event]) = .ok after ↔
      ∃ entity next, applyAll start front = .ok entity ∧ apply event entity = .ok next ∧
        after = some next := by
  unfold applyAll
  rw [List.foldlM_append, bind_eq_ok_iff]
  refine exists_congr fun entity => ?_
  rw [List.foldlM_cons, bind_eq_ok_iff]
  constructor
  · rintro ⟨hfront, _, hevent, hafter⟩
    cases hafter
    obtain ⟨next, hnext, heq⟩ := (bind_eq_ok_iff _ _ _).mp hevent
    cases heq
    exact ⟨next, hfront, hnext, rfl⟩
  · rintro ⟨next, hfront, hnext, rfl⟩
    exact ⟨hfront, some next, (bind_eq_ok_iff _ _ _).mpr ⟨next, hnext, rfl⟩, rfl⟩

end Aggregate

namespace LifeEvents

/-- Each event creates the entity exactly if it comes first or right after one that ends it. -/
def InOrder (life : LifeEvents) (events : List (Event kind γ)) : Prop :=
  ∀ front event back, events = front ++ event :: back →
    (Change.eventType event.change = life.creation ↔
      front = [] ∨ ∃ last, front.getLast? = some last ∧
        Change.eventType last.change = life.deletion)

/-- The lifecycle of an entity to which an event was applied. -/
def leaves (life : LifeEvents) (event : Event kind γ) : Lifecycle :=
  if Change.eventType event.change = life.deletion then .deleted else .active

/-- No events at all are in order. -/
theorem inOrder_nil (life : LifeEvents) : life.InOrder ([] : List (Event kind γ)) := by
  intro front event back h
  cases front with
  | nil => cases h
  | cons _ _ => cases h

/-- One more event keeps the order if it is in its place. -/
theorem inOrder_concat_iff (life : LifeEvents) (events : List (Event kind γ))
    (event : Event kind γ) :
    life.InOrder (events ++ [event]) ↔
      life.InOrder events ∧
        (Change.eventType event.change = life.creation ↔
          events = [] ∨ ∃ last, events.getLast? = some last ∧
            Change.eventType last.change = life.deletion) := by
  constructor
  · intro h
    refine ⟨fun front e back heq => ?_, h events event [] rfl⟩
    exact h front e (back ++ [event]) (by rw [heq, List.append_assoc, List.cons_append])
  · rintro ⟨hbefore, hlast⟩ front e back heq
    rcases List.eq_nil_or_concat back with rfl | ⟨back', e', rfl⟩
    · obtain ⟨rfl, hlist⟩ := List.append_inj' heq rfl
      cases hlist
      exact hlast
    · rw [List.concat_eq_append, ← List.cons_append, ← List.append_assoc] at heq
      exact hbefore front e back' (List.append_inj' heq rfl).1

end LifeEvents

namespace Aggregate

/-- What becomes of nothing by a sequence of events: they apply exactly if they are in order, and
then there is nothing after no event, an ended entity after one that ends it, and an active one
after any other. -/
structure Lives (α : Type) {kind : EntityKind} {γ : Type} [Change γ] [Aggregate α kind γ]
    (life : LifeEvents) (events : List (Event kind γ)) : Prop where
  apply : (∃ entity : Option α, applyAll none events = .ok entity) ↔ life.InOrder events
  leave : ∀ entity : Option α, applyAll none events = .ok entity →
    entity.map (fun e => (book e).lifecycle) = events.getLast?.map life.leaves

/-! ## What is asked of a kind of entity -/

/-- How the events of a kind of entity begin, turn and end an entity. Some bring an entity along,
and only sound ones are certain to apply. -/
structure Lifecycles (α : Type) {kind : EntityKind} {γ : Type} [Change γ] [Aggregate α kind γ]
    (life : LifeEvents) (broughtId? : γ → Option (EntityId kind)) (sound : γ → Prop) : Prop where
  id_withBook : ∀ (entity : α) (book : Bookkeeping), id (withBook entity book) = id entity
  creation_iff : ∀ change : γ,
    Change.eventType change = life.creation ↔ Change.isCreation change = true
  distinct : life.creation ≠ life.deletion
  begins : ∀ event : Event kind γ, Change.isCreation event.change = true →
    ∃ begun : α, create event = .ok begun ∧ broughtId? event.change = some (id begun) ∧
      (book begun).lifecycle = .active
  turns : ∀ (event : Event kind γ) (current modified : α), isActive current = true →
    modify event current = .ok modified →
      id modified = (broughtId? event.change).getD (id current) ∧
        (book modified).lifecycle = life.leaves event
  applies : ∀ (event : Event kind γ) (current : α), Change.isCreation event.change = false →
    sound event.change → ∃ modified, modify event current = .ok modified

namespace Lifecycles

variable {life : LifeEvents} {broughtId? : γ → Option (EntityId kind)} {sound : γ → Prop}

/-! ## One event -/

/-- What an event leaves behind has the id that the event brings along, or else the one it is about,
and it is ended or active as the type of the event says. -/
theorem of_apply [LawfulAggregate α] (h : Lifecycles α life broughtId? sound)
    {event : Event kind γ} {entity : Option α} {next : α}
    (happlied : apply event entity = .ok next) :
    id next = (broughtId? event.change).getD event.entityId ∧
      (book next).lifecycle = life.leaves event := by
  have hid : ∀ before : α, id (stamp event before) = id before := fun before => h.id_withBook _ _
  have hlifecycle : ∀ before : α,
      (book (stamp event before)).lifecycle = (book before).lifecycle := by
    intro before
    unfold stamp
    rw [LawfulAggregate.book_withBook]
  rcases apply_cases happlied with
    ⟨hcreation, -, begun, hbegun, rfl⟩ | ⟨-, current, modified, hsome, hmodified, rfl⟩
  · obtain ⟨begun', hbegun', hbrought, hactive⟩ := h.begins event hcreation
    have heq : begun = begun' := Except.ok.inj (hbegun.symm.trans hbegun')
    subst heq
    constructor
    · rw [hid, hbrought]
      exact h.id_withBook _ _
    · have htype : Change.eventType event.change ≠ life.deletion := fun heq =>
        h.distinct (((h.creation_iff _).mpr hcreation).symm.trans heq)
      rw [hlifecycle, LifeEvents.leaves, if_neg htype]
      unfold withCreated
      rw [LawfulAggregate.book_withBook]
      exact hactive
  · obtain ⟨rfl, hlive⟩ := Option.filter_eq_some_iff.mp hsome
    obtain ⟨hmodifiedid, hleaves⟩ := h.turns event current modified hlive hmodified
    rw [hid, hlifecycle, hmodifiedid, id_of_apply happlied]
    exact ⟨rfl, hleaves⟩

/-- A sound event about an entity applies iff it is a creation exactly if there is no active
entity. -/
theorem applies_iff (h : Lifecycles α life broughtId? sound) {event : Event kind γ}
    {entity : Option α} (hsound : sound event.change)
    (hown : ∀ current, entity = some current → id current = event.entityId) :
    (∃ next, apply event entity = .ok next) ↔
      (Change.isCreation event.change = true ↔ active? entity = none) := by
  have hsame : (entity.any fun current => id current ≠ event.entityId) = false := by
    cases entity with
    | none => rfl
    | some current =>
      rw [Option.any_some, hown current rfl]
      exact decide_eq_false (not_not_intro rfl)
  constructor
  · rintro ⟨next, happlied⟩
    rcases apply_cases happlied with ⟨hcreation, hnone, -⟩ | ⟨hother, current, -, hsome, -⟩
    · exact iff_of_true hcreation hnone
    · refine iff_of_false (Bool.eq_false_iff.mp hother) ?_
      rw [hsome]
      exact Option.some_ne_none current
  · intro hiff
    unfold apply
    rw [hsame]
    cases hactive : active? entity with
    | none =>
      have hcreation := hiff.mpr hactive
      obtain ⟨begun, hbegun, -⟩ := h.begins event hcreation
      rw [hcreation]
      refine ⟨stamp event (withCreated begun event.timestamp), ?_⟩
      exact (bind_eq_ok_iff _ _ _).mpr ⟨begun, hbegun, rfl⟩
    | some current =>
      have hother : Change.isCreation event.change = false := by
        rw [Bool.eq_false_iff]
        intro hcreation
        rw [hiff.mp hcreation] at hactive
        cases hactive
      obtain ⟨modified, hmodified⟩ := h.applies event current hother hsound
      rw [hother]
      exact ⟨stamp event modified, (bind_eq_ok_iff _ _ _).mpr ⟨modified, hmodified, rfl⟩⟩

/-! ## All events -/

/-- After a sequence of events there is nothing if there were none, and otherwise what the last of
them leaves behind. -/
theorem of_applyAll [LawfulAggregate α] (h : Lifecycles α life broughtId? sound)
    {events : List (Event kind γ)} {entity : Option α} (happlied : applyAll none events = .ok entity) :
    entity.map id =
        events.getLast?.map (fun event => (broughtId? event.change).getD event.entityId) ∧
      entity.map (fun e => (book e).lifecycle) = events.getLast?.map life.leaves := by
  rcases List.eq_nil_or_concat events with rfl | ⟨front, event, rfl⟩
  · cases happlied
    exact ⟨rfl, rfl⟩
  · rw [List.concat_eq_append] at happlied ⊢
    obtain ⟨before, next, -, hnext, rfl⟩ := (applyAll_concat_eq_ok_iff _ _ _ _).mp happlied
    obtain ⟨hid, hleaves⟩ := h.of_apply hnext
    rw [List.getLast?_concat]
    exact ⟨congrArg some hid, congrArg some hleaves⟩

/-- After a sequence of events there is no active entity iff there were none or the last one ended
it. -/
theorem active?_eq_none_iff [LawfulAggregate α] (h : Lifecycles α life broughtId? sound)
    {events : List (Event kind γ)} {entity : Option α}
    (happlied : applyAll none events = .ok entity) :
    active? entity = none ↔
      events = [] ∨ ∃ last, events.getLast? = some last ∧
        Change.eventType last.change = life.deletion := by
  have hleaves := (h.of_applyAll happlied).2
  cases hlast : events.getLast? with
  | none =>
    rw [hlast, Option.map_none, Option.map_eq_none_iff] at hleaves
    subst hleaves
    exact iff_of_true rfl (.inl (List.getLast?_eq_none_iff.mp hlast))
  | some last =>
    have hsome : events ≠ [] := by
      rintro rfl
      cases hlast
    rw [hlast, Option.map_some, Option.map_eq_some_iff] at hleaves
    obtain ⟨current, rfl, hlifecycle⟩ := hleaves
    simp only [active?, Option.filter_eq_none_iff, Option.some.injEq, forall_eq', isActive,
      Lifecycle.isActive, hlifecycle, hsome, false_or, exists_eq_left', LifeEvents.leaves]
    by_cases hdeletion : Change.eventType last.change = life.deletion
    · simp [hdeletion]
    · simp [hdeletion]

/-- Sound events about one entity, of which every one that brings an entity along brings this one,
lead the lives that they are in order for. -/
theorem lives [LawfulAggregate α] (h : Lifecycles α life broughtId? sound) (own : EntityId kind)
    (events : List (Event kind γ))
    (hevents : ∀ event ∈ events, event.entityId = own ∧
      (∀ brought, broughtId? event.change = some brought → brought = own) ∧ sound event.change) :
    Lives α life events := by
  refine ⟨?_, fun entity happlied => (h.of_applyAll happlied).2⟩
  induction events using List.reverseRecOn with
  | nil => exact iff_of_true ⟨none, rfl⟩ life.inOrder_nil
  | append_singleton front event ih =>
    have hfront : ∀ e ∈ front, e.entityId = own ∧
        (∀ brought, broughtId? e.change = some brought → brought = own) ∧ sound e.change :=
      fun e he => hevents e (List.mem_append_left _ he)
    obtain ⟨hid, -, hsound⟩ := hevents event (List.mem_append_right _ List.mem_cons_self)
    -- The next event finds an entity of its own id.
    have hown : ∀ entity : Option α, applyAll none front = .ok entity →
        ∀ current, entity = some current → id current = event.entityId := by
      rintro entity happlied current rfl
      obtain ⟨last, hlast, heq⟩ := Option.map_eq_some_iff.mp (h.of_applyAll happlied).1.symm
      obtain ⟨hlastid, hbrought, -⟩ := hfront last (List.mem_of_getLast? hlast)
      rw [hid, ← heq]
      cases hbrings : broughtId? last.change with
      | none => exact hlastid
      | some brought => exact hbrought brought hbrings
    have hnext : ∀ entity : Option α, applyAll none front = .ok entity →
        ((∃ next, apply event entity = .ok next) ↔
          (Change.eventType event.change = life.creation ↔
            front = [] ∨ ∃ last, front.getLast? = some last ∧
              Change.eventType last.change = life.deletion)) := by
      intro entity happlied
      rw [h.applies_iff hsound (hown entity happlied), h.creation_iff,
        h.active?_eq_none_iff happlied]
    rw [life.inOrder_concat_iff, ← ih hfront]
    constructor
    · rintro ⟨after, happlied⟩
      obtain ⟨entity, next, hentity, happlied, -⟩ :=
        (applyAll_concat_eq_ok_iff _ _ _ _).mp happlied
      exact ⟨⟨entity, hentity⟩, (hnext entity hentity).mp ⟨next, happlied⟩⟩
    · rintro ⟨⟨entity, hentity⟩, hplace⟩
      obtain ⟨next, happlied⟩ := (hnext entity hentity).mpr hplace
      exact ⟨some next, (applyAll_concat_eq_ok_iff _ _ _ _).mpr
        ⟨entity, next, hentity, happlied, rfl⟩⟩

end Lifecycles

end Aggregate

/-! ## Policies and things -/

namespace PolicyChange

/-- The id of the policy that a change brings along. -/
def broughtId? : PolicyChange → Option PolicyId
  | created p | replaced p => some p.id
  | _ => none

/-- No label occurs twice among entries that are replaced as one. -/
def DistinctLabels : PolicyChange → Prop
  | groupReplaced (.entries es) => (es.map Entry.label).Nodup
  | _ => True

/-- How the events of policies begin, turn and end a policy. -/
theorem lifecycles : Aggregate.Lifecycles Policy lifeEvents broughtId? DistinctLabels where
  id_withBook _ _ := rfl
  creation_iff := eventType_eq_creation_iff
  distinct := by decide
  begins := by
    intro event hcreation
    obtain ⟨_, _, _, _, _, change⟩ := event
    cases change with
    | created p => exact ⟨p.withLifecycle .active, rfl, rfl, rfl⟩
    | replaced _ | groupReplaced _ | written _ _ | removed _ => cases hcreation
  turns := by
    intro event current modified hactive hmodified
    have hlive : current.book.lifecycle = .active := of_decide_eq_true hactive
    have hmodified : current.after event = .ok modified := hmodified
    have hleaves : lifeEvents.leaves event =
        if event.change = .removed .whole then .deleted else .active :=
      if_congr (eventType_eq_deletion_iff _) rfl rfl
    rw [hleaves]
    obtain ⟨_, _, _, _, _, change⟩ := event
    cases change with
    | created _ => cases hmodified
    | replaced replacement =>
      cases hmodified
      exact ⟨rfl, rfl⟩
    | groupReplaced _ | written _ _ =>
      obtain ⟨entries, rfl⟩ := PolicyRules.exists_entries_of_after hmodified nofun nofun
      exact ⟨rfl, hlive⟩
    | removed item =>
      by_cases hwhole : item = .whole
      · subst hwhole
        cases hmodified
        exact ⟨rfl, rfl⟩
      · have hinside : PolicyChange.removed item ≠ .removed .whole := fun heq =>
          hwhole (PolicyChange.removed.inj heq)
        obtain ⟨entries, rfl⟩ := PolicyRules.exists_entries_of_after hmodified nofun hinside
        rw [if_neg hinside]
        exact ⟨rfl, hlive⟩
  applies := by
    intro event current hother hsound
    obtain ⟨_, _, _, _, _, change⟩ := event
    -- Only a list of entries can be refused, for a label that occurs again.
    cases change with
    | created _ => cases hother
    | replaced _ | written _ _ | removed _ => exact ⟨_, rfl⟩
    | groupReplaced group =>
      cases group with
      | entries es =>
        have hindex := (Policy.index_eq_ok_iff .empty _ es).mpr ⟨hsound, fun _ _ => rfl, rfl⟩
        exact ⟨_, (bind_eq_ok_iff _ _ _).mpr ⟨_, hindex, rfl⟩⟩
      | subjects _ _ | resources _ _ => exact ⟨_, rfl⟩

end PolicyChange

namespace ThingChange

/-- The id of the thing that a change brings along. -/
def broughtId? : ThingChange → Option ThingId
  | created t | replaced t => some t.id
  | _ => none

/-- How the events of things begin, turn and end a thing. -/
theorem lifecycles : Aggregate.Lifecycles Thing lifeEvents broughtId? (fun _ => True) where
  id_withBook _ _ := rfl
  creation_iff := eventType_eq_creation_iff
  distinct := by decide
  begins := by
    intro event hcreation
    obtain ⟨_, _, _, _, _, change⟩ := event
    cases change with
    | created t => exact ⟨t.withLifecycle .active, rfl, rfl, rfl⟩
    | replaced _ | policyAssigned _ | written _ _ | removed _ => cases hcreation
  turns := by
    intro event current modified hactive hmodified
    have hlive : current.book.lifecycle = .active := of_decide_eq_true hactive
    have hmodified : current.after event = .ok modified := hmodified
    have hleaves : lifeEvents.leaves event =
        if event.change = .removed .whole then .deleted else .active :=
      if_congr (eventType_eq_deletion_iff _) rfl rfl
    rw [hleaves]
    obtain ⟨_, _, _, _, _, change⟩ := event
    cases change with
    | created _ => cases hmodified
    | replaced replacement =>
      cases hmodified
      exact ⟨rfl, rfl⟩
    | policyAssigned _ | written _ _ =>
      obtain ⟨hid, hbook, -⟩ := ThingRules.kept_of_after hmodified nofun nofun
      exact ⟨hid, (congrArg Bookkeeping.lifecycle hbook).trans hlive⟩
    | removed item =>
      by_cases hwhole : item = .whole
      · subst hwhole
        cases hmodified
        exact ⟨rfl, rfl⟩
      · have hinside : ThingChange.removed item ≠ .removed .whole := fun heq =>
          hwhole (ThingChange.removed.inj heq)
        obtain ⟨hid, hbook, -⟩ := ThingRules.kept_of_after hmodified nofun hinside
        rw [if_neg hinside]
        exact ⟨hid, (congrArg Bookkeeping.lifecycle hbook).trans hlive⟩
  applies := by
    intro event current hother _
    obtain ⟨_, _, _, _, _, change⟩ := event
    cases change with
    | created _ => cases hother
    | replaced _ | policyAssigned _ | written _ _ | removed _ => exact ⟨_, rfl⟩

end ThingChange

namespace Aggregate

/-- Events about one policy, of which those that bring a policy along bring this one and those that
replace all entries have no label twice, apply exactly if they are in order, and their last tells
whether the policy is there, and active. The same holds of the events about one thing, of which
those that bring a thing along bring this one. -/
theorem events_lead_lives :
    (∀ (id : PolicyId) (events : List (Event .policy PolicyChange)),
      (∀ event ∈ events, event.entityId = id ∧
        (∀ brought, event.change.broughtId? = some brought → brought = id) ∧
          event.change.DistinctLabels) →
      Lives Policy PolicyChange.lifeEvents events) ∧
    (∀ (id : ThingId) (events : List (Event .thing ThingChange)),
      (∀ event ∈ events, event.entityId = id ∧
        ∀ brought, event.change.broughtId? = some brought → brought = id) →
      Lives Thing ThingChange.lifeEvents events) := by
  constructor
  · intro id events hevents
    exact PolicyChange.lifecycles.lives id events hevents
  · intro id events hevents
    refine ThingChange.lifecycles.lives id events fun event hmem => ?_
    exact ⟨(hevents event hmem).1, (hevents event hmem).2, trivial⟩

/-- A policy is created, replaced by a document that claims to be deleted, and deleted; then it is
created again. -/
def policyLife : List (Event .policy PolicyChange) :=
  [.created AggregateRoot.backdatedPolicy, .replaced AggregateRoot.backdatedPolicy,
    .removed .whole, .created AggregateRoot.backdatedPolicy].map
      (⟨AggregateRoot.backdatedPolicy.id, .initial, ⟨5⟩, none, none, ·⟩)

/-- A thing is created, replaced by a document that claims to be deleted, and deleted. -/
def lampLife : List (Event .thing ThingChange) :=
  [.created AggregateRoot.backdatedLamp, .replaced AggregateRoot.backdatedLamp,
    .removed .whole].map (⟨AggregateRoot.backdatedLamp.id, .initial, ⟨5⟩, none, none, ·⟩)

/-- Both lives can be led. The first ends with an active policy and the second with a deleted
thing. -/
theorem events_lead_lives_backdated :
    (Lives Policy PolicyChange.lifeEvents policyLife ∧
      ((applyAll none policyLife).toOption.map (Option.map fun p : Policy => p.book.lifecycle)) =
        some (some .active)) ∧
    (Lives Thing ThingChange.lifeEvents lampLife ∧
      ((applyAll none lampLife).toOption.map (Option.map fun t : Thing => t.book.lifecycle)) =
        some (some .deleted)) := by
  refine ⟨⟨events_lead_lives.1 AggregateRoot.backdatedPolicy.id policyLife ?_, ?_⟩,
    events_lead_lives.2 AggregateRoot.backdatedLamp.id lampLife ?_, ?_⟩
  · simp [policyLife, PolicyChange.broughtId?, PolicyChange.DistinctLabels]
  · decide +kernel
  · simp [lampLife, ThingChange.broughtId?]
  · decide +kernel

end Aggregate

end GuardedThings
