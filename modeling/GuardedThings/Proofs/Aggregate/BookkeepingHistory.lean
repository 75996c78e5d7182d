import GuardedThings.Proofs.Aggregate.Revisions
import GuardedThings.Proofs.Policy.StandingAdministrator

/-!
# Bookkeeping told by the journal

An entity carries its revision, its lifecycle and the times of its creation and
of its last modification in its own document, where a client who proposes the
entity as a whole can write what it likes. After every run they are nevertheless
what the journal says (`AggregateRoot.Recorded`), for policies and for things:
* one event moves the bookkeeping in a way that depends on the event alone
  (`Aggregate.Moves`): only an event of the creating type sets the time of
  creation, and only one of the deleting type ends the entity;
* a journal that grows by the record of such an event still tells the
  bookkeeping (`Books.append`);
* revisions count the records, which are few enough for words.

Replacing is the case to look at. The replacement comes with a lifecycle and a
time of creation of its own; it is stored as active and as old as what it
replaces, which has a time of creation because it was created once.
-/

set_option autoImplicit false

namespace GuardedThings

/-- The types of the events that begin and end an entity. -/
structure LifeEvents where
  creation : String
  deletion : String

/-- The events that begin and end a policy. -/
def PolicyChange.lifeEvents : LifeEvents :=
  ⟨"policies.events:policyCreated", "policies.events:policyDeleted"⟩

/-- The events that begin and end a thing. -/
def ThingChange.lifeEvents : LifeEvents :=
  ⟨"things.events:thingCreated", "things.events:thingDeleted"⟩

namespace PolicyChange

/-- Only the creation events of policies have the type of the creation. -/
theorem eventType_eq_creation_iff (change : PolicyChange) :
    Change.eventType change = lifeEvents.creation ↔ Change.isCreation change = true := by
  show "policies.events" ++ ":" ++ change.name = _ ↔ change.isCreation = true
  fun_cases name change <;> simp [isCreation, lifeEvents]

/-- Only the removal of the whole policy has the type of the deletion. -/
theorem eventType_eq_deletion_iff (change : PolicyChange) :
    Change.eventType change = lifeEvents.deletion ↔ change = .removed .whole := by
  show "policies.events" ++ ":" ++ change.name = _ ↔ _
  fun_cases name change <;> simp [lifeEvents]

end PolicyChange

namespace ThingChange

/-- Only the creation events of things have the type of the creation. -/
theorem eventType_eq_creation_iff (change : ThingChange) :
    Change.eventType change = lifeEvents.creation ↔ Change.isCreation change = true := by
  show "things.events" ++ ":" ++ change.name = _ ↔ change.isCreation = true
  fun_cases name change <;> simp [isCreation, lifeEvents]

/-- Only the removal of the whole thing has the type of the deletion. -/
theorem eventType_eq_deletion_iff (change : ThingChange) :
    Change.eventType change = lifeEvents.deletion ↔ change = .removed .whole := by
  show "things.events" ++ ":" ++ change.name = _ ↔ _
  fun_cases name change <;> simp [lifeEvents]

end ThingChange

/-! ## One event -/

section Events

variable {α γ ρ : Type} {kind : EntityKind} [Change γ] [Aggregate α kind γ]

/-- How an event that is no creation turns an active entity into another: it leaves the bookkeeping
alone, ends the entity, or replaces it by an active one that is as old. -/
inductive Aggregate.Turns (life : LifeEvents) (event : Event kind γ) (current modified : α) : Prop
  | edited (type : Change.eventType event.change ≠ life.deletion)
      (own : id modified = id current) (kept : book modified = book current)
  | ended (type : Change.eventType event.change = life.deletion)
      (own : id modified = id current)
      (kept : book modified = { book current with lifecycle := .deleted })
  | replaced (type : Change.eventType event.change ≠ life.deletion)
      (own : id modified = event.entityId) (given : Bookkeeping)
      (kept : book modified =
        { given with lifecycle := .active, created := (book current).created.or given.created })

/-- What is asked of the rules of a kind of entity for the journal to tell the bookkeeping. -/
structure CommandRules.KeepsBooks (rules : CommandRules α kind γ ρ) (life : LifeEvents) : Prop where
  id_withBook : ∀ (entity : α) (book : Bookkeeping),
    Aggregate.id (Aggregate.withBook entity book) = Aggregate.id entity
  creation_iff : ∀ change : γ,
    Change.eventType change = life.creation ↔ Change.isCreation change = true
  distinct : life.creation ≠ life.deletion
  begins : ∀ {now : Timestamp} {entity : Option α} {revision : Revision} {c : Command kind ρ}
    {event : Event kind γ} {response : Response} {created deleted : Bool} {begun : α},
    rules.decide now entity revision c = .mutation event response created deleted →
      Aggregate.active? entity = none → Aggregate.create event = .ok begun →
        Aggregate.id begun = event.entityId ∧ (Aggregate.book begun).lifecycle = .active
  turns : ∀ {now : Timestamp} {entity : Option α} {revision : Revision} {c : Command kind ρ}
    {event : Event kind γ} {response : Response} {created deleted : Bool} {current modified : α},
    rules.decide now entity revision c = .mutation event response created deleted →
      Aggregate.active? entity = some current → Aggregate.modify event current = .ok modified →
        Aggregate.Turns life event current modified

/-- How an event moves the bookkeeping of an entity: by its type and its time alone. -/
structure Aggregate.Moves (life : LifeEvents) (event : Event kind γ) (entity : Option α)
    (next : α) : Prop where
  own : id next = event.entityId
  modified : (book next).modified = some event.timestamp
  ends : (book next).lifecycle = .deleted ↔ Change.eventType event.change = life.deletion
  begins : Change.eventType event.change = life.creation →
    (book next).created = some event.timestamp
  ages : Change.eventType event.change ≠ life.creation → ∃ current, entity = some current ∧
    ∀ time, (book current).created = some time → (book next).created = some time

/-- An event of a decided mutation moves the bookkeeping so. -/
theorem CommandRules.KeepsBooks.moves [LawfulAggregate α] {rules : CommandRules α kind γ ρ}
    {life : LifeEvents} (h : rules.KeepsBooks life) {now : Timestamp} {entity : Option α}
    {revision : Revision} {c : Command kind ρ} {event : Event kind γ} {response : Response}
    {created deleted : Bool} {next : α}
    (hdecided : rules.decide now entity revision c = .mutation event response created deleted)
    (happlied : Aggregate.apply event entity = .ok next) :
    Aggregate.Moves life event entity next := by
  have hbook : ∀ before : α, Aggregate.book (Aggregate.stamp event before) =
      { Aggregate.book before with
        revision := event.revision, modified := some event.timestamp } :=
    fun before => LawfulAggregate.book_withBook _ _
  have hid : ∀ before : α, Aggregate.id (Aggregate.stamp event before) = Aggregate.id before :=
    fun before => h.id_withBook _ _
  rcases Aggregate.apply_cases happlied with
    ⟨hcreation, hnone, begun, hbegun, rfl⟩ | ⟨hother, current, modified, hsome, hmodified, rfl⟩
  · have htype := (h.creation_iff event.change).mpr hcreation
    obtain ⟨hown, hactive⟩ := h.begins hdecided hnone hbegun
    have hkept : Aggregate.book (Aggregate.stamp event
        (Aggregate.withCreated begun event.timestamp)) =
          { Aggregate.book begun with
            revision := event.revision
            created := some event.timestamp
            modified := some event.timestamp } := by
      rw [hbook]
      unfold Aggregate.withCreated
      rw [LawfulAggregate.book_withBook]
    exact
      { own := (hid _).trans ((h.id_withBook _ _).trans hown)
        modified := by rw [hkept]
        ends := by
          rw [hkept, htype, hactive]
          exact ⟨nofun, fun heq => absurd heq h.distinct⟩
        begins := fun _ => by rw [hkept]
        ages := fun hne => absurd htype hne }
  · have htype : Change.eventType event.change ≠ life.creation := fun heq =>
      Bool.false_ne_true (hother.symm.trans ((h.creation_iff event.change).mp heq))
    obtain ⟨rfl, hactive⟩ := Option.filter_eq_some_iff.mp hsome
    have hlive : (Aggregate.book current).lifecycle = .active := of_decide_eq_true hactive
    have howner := Aggregate.id_of_apply happlied
    -- Of the bookkeeping, the stamp leaves the lifecycle and the time of creation alone.
    suffices hturned : Aggregate.id modified = event.entityId ∧
        ((Aggregate.book modified).lifecycle = .deleted ↔
          Change.eventType event.change = life.deletion) ∧
        ∀ time, (Aggregate.book current).created = some time →
          (Aggregate.book modified).created = some time by
      obtain ⟨hown, hends, hages⟩ := hturned
      exact
        { own := (hid _).trans hown
          modified := by rw [hbook]
          ends := by rw [hbook]; exact hends
          begins := fun heq => absurd heq htype
          ages := fun _ => ⟨current, rfl, by rw [hbook]; exact hages⟩ }
    cases h.turns hdecided hsome hmodified with
    | edited type own kept =>
      rw [kept, hlive]
      exact ⟨own.trans howner, ⟨nofun, fun heq => absurd heq type⟩, fun _ htime => htime⟩
    | ended type own kept =>
      rw [kept]
      exact ⟨own.trans howner, ⟨fun _ => type, fun _ => rfl⟩, fun _ htime => htime⟩
    | replaced type own given kept =>
      rw [kept]
      refine ⟨own, ⟨nofun, fun heq => absurd heq type⟩, fun time htime => ?_⟩
      show (Aggregate.book current).created.or given.created = _
      rw [htime]
      rfl

end Events

/-! ## Policies and things -/

namespace PolicyRules

/-- The rules of policies keep the books: every event moves the bookkeeping as its type says. -/
theorem keepsBooks (config : PolicyConfig) :
    (policyRules config).KeepsBooks PolicyChange.lifeEvents where
  id_withBook _ _ := rfl
  creation_iff := PolicyChange.eventType_eq_creation_iff
  distinct := by decide
  begins := by
    intro now policy revision c event response created deleted begun hdecided hnone hbegun
    obtain ⟨change, rfl, haccepts⟩ := decide_mutation hdecided
    rw [hnone] at haccepts
    cases haccepts with
    | created _ p _ adjusted _ _ =>
      cases hbegun
      exact ⟨(Setting.kept_of_adjustPolicy adjusted).1, rfl⟩
  turns := by
    intro now policy revision c event response created deleted current modified hdecided hsome
      hmodified
    obtain ⟨change, rfl, haccepts⟩ := decide_mutation hdecided
    rw [hsome] at haccepts
    have hmodified : current.after _ = .ok modified := hmodified
    by_cases hdeleted : change = .removed .whole
    · subst hdeleted
      cases hmodified
      exact .ended ((PolicyChange.eventType_eq_deletion_iff _).mpr rfl) rfl rfl
    · have htype := mt (PolicyChange.eventType_eq_deletion_iff change).mp hdeleted
      by_cases hreplaced : ∃ replacement, change = .replaced replacement
      · obtain ⟨replacement, rfl⟩ := hreplaced
        cases haccepts with
        | replaced _ _ _ _ adjusted _ _ =>
          cases hmodified
          exact .replaced htype ((Setting.kept_of_adjustPolicy adjusted).1) _ rfl
      · obtain ⟨entries, rfl⟩ := exists_entries_of_after hmodified
          (fun replacement heq => hreplaced ⟨replacement, heq⟩) hdeleted
        exact .edited htype rfl rfl

end PolicyRules

namespace ThingRules

/-- An accepted thing has the id of the command and a policy. -/
theorem Setting.own_of_acceptThing {s : Setting} {proposed t : Thing} {fallback : PolicyId}
    (h : s.acceptThing proposed fallback = .ok t) : t.id = s.id ∧ t.policyId.isSome = true := by
  obtain ⟨hid, -, rfl⟩ := (s.acceptThing_eq_ok_iff proposed t fallback).mp h
  exact ⟨hid, rfl⟩

/-- The rules of things keep the books: every event moves the bookkeeping as its type says. -/
theorem keepsBooks (config : ThingConfig) :
    (thingRules config).KeepsBooks ThingChange.lifeEvents where
  id_withBook _ _ := rfl
  creation_iff := ThingChange.eventType_eq_creation_iff
  distinct := by decide
  begins := by
    intro now thing revision c event response created deleted begun hdecided hnone hbegun
    obtain ⟨change, rfl, haccepts⟩ := decide_mutation hdecided
    rw [hnone] at haccepts
    cases haccepts with
    | created _ t _ accepted =>
      cases hbegun
      exact ⟨(Setting.own_of_acceptThing accepted).1, rfl⟩
  turns := by
    intro now thing revision c event response created deleted current modified hdecided hsome
      hmodified
    obtain ⟨change, rfl, haccepts⟩ := decide_mutation hdecided
    rw [hsome] at haccepts
    have hmodified : current.after _ = .ok modified := hmodified
    by_cases hdeleted : change = .removed .whole
    · subst hdeleted
      cases hmodified
      exact .ended ((ThingChange.eventType_eq_deletion_iff _).mpr rfl) rfl rfl
    · have htype := mt (ThingChange.eventType_eq_deletion_iff change).mp hdeleted
      by_cases hreplaced : ∃ replacement, change = .replaced replacement
      · obtain ⟨replacement, rfl⟩ := hreplaced
        cases haccepts with
        | replaced _ _ _ _ accepted =>
          cases hmodified
          exact .replaced htype (Setting.own_of_acceptThing accepted).1 _ rfl
      · obtain ⟨hid, hbook, -⟩ := kept_of_after hmodified
          (fun replacement heq => hreplaced ⟨replacement, heq⟩) hdeleted
        exact .edited htype hid hbook

/-- A thing always has a policy: it is accepted with one, and none is taken away. -/
theorem policyId_run (config : ThingConfig) (id : ThingId)
    (steps : List (Timestamp × ThingCommand)) (t : Thing)
    (h : ((AggregateRoot.new id).run (thingRules config) steps).state = some t) :
    t.policyId.isSome = true := by
  refine AggregateRoot.state_invariant (thingRules config)
    (fun state => ∀ t, state = some t → t.policyId.isSome = true) nofun ?_ id steps t h
  intro thing now revision c event response created deleted next hinv hdecided happlied t heq
  cases heq
  obtain ⟨change, rfl, haccepts⟩ := decide_mutation hdecided
  rcases Aggregate.apply_cases happlied with
    ⟨-, hnone, made, hmade, rfl⟩ | ⟨-, current, modified, hsome, hmodified, rfl⟩
  · rw [hnone] at haccepts
    cases haccepts with
    | created _ t _ accepted =>
      cases hmade
      exact (Setting.own_of_acceptThing accepted).2
  · rw [hsome] at haccepts
    obtain ⟨rfl, -⟩ := Option.filter_eq_some_iff.mp hsome
    have hmodified : current.after _ = .ok modified := hmodified
    show modified.policyId.isSome = true
    cases haccepts with
    | replaced _ _ t _ accepted =>
      cases hmodified
      exact (Setting.own_of_acceptThing accepted).2
    | deleted =>
      cases hmodified
      exact hinv current rfl
    | policyAssigned | written => exact (kept_of_after hmodified nofun nofun).2.2 (hinv current rfl)
    | removed _ _ inside =>
      have hpart : ∀ item, ThingChange.removed item = .removed .whole → item = .whole :=
        fun _ heq => ThingChange.removed.inj heq
      exact (kept_of_after hmodified nofun (mt (hpart _) inside)).2.2 (hinv current rfl)

end ThingRules

/-! ## The journal -/

/-- The bookkeeping of an entity as a journal tells it. -/
structure Books {α γ : Type} {kind : EntityKind} [Change γ] [Aggregate α kind γ]
    (life : LifeEvents) (journal : List JournalRecord) (entity : α) : Prop where
  /-- The last record has the time of the last modification, and tells whether the entity ended. -/
  latest : ∃ last, journal.getLast? = some last ∧
    (Aggregate.book entity).modified = some last.timestamp ∧
      ((Aggregate.book entity).lifecycle = .deleted ↔ last.eventType = life.deletion)
  /-- The last record of a creation has the time of creation. -/
  opening : ∃ first, (journal.filter fun r => r.eventType = life.creation).getLast? = some first ∧
    (Aggregate.book entity).created = some first.timestamp

namespace AggregateRoot

variable {α γ ρ : Type} {kind : EntityKind} [Change γ] [Aggregate α kind γ] {life : LifeEvents}

/-- A journal with one more record tells the bookkeeping of what the event made of the entity. -/
theorem books_append {event : Event kind γ} {entity : Option α} {next : α}
    {journal : List JournalRecord} (hmoves : Aggregate.Moves life event entity next)
    (hbooks : ∀ current, entity = some current → Books life journal current) :
    Books life (journal ++ [event.toRecord]) next where
  latest := ⟨event.toRecord, by rw [List.getLast?_concat], hmoves.modified, hmoves.ends⟩
  opening := by
    rw [List.filter_append]
    by_cases htype : Change.eventType event.change = life.creation
    · have hkept : ([event.toRecord].filter fun r => r.eventType = life.creation) =
          [event.toRecord] := List.filter_cons_of_pos (decide_eq_true htype)
      rw [hkept]
      exact ⟨event.toRecord, by rw [List.getLast?_concat], hmoves.begins htype⟩
    · have hdropped : ([event.toRecord].filter fun r => r.eventType = life.creation) = [] :=
        List.filter_cons_of_neg fun htrue => htype (of_decide_eq_true htrue)
      obtain ⟨current, hcurrent, hages⟩ := hmoves.ages htype
      obtain ⟨first, hfirst, hcreated⟩ := (hbooks current hcurrent).opening
      rw [hdropped, List.append_nil]
      exact ⟨first, hfirst, hages _ hcreated⟩

/-- Nothing is stored without a record, and the journal tells the bookkeeping of what is stored
under the id of the root. -/
def Told (life : LifeEvents) (root : AggregateRoot α kind) : Prop :=
  (root.state = none ↔ root.journal = []) ∧ ∀ entity, root.state = some entity →
    Aggregate.id entity = root.id ∧ Books life root.journal entity

/-- After every run the journal tells the bookkeeping of the entity. -/
theorem told_run [LawfulAggregate α] {rules : CommandRules α kind γ ρ}
    (haddressed : rules.Addressed) (hkeeps : rules.KeepsBooks life) (id : EntityId kind)
    (steps : List (Timestamp × Command kind ρ)) :
    ((new id : AggregateRoot α kind).run rules steps).Told life := by
  refine run_invariant rules (Told life) ?_ (new id) steps ⟨⟨fun _ => rfl, fun _ => rfl⟩, nofun⟩
  rintro root now c event next ⟨-, htold⟩ hstores
  obtain ⟨response, created, deleted, hdecided⟩ := hstores.decided
  have hmoves := hkeeps.moves hdecided hstores.applied
  refine ⟨⟨nofun, fun hnil => ?_⟩, ?_⟩
  · exact absurd hnil (List.append_ne_nil_of_right_ne_nil _ (List.cons_ne_nil _ _))
  · rintro entity heq
    cases heq
    refine ⟨?_, books_append hmoves fun current hcurrent => (htold current hcurrent).2⟩
    calc Aggregate.id next
        = event.entityId := hmoves.own
      _ = c.entityId := haddressed _ _ _ _ _ _ _ _ hdecided
      _ = root.id := hstores.addressed

/-- The records of a journal carry the revisions from one on, as far as words go. -/
theorem numbered_run [LawfulAggregate α] {rules : CommandRules α kind γ ρ}
    (hnumbered : rules.Numbered) (id : EntityId kind)
    (steps : List (Timestamp × Command kind ρ)) (i : Nat) (record : JournalRecord)
    (h : ((new id : AggregateRoot α kind).run rules steps).journal[i]? = some record) :
    record.revision = ⟨saturate (i + 1)⟩ := by
  have hrun := run_invariant rules
    (fun root => root.Counts ∧ ∀ (i : Nat) (record : JournalRecord),
      root.journal[i]? = some record → record.revision = ⟨saturate (i + 1)⟩)
    ?_ (new id) steps ⟨rfl, nofun⟩
  · exact hrun.2 i record h
  · rintro root now c event next ⟨hcounts, hrecords⟩ hstores
    refine ⟨hcounts.store hnumbered hstores, fun i record hrecord => ?_⟩
    have hrecord : (root.journal ++ [event.toRecord])[i]? = some record := hrecord
    rw [List.getElem?_append] at hrecord
    split at hrecord
    · exact hrecords i record hrecord
    · obtain ⟨response, created, deleted, hdecided⟩ := hstores.decided
      obtain ⟨hzero, heq⟩ := List.getElem?_eq_some_iff.mp hrecord
      have hlast : i = root.journal.length := by
        rw [List.length_singleton] at hzero
        omega
      subst hlast
      rw [← heq]
      calc ([event.toRecord][root.journal.length - root.journal.length]).revision
          = event.revision := by simp only [List.getElem_singleton]; rfl
        _ = (Aggregate.revision root.state).next := hnumbered _ _ _ _ _ _ _ _ hdecided
        _ = ⟨saturate (root.journal.length + 1)⟩ := by
          rw [hcounts, ← saturate_toNat_add_one]
          rfl

/-- The journal of a root counts the revisions and tells the bookkeeping of the entity. -/
structure Recorded (life : LifeEvents) (id : EntityId kind) (root : AggregateRoot α kind) :
    Prop where
  own : root.id = id
  numbered : ∀ (i : Nat) (record : JournalRecord), root.journal[i]? = some record →
    record.revision.number.toNat = i + 1
  counted : root.revision.number.toNat = root.journal.length
  begun : root.state = none ↔ root.journal = []
  owned : ∀ entity, root.state = some entity → Aggregate.id entity = id
  booked : ∀ entity, root.state = some entity → Books life root.journal entity

/-- After a run with fewer mutations than there are revisions, the journal counts the revisions and
tells the bookkeeping. -/
theorem recorded_run [LawfulAggregate α] {rules : CommandRules α kind γ ρ}
    (haddressed : rules.Addressed) (hnumbered : rules.Numbered) (hkeeps : rules.KeepsBooks life)
    (id : EntityId kind) (steps : List (Timestamp × Command kind ρ))
    (hfew : ((new id : AggregateRoot α kind).outcomes rules steps).countP Outcome.isMutation <
      UInt64.size - 1) :
    ((new id : AggregateRoot α kind).run rules steps).Recorded life id := by
  have hlength := length_journal_run rules (new id : AggregateRoot α kind) steps
  rw [show (new id : AggregateRoot α kind).journal.length = 0 from rfl, Nat.zero_add] at hlength
  obtain ⟨hbegun, htold⟩ := told_run haddressed hkeeps id steps
  have hid := id_run rules id steps
  exact
    { own := hid
      numbered := fun i record hrecord => by
        have hi := (List.getElem?_eq_some_iff.mp hrecord).1
        rw [numbered_run hnumbered id steps i record hrecord, toNat_saturate]
        omega
      counted := by
        show (Aggregate.revision _).number.toNat = _
        rw [counts_run hnumbered id steps, toNat_saturate]
        omega
      begun := hbegun
      owned := fun entity hentity => (htold entity hentity).1.trans hid
      booked := fun entity hentity => (htold entity hentity).2 }

/-- After every run with fewer mutations than words can count, whatever the commands propose as
bookkeeping, the journal counts the revisions and tells the bookkeeping of the entity: for policies
and for things. A thing that is stored has a policy. -/
theorem run_keeps_books :
    (∀ (config : PolicyConfig) (id : PolicyId) (steps : List (Timestamp × PolicyCommand)),
      ((new id : AggregateRoot Policy .policy).outcomes (policyRules config) steps).countP
          Outcome.isMutation < UInt64.size - 1 →
        ((new id : AggregateRoot Policy .policy).run (policyRules config) steps).Recorded
          PolicyChange.lifeEvents id) ∧
    (∀ (config : ThingConfig) (id : ThingId) (steps : List (Timestamp × ThingCommand)),
      ((new id : AggregateRoot Thing .thing).outcomes (thingRules config) steps).countP
          Outcome.isMutation < UInt64.size - 1 →
        let root := (new id : AggregateRoot Thing .thing).run (thingRules config) steps
        root.Recorded ThingChange.lifeEvents id ∧
          ∀ t, root.state = some t → t.policyId.isSome = true) := by
  constructor
  · intro config id steps hfew
    exact recorded_run (PolicyRules.addressed config) (PolicyRules.numbered config)
      (PolicyRules.keepsBooks config) id steps hfew
  · intro config id steps hfew
    exact ⟨recorded_run (ThingRules.addressed config) (ThingRules.numbered config)
      (ThingRules.keepsBooks config) id steps hfew,
      fun t hstate => ThingRules.policyId_run config id steps t hstate⟩

/-- A lamp whose document claims to be deleted, far revised, and created and modified long ago. -/
def backdatedLamp : Thing :=
  { id := ⟨"org.example:beacon", by decide⟩, book := ⟨.deleted, ⟨40⟩, some ⟨1⟩, some ⟨2⟩⟩ }

/-- The lamp is created, replaced, deleted and created again. -/
def lampCommands : List (Timestamp × ThingCommand) :=
  [(⟨5⟩, .create backdatedLamp), (⟨7⟩, .replace backdatedLamp), (⟨9⟩, .remove .whole),
    (⟨11⟩, .replace backdatedLamp)].map fun (time, request) =>
      (time, ⟨backdatedLamp.id, .empty, request⟩)

/-- A policy whose document claims the same. -/
def backdatedPolicy : Policy := { PolicyRules.ownersPolicy with book := backdatedLamp.book }

/-- The policy is created and replaced. -/
def backdatedCommands : List (Timestamp × PolicyCommand) :=
  [(⟨5⟩, .create backdatedPolicy), (⟨7⟩, .replace backdatedPolicy)].map fun (time, request) =>
    (time, ⟨backdatedPolicy.id, .empty, request⟩)

/-- The documents claim in vain: the lamp was created by the fourth command and the policy by the
first. -/
theorem run_keeps_books_backdated :
    (((new backdatedPolicy.id : AggregateRoot Policy .policy).run (policyRules .standard)
        backdatedCommands).Recorded PolicyChange.lifeEvents backdatedPolicy.id ∧
      ((new backdatedPolicy.id : AggregateRoot Policy .policy).run (policyRules .standard)
        backdatedCommands).state.map Policy.book = some ⟨.active, ⟨2⟩, some ⟨5⟩, some ⟨7⟩⟩) ∧
    (((new backdatedLamp.id : AggregateRoot Thing .thing).run (thingRules .standard)
        lampCommands).Recorded ThingChange.lifeEvents backdatedLamp.id ∧
      ((new backdatedLamp.id : AggregateRoot Thing .thing).run (thingRules .standard)
        lampCommands).state.map Thing.book = some ⟨.active, ⟨4⟩, some ⟨11⟩, some ⟨11⟩⟩) := by
  refine ⟨⟨run_keeps_books.1 .standard backdatedPolicy.id backdatedCommands ?_, ?_⟩,
    (run_keeps_books.2 .standard backdatedLamp.id lampCommands ?_).1, ?_⟩
  · decide +kernel
  · decide +kernel
  · decide +kernel
  · decide +kernel

end AggregateRoot

end GuardedThings
