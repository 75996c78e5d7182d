import GuardedThings.Proofs.Aggregate.Run
import GuardedThings.Proofs.Policy.Decisions
import GuardedThings.Proofs.Policy.WireForm
import GuardedThings.Proofs.Thing.Decisions
import GuardedThings.Proofs.Thing.WireForm

/-!
# Roots recovered from their journals

The live root applies the events themselves; a recovered root decodes them from
the journal and applies them to nothing. Both end at the same entity:
* appending the record of an event that applies extends the replay by this event
  (`replay_append`), because an event is recovered from its record and because
  commands only emit events about the entity they are addressed to
  (`CommandRules.Addressed`);
* so what the journal replays to is the entity after every run (`replays_run`).

`recover_run` says so for policies and for things, together with what a single
command leaves behind.
-/

set_option autoImplicit false

namespace GuardedThings

/-- The events that commands emit are about the entity they are addressed to. -/
def CommandRules.Addressed {α γ ρ : Type} {kind : EntityKind} [Change γ] [Aggregate α kind γ]
    (rules : CommandRules α kind γ ρ) : Prop :=
  ∀ (now : Timestamp) (entity : Option α) (revision : Revision) (c : Command kind ρ)
    (event : Event kind γ) (response : Response) (created deleted : Bool),
    rules.decide now entity revision c = .mutation event response created deleted →
      event.entityId = c.entityId

/-- The events of policy commands are about the policies they are addressed to. -/
theorem PolicyRules.addressed (config : PolicyConfig) : (policyRules config).Addressed := by
  intro now entity revision c event response created deleted h
  obtain ⟨change, rfl, -⟩ := PolicyRules.decide_mutation h
  rfl

/-- The events of thing commands are about the things they are addressed to. -/
theorem ThingRules.addressed (config : ThingConfig) : (thingRules config).Addressed := by
  intro now entity revision c event response created deleted h
  obtain ⟨change, rfl, -⟩ := ThingRules.decide_mutation h
  rfl

namespace AggregateRoot

variable {α γ ρ : Type} {kind : EntityKind} [Change γ] [Aggregate α kind γ]

/-! ## One command -/

/-- What a command that ended so has made of a root: nothing, or it stored the event of its
mutation. -/
def Leaves (root after : AggregateRoot α kind) : Outcome kind γ → Prop
  | .mutation event _ _ _ =>
    ∃ next, Aggregate.apply event root.state = .ok next ∧ after = root.store event next
  | .query _ => after = root
  | .failed _ => after = root

/-- Handling a command stores the event of a mutation, and otherwise nothing. -/
theorem leaves_handle (rules : CommandRules α kind γ ρ) (root : AggregateRoot α kind)
    (now : Timestamp) (c : Command kind ρ) :
    root.Leaves (root.handle rules now c).1 (root.handle rules now c).2 := by
  unfold handle
  split
  · exact rfl
  · cases rules.execute now root.state c with
    | query response => exact rfl
    | failed failure => exact rfl
    | mutation event response created deleted =>
      cases happlied : Aggregate.apply event root.state with
      | error failure =>
        simp only [happlied]
        exact rfl
      | ok next =>
        simp only [happlied]
        exact ⟨next, happlied, rfl⟩

/-- Only mutations change a root. -/
theorem Leaves.eq_self {root after : AggregateRoot α kind} {outcome : Outcome kind γ}
    (h : root.Leaves after outcome) (hkept : outcome.isMutation = false) : after = root := by
  cases outcome with
  | mutation event response created deleted => cases hkept
  | query response => exact h
  | failed failure => exact h

/-- Every mutation stores an event. -/
theorem Leaves.exists_store {root after : AggregateRoot α kind} {outcome : Outcome kind γ}
    (h : root.Leaves after outcome) (hmutation : outcome.isMutation = true) :
    ∃ event next, Aggregate.apply event root.state = .ok next ∧ after = root.store event next := by
  obtain ⟨event, response, created, deleted, rfl⟩ := Outcome.isMutation_iff.mp hmutation
  exact ⟨event, h⟩

/-! ## The replay of a journal -/

/-- The journal of a root replays to its entity. -/
def Replays (root : AggregateRoot α kind) : Prop :=
  replay root.id none root.journal = .ok root.state

/-- A journal is replayed by replaying its front and, from there, its back. -/
theorem replay_split (id : EntityId kind) (start : Option α) (front back : List JournalRecord) :
    replay id start (front ++ back) =
      (do replay id (← replay id start front) back : Except Failure (Option α)) := by
  -- The entity the replay starts from moves along.
  induction front generalizing start with
  | nil => rfl
  | cons record rest ih =>
    rw [List.cons_append, replay, replay, bind_assoc]
    refine bind_congr fun event => ?_
    split
    · rfl
    · rw [bind_assoc]
      exact bind_congr fun next => ih (some next)

/-- The first record is recovered, is about the entity and applies, and then the others are
replayed. -/
theorem replay_cons_eq_ok_iff (id : EntityId kind) (start after : Option α)
    (record : JournalRecord) (rest : List JournalRecord) :
    replay id start (record :: rest) = .ok after ↔
      ∃ event next, Event.ofRecord record = .ok event ∧ event.entityId = id ∧
        Aggregate.apply event start = .ok next ∧ replay id (some next) rest = .ok after := by
  rw [replay, bind_eq_ok_iff]
  constructor
  · rintro ⟨event, hevent, h⟩
    split at h
    · cases h
    · rename_i hown
      obtain ⟨next, hnext, hrest⟩ := (bind_eq_ok_iff _ _ _).mp h
      exact ⟨event, next, hevent, Decidable.not_not.mp hown, hnext, hrest⟩
  · rintro ⟨event, next, hevent, hown, hnext, hrest⟩
    refine ⟨event, hevent, ?_⟩
    rw [if_neg (not_not_intro hown)]
    exact (bind_eq_ok_iff _ _ _).mpr ⟨next, hnext, hrest⟩

/-- The last record is applied to what the records before it replay to. -/
theorem replay_concat_eq_ok_iff (id : EntityId kind) (start after : Option α)
    (front : List JournalRecord) (record : JournalRecord) :
    replay id start (front ++ [record]) = .ok after ↔
      ∃ entity event next, replay id start front = .ok entity ∧
        Event.ofRecord record = .ok event ∧ event.entityId = id ∧
          Aggregate.apply event entity = .ok next ∧ after = some next := by
  rw [replay_split, bind_eq_ok_iff]
  refine exists_congr fun entity => ?_
  rw [replay_cons_eq_ok_iff]
  constructor
  · rintro ⟨hentity, event, next, hevent, hown, hnext, hafter⟩
    cases hafter
    exact ⟨event, next, hentity, hevent, hown, hnext, rfl⟩
  · rintro ⟨event, next, hentity, hevent, hown, hnext, rfl⟩
    exact ⟨hentity, event, next, hevent, hown, hnext, rfl⟩

/-- The record of an event about the entity makes the replay apply this event, if it applies. -/
theorem replay_append [LawfulChange γ] {id : EntityId kind} {event : Event kind γ} {next : α}
    (hid : event.entityId = id) (start entity : Option α) (journal : List JournalRecord)
    (hreplay : replay id start journal = .ok entity)
    (happlied : Aggregate.apply event entity = .ok next) :
    replay id start (journal ++ [event.toRecord]) = .ok (some next) :=
  (replay_concat_eq_ok_iff _ _ _ _ _).mpr
    ⟨entity, event, next, hreplay, event.ofRecord_toRecord, hid, happlied, rfl⟩

/-- Storing the event of a command keeps the journal in step with the entity. -/
theorem Replays.store [LawfulChange γ] {rules : CommandRules α kind γ ρ}
    {root : AggregateRoot α kind} {now : Timestamp} {c : Command kind ρ} {event : Event kind γ}
    {next : α} (haddressed : rules.Addressed) (hreplays : root.Replays)
    (hstores : root.Stores rules now c event next) : (root.store event next).Replays := by
  obtain ⟨response, created, deleted, hdecided⟩ := hstores.decided
  have hid : event.entityId = root.id :=
    (haddressed _ _ _ _ _ _ _ _ hdecided).trans hstores.addressed
  show replay root.id none (root.journal ++ [event.toRecord]) = .ok (some next)
  exact replay_append hid none root.state root.journal hreplays hstores.applied

/-- After every run the journal replays to the entity. -/
theorem replays_run [LawfulChange γ] {rules : CommandRules α kind γ ρ}
    (haddressed : rules.Addressed) (id : EntityId kind)
    (steps : List (Timestamp × Command kind ρ)) :
    ((new id : AggregateRoot α kind).run rules steps).Replays := by
  refine run_invariant rules Replays ?_ (new id) steps rfl
  intro root now c event next hreplays hstores
  exact hreplays.store haddressed hstores

/-- A root keeps its id in every run. -/
theorem id_run (rules : CommandRules α kind γ ρ) (id : EntityId kind)
    (steps : List (Timestamp × Command kind ρ)) :
    ((new id : AggregateRoot α kind).run rules steps).id = id := by
  refine run_invariant rules (fun root => root.id = id) ?_ (new id) steps rfl
  intro root now c event next hid _
  exact hid

/-- A root whose journal replays to its entity is recovered from it. -/
theorem Replays.recover_eq {root : AggregateRoot α kind} (h : root.Replays) :
    recover root.id root.journal = .ok root := by
  unfold recover
  rw [h]
  rfl

/-- A root can be recovered from its journal at every point of its life, and what it records next is
the event of a mutation and nothing else: for policies and for things, whatever the settings, the
commands, their headers and their times. -/
theorem recover_run :
    (∀ (config : PolicyConfig) (id : PolicyId) (steps : List (Timestamp × PolicyCommand)),
      let root : AggregateRoot Policy .policy := (new id).run (policyRules config) steps
      recover id root.journal = .ok root ∧
        ∀ (now : Timestamp) (c : PolicyCommand),
          root.Leaves (root.handle (policyRules config) now c).1
            (root.handle (policyRules config) now c).2) ∧
    (∀ (config : ThingConfig) (id : ThingId) (steps : List (Timestamp × ThingCommand)),
      let root : AggregateRoot Thing .thing := (new id).run (thingRules config) steps
      recover id root.journal = .ok root ∧
        ∀ (now : Timestamp) (c : ThingCommand),
          root.Leaves (root.handle (thingRules config) now c).1
            (root.handle (thingRules config) now c).2) := by
  constructor
  · intro config id steps
    have hrecovered := (replays_run (PolicyRules.addressed config) id steps).recover_eq
    rw [id_run] at hrecovered
    exact ⟨hrecovered, leaves_handle _ _⟩
  · intro config id steps
    have hrecovered := (replays_run (ThingRules.addressed config) id steps).recover_eq
    rw [id_run] at hrecovered
    exact ⟨hrecovered, leaves_handle _ _⟩

/-! ## A bench in a park -/

/-- A bench without attributes. -/
def bench : Thing := { id := ⟨"org.example:bench", by decide⟩ }

/-- The color of the bench. -/
def benchColor : Pointer := .ofSegments ["color"]

/-- The bench is put up and painted; it has no roof that could be taken down. -/
def benchRun : List (Timestamp × ThingCommand) :=
  [(⟨0⟩, ⟨bench.id, .empty, .create bench⟩),
    (⟨1⟩, ⟨bench.id, .empty, .write (.attributeAt benchColor (.string "green"))⟩),
    (⟨2⟩, ⟨bench.id, .empty, .remove (.feature ⟨"roof", by decide⟩)⟩)]

/-- Two of the three commands are recorded, and the root is recovered from their records. A question
leaves it as it is, and when the bench is painted again, one event more is stored. -/
theorem recover_run_bench :
    let rules := thingRules .standard
    let root : AggregateRoot Thing .thing := (new bench.id).run rules benchRun
    let ask : ThingCommand := ⟨bench.id, .empty, .retrieve .whole⟩
    let paint : ThingCommand :=
      ⟨bench.id, .empty, .write (.attributeAt benchColor (.string "red"))⟩
    root.journal.map JournalRecord.eventType =
        ["things.events:thingCreated", "things.events:attributeCreated"] ∧
      recover bench.id root.journal = .ok root ∧
      (root.handle rules ⟨3⟩ ask).1 = root ∧
      ∃ event next, Aggregate.apply event root.state = .ok next ∧
        (root.handle rules ⟨3⟩ paint).1 = root.store event next := by
  intro rules root ask paint
  obtain ⟨hjournal, hasked, hpainted⟩ : root.journal.map JournalRecord.eventType =
      ["things.events:thingCreated", "things.events:attributeCreated"] ∧
        (root.handle rules ⟨3⟩ ask).2.isMutation = false ∧
        (root.handle rules ⟨3⟩ paint).2.isMutation = true := by
    decide +kernel
  have hrun : recover bench.id root.journal = .ok root ∧
      ∀ now c, root.Leaves (root.handle rules now c).1 (root.handle rules now c).2 :=
    recover_run.2 .standard bench.id benchRun
  -- From here on the root is any root with these properties, so that nothing runs it again.
  clear_value root
  obtain ⟨hrecovered, hleaves⟩ := hrun
  exact ⟨hjournal, hrecovered, (hleaves ⟨3⟩ ask).eq_self hasked,
    (hleaves ⟨3⟩ paint).exists_store hpainted⟩

end AggregateRoot

end GuardedThings
