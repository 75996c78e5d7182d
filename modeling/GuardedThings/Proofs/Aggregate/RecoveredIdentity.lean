import GuardedThings.Proofs.Aggregate.Lives
import GuardedThings.Proofs.Aggregate.Recovery

/-!
# Whose entity is recovered

A journal is replayed for one id, and each of its records has to be about this
id. A record that creates or replaces the entity holds a second id, the one in
the document of the entity that it brings along, and nobody asks whether the two
are the same. The entity takes the second.

So the replay ends at an entity of its own id exactly if the documents in the
journal all carry that id (`Lifecycles.replays_own_iff`). A document with another
id can only stand in the last record (`Lifecycles.brings_own_before_last`): what
it leaves behind is another entity to every event about the id, and so it stays
as it is for good (`Foreign.apply_eq_error`, `Foreign.handle_eq_self`).
-/

set_option autoImplicit false

namespace GuardedThings

variable {α γ ρ : Type} {kind : EntityKind} [Change γ] [Aggregate α kind γ]

/-- The event of a record brings along the entity with the given id, or none. -/
def JournalRecord.BringsOwn (record : JournalRecord) (broughtId? : γ → Option (EntityId kind))
    (id : EntityId kind) : Prop :=
  ∀ event : Event kind γ, Event.ofRecord record = .ok event →
    ∀ brought, broughtId? event.change = some brought → brought = id

namespace AggregateRoot

/-- A root is recovered iff the journal replays; it has the given id and journal. -/
theorem recover_eq_ok_iff (id : EntityId kind) (journal : List JournalRecord)
    (root : AggregateRoot α kind) :
    recover id journal = .ok root ↔
      replay id none journal = .ok root.state ∧ root.id = id ∧ root.journal = journal := by
  unfold recover
  rw [bind_eq_ok_iff]
  constructor
  · rintro ⟨state, hstate, h⟩
    cases h
    exact ⟨hstate, rfl, rfl⟩
  · rintro ⟨hstate, rfl, rfl⟩
    exact ⟨root.state, hstate, rfl⟩

/-! ## An entity of another id -/

/-- The entity of a root has another id than the root. -/
def Foreign (root : AggregateRoot α kind) : Prop :=
  ∃ entity, root.state = some entity ∧ Aggregate.id entity ≠ root.id

/-- No event about the id of the root applies to it. -/
theorem Foreign.apply_eq_error {root : AggregateRoot α kind} (h : root.Foreign)
    {event : Event kind γ} (hown : event.entityId = root.id) :
    Aggregate.apply event root.state = .error (Aggregate.notApplicable event .otherEntity) := by
  obtain ⟨entity, hstate, hother⟩ := h
  rw [hstate, ← hown] at *
  unfold Aggregate.apply
  rw [Option.any_some, decide_eq_true hother]
  rfl

/-- No command changes the root. -/
theorem Foreign.handle_eq_self {root : AggregateRoot α kind} (h : root.Foreign)
    {rules : CommandRules α kind γ ρ} (haddressed : rules.Addressed) (now : Timestamp)
    (c : Command kind ρ) : (root.handle rules now c).1 = root := by
  rcases handle_cases rules root now c with hsame | ⟨-, event, next, hstores, -⟩
  · exact hsame
  · obtain ⟨response, created, deleted, hdecided⟩ := hstores.decided
    have hown : event.entityId = root.id :=
      (haddressed _ _ _ _ _ _ _ _ hdecided).trans hstores.addressed
    have herror := h.apply_eq_error hown
    rw [hstores.applied] at herror
    cases herror

end AggregateRoot

namespace Aggregate.Lifecycles

open AggregateRoot

variable [LawfulAggregate α] {life : LifeEvents} {broughtId? : γ → Option (EntityId kind)}
  {sound : γ → Prop}

/-- What an event about an id leaves behind has this id exactly if its record brings no other. -/
theorem own_of_apply_iff (h : Lifecycles α life broughtId? sound) {record : JournalRecord}
    {event : Event kind γ} {entity : Option α} {next : α}
    (hevent : Event.ofRecord record = .ok event) (happlied : apply event entity = .ok next) :
    Aggregate.id next = event.entityId ↔ record.BringsOwn broughtId? event.entityId := by
  rw [(h.of_apply happlied).1]
  constructor
  · intro heq event' hevent' brought hbrought
    rw [hevent] at hevent'
    cases hevent'
    rw [hbrought] at heq
    exact heq
  · intro hbrings
    cases hbrought : broughtId? event.change with
    | none => rfl
    | some brought => exact hbrings event hevent brought hbrought

/-- The replay ends at an entity of its own id exactly if no record brings another one. -/
theorem replays_own_iff (h : Lifecycles α life broughtId? sound) {id : EntityId kind}
    {records : List JournalRecord} {entity : Option α}
    (hreplay : replay id none records = .ok entity) :
    (∀ current, entity = some current → Aggregate.id current = id) ↔
      ∀ record ∈ records, record.BringsOwn broughtId? id := by
  -- The journal grows at its end. The last record decides about the entity; that the others bring
  -- their own follows from the last event having been about the entity that it met.
  induction records using List.reverseRecOn generalizing entity with
  | nil =>
    cases hreplay
    exact iff_of_true nofun nofun
  | append_singleton front record ih =>
    obtain ⟨before, event, next, hbefore, hevent, rfl, hnext, rfl⟩ :=
      (replay_concat_eq_ok_iff _ _ _ _ _).mp hreplay
    have hfront : ∀ r ∈ front, r.BringsOwn broughtId? event.entityId := by
      refine (ih hbefore).mp ?_
      rintro current rfl
      exact id_of_apply hnext
    rw [List.forall_mem_append, List.forall_mem_singleton, and_iff_right hfront,
      ← h.own_of_apply_iff hevent hnext]
    simp only [Option.some.injEq, forall_eq']

/-- All records but the last bring their own. -/
theorem brings_own_before_last (h : Lifecycles α life broughtId? sound) {id : EntityId kind}
    {records : List JournalRecord} {entity : Option α}
    (hreplay : replay id none records = .ok entity) :
    ∀ record ∈ records.dropLast, record.BringsOwn broughtId? id := by
  rcases List.eq_nil_or_concat records with rfl | ⟨front, last, rfl⟩
  · exact nofun
  · rw [List.concat_eq_append] at hreplay ⊢
    obtain ⟨before, event, next, hbefore, -, hown, hnext, -⟩ :=
      (replay_concat_eq_ok_iff _ _ _ _ _).mp hreplay
    rw [List.dropLast_concat]
    refine (h.replays_own_iff hbefore).mp ?_
    rintro current rfl
    exact (id_of_apply hnext).trans hown

end Aggregate.Lifecycles

namespace AggregateRoot

/-- What the identity of a recovered root comes to. -/
structure Identified (root : AggregateRoot α kind) (broughtId? : γ → Option (EntityId kind)) :
    Prop where
  own_iff : (∀ entity, root.state = some entity → Aggregate.id entity = root.id) ↔
    ∀ record ∈ root.journal, record.BringsOwn broughtId? root.id
  before_last : ∀ record ∈ root.journal.dropLast, record.BringsOwn broughtId? root.id
  refuses : root.Foreign → ∀ event : Event kind γ, event.entityId = root.id →
    Aggregate.apply event root.state = .error (Aggregate.notApplicable event .otherEntity)

/-- A recovered root has the identity that its records bring along. -/
theorem identified_of_recover [LawfulAggregate α] {life : LifeEvents}
    {broughtId? : γ → Option (EntityId kind)} {sound : γ → Prop}
    (h : Aggregate.Lifecycles α life broughtId? sound) {id : EntityId kind}
    {records : List JournalRecord} {root : AggregateRoot α kind}
    (hrecover : recover id records = .ok root) : root.Identified broughtId? := by
  obtain ⟨hreplay, rfl, rfl⟩ := (recover_eq_ok_iff _ _ _).mp hrecover
  exact ⟨h.replays_own_iff hreplay, h.brings_own_before_last hreplay,
    fun hforeign _ => hforeign.apply_eq_error⟩

/-- A recovered root holds an entity of its own id exactly if no record of the journal brings an
entity with another id along, which none but the last can. If the last one does, no event about the
id applies to the root and no command changes it. The same holds of policies and of things. -/
theorem recovered_identity (policyId : PolicyId) (thingId : ThingId)
    (records : List JournalRecord) :
    (∀ root : AggregateRoot Policy .policy, recover policyId records = .ok root →
      root.id = policyId ∧ root.journal = records ∧ root.Identified PolicyChange.broughtId? ∧
        ∀ (config : PolicyConfig) (now : Timestamp) (c : PolicyCommand), root.Foreign →
          (root.handle (policyRules config) now c).1 = root) ∧
    (∀ root : AggregateRoot Thing .thing, recover thingId records = .ok root →
      root.id = thingId ∧ root.journal = records ∧ root.Identified ThingChange.broughtId? ∧
        ∀ (config : ThingConfig) (now : Timestamp) (c : ThingCommand), root.Foreign →
          (root.handle (thingRules config) now c).1 = root) := by
  constructor
  · intro root hrecover
    obtain ⟨-, hid, hjournal⟩ := (recover_eq_ok_iff _ _ _).mp hrecover
    refine ⟨hid, hjournal, identified_of_recover PolicyChange.lifecycles hrecover, ?_⟩
    intro config now c hforeign
    exact hforeign.handle_eq_self (PolicyRules.addressed config) now c
  · intro root hrecover
    obtain ⟨-, hid, hjournal⟩ := (recover_eq_ok_iff _ _ _).mp hrecover
    refine ⟨hid, hjournal, identified_of_recover ThingChange.lifecycles hrecover, ?_⟩
    intro config now c hforeign
    exact hforeign.handle_eq_self (ThingRules.addressed config) now c

/-! ## A journal with another document in it -/

/-- The id under which the orchard is recovered. -/
def orchardId : PolicyId := ⟨"org.example:orchard", by decide⟩

/-- The id in the document that the journal of the orchard begins with. -/
def meadowId : PolicyId := ⟨"org.example:meadow", by decide⟩

/-- A record about the orchard that brings the meadow along. -/
def orchardRecord : JournalRecord :=
  { entityId := orchardId.text, revision := ⟨1⟩, eventType := "policies.events:policyCreated"
    timestamp := ⟨0⟩, correlationId := none, metadata := none
    payload := Json.single "policy" (Json.single "policyId" (.string meadowId.text)) }

/-- The root that is recovered from it. -/
def orchardRoot : AggregateRoot Policy .policy :=
  { id := orchardId, journal := [orchardRecord]
    state := some
      { Policy.new meadowId with book := ⟨.active, ⟨1⟩, some ⟨0⟩, some ⟨0⟩⟩ } }

/-- The journal of the orchard is recovered, with the meadow in it. -/
theorem recover_orchard : recover orchardId [orchardRecord] = .ok orchardRoot := by
  decide +kernel

/-- The orchard is recovered as a meadow. -/
theorem recovered_identity_differs :
    ¬∀ (id : PolicyId) (records : List JournalRecord) (root : AggregateRoot Policy .policy)
      (state : Policy), recover id records = .ok root → root.state = some state → state.id = id := by
  intro h
  have heq := h orchardId [orchardRecord] orchardRoot _ recover_orchard rfl
  revert heq
  decide

/-- The root of the lamp that was created, replaced and deleted. -/
def lampRoot : AggregateRoot Thing .thing :=
  { id := backdatedLamp.id, journal := Aggregate.lampLife.map Event.toRecord
    state := some { backdatedLamp with book := ⟨.deleted, .initial, some ⟨5⟩, some ⟨5⟩⟩ } }

/-- The journal of the lamp is recovered. -/
theorem recover_lamp :
    recover backdatedLamp.id (Aggregate.lampLife.map Event.toRecord) = .ok lampRoot := by
  decide +kernel

/-- The orchard stays a meadow: no event about it applies, and no command changes it. The lamp is
recovered as itself. -/
theorem recovered_identity_orchard :
    (recover orchardId [orchardRecord] = .ok orchardRoot ∧ orchardRoot.Foreign ∧
      orchardRoot.Identified PolicyChange.broughtId? ∧
        ∀ (now : Timestamp) (c : PolicyCommand),
          (orchardRoot.handle (policyRules .standard) now c).1 = orchardRoot) ∧
    (recover backdatedLamp.id lampRoot.journal = .ok lampRoot ∧ ¬lampRoot.Foreign ∧
      lampRoot.Identified ThingChange.broughtId?) := by
  have hforeign : orchardRoot.Foreign := ⟨_, rfl, by decide⟩
  obtain ⟨-, -, horchard, hstays⟩ :=
    (recovered_identity orchardId backdatedLamp.id [orchardRecord]).1 orchardRoot recover_orchard
  obtain ⟨-, -, hlamp, -⟩ :=
    (recovered_identity orchardId backdatedLamp.id lampRoot.journal).2 lampRoot recover_lamp
  refine ⟨⟨recover_orchard, hforeign, horchard, fun now c => hstays .standard now c hforeign⟩,
    recover_lamp, ?_, hlamp⟩
  rintro ⟨entity, hstate, hother⟩
  cases hstate
  exact hother rfl

end AggregateRoot

end GuardedThings
