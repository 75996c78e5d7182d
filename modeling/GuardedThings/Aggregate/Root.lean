import GuardedThings.Aggregate.Execution

/-!
# Aggregate roots

A root keeps the journal of one entity and the entity its events have made.
Only mutations change it; replaying the journal rebuilds it.
-/

set_option autoImplicit false

namespace GuardedThings

/-- An entity with its journal. -/
structure AggregateRoot (α : Type) (kind : EntityKind) where
  id : EntityId kind
  /-- The entity; a deleted one is kept. -/
  state : Option α
  /-- The records of all events, the first one in front. -/
  journal : List JournalRecord
deriving DecidableEq

namespace AggregateRoot

variable {α γ ρ : Type} {kind : EntityKind} [Change γ] [Aggregate α kind γ]

/-- The root of an entity that does not exist. -/
def new (id : EntityId kind) : AggregateRoot α kind := ⟨id, none, []⟩

/-- The revision of the entity; zero if it does not exist. -/
def revision (root : AggregateRoot α kind) : Revision := Aggregate.revision root.state

/-- The entity after the events of the records. -/
def replay (id : EntityId kind) : Option α → List JournalRecord → Except Failure (Option α)
  | state, [] => .ok state
  | state, r :: rest => do
    let event ← Event.ofRecord r
    if event.entityId ≠ id then .error (.entityIdMismatch id.text event.entityId.text)
    else replay id (some (← Aggregate.apply event state)) rest

/-- The root with the given journal. -/
def recover (id : EntityId kind) (journal : List JournalRecord) :
    Except Failure (AggregateRoot α kind) :=
  return ⟨id, ← replay id none journal, journal⟩

/-- Handles a command and stores the event of a mutation. -/
def handle (root : AggregateRoot α kind) (rules : CommandRules α kind γ ρ) (now : Timestamp)
    (c : Command kind ρ) : AggregateRoot α kind × Outcome kind γ :=
  if c.entityId ≠ root.id then
    (root, .failed (.entityIdMismatch root.id.text c.entityId.text))
  else
    match rules.execute now root.state c with
    | .mutation event response created deleted =>
      match Aggregate.apply event root.state with
      | .ok next =>
        ({ root with state := some next, journal := root.journal ++ [event.toRecord] },
          .mutation event response created deleted)
      | .error failure => (root, .failed failure)
    | outcome => (root, outcome)

end AggregateRoot

end GuardedThings
