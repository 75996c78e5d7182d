import GuardedThings.Aggregate.Event
import GuardedThings.Bookkeeping

/-!
# Evolution of an entity

An entity is what its events made of it. Creation events apply where there is
no active entity, all others only to an active one; every event sets the
revision and the time of the last modification.
-/

set_option autoImplicit false

namespace GuardedThings

/-- A kind of entity that events create and modify. -/
class Aggregate (α : Type) (kind : outParam EntityKind) (γ : outParam Type) [Change γ] where
  id : α → EntityId kind
  book : α → Bookkeeping
  withBook : α → Bookkeeping → α
  /-- The entity document. -/
  toJson : α → Json
  /-- The entity a creation event brings to life. -/
  create : Event kind γ → Except Failure α
  /-- The entity after any other event. -/
  modify : Event kind γ → α → Except Failure α

namespace Aggregate

variable {α γ : Type} {kind : EntityKind} [Change γ] [Aggregate α kind γ]

/-- Whether the entity accepts commands. -/
def isActive (entity : α) : Bool := (book entity).lifecycle.isActive

/-- The entity, if it exists and was not deleted. -/
def active? (entity : Option α) : Option α := entity.filter isActive

/-- The revision of an entity; zero if it does not exist. -/
def revision (entity : Option α) : Revision :=
  match entity with
  | some e => (book e).revision
  | none => .initial

/-- The failure to apply an event. -/
def notApplicable (event : Event kind γ) (flaw : EventFlaw) : Failure :=
  .eventNotApplicable (Change.eventType event.change) event.entityId.text flaw

/-- The entity with its creation time set. -/
def withCreated (entity : α) (t : Timestamp) : α :=
  withBook entity { book entity with created := some t }

/-- The entity with the revision and the time of an event. -/
def stamp (event : Event kind γ) (entity : α) : α :=
  withBook entity
    { book entity with revision := event.revision, modified := some event.timestamp }

/-- The entity after an event. -/
def apply (event : Event kind γ) (entity : Option α) : Except Failure α :=
  if entity.any fun e => id e ≠ event.entityId then .error (notApplicable event .otherEntity)
  else
    match Change.isCreation event.change, active? entity with
    | true, some _ => .error (notApplicable event .entityExists)
    | true, none => return stamp event (withCreated (← create event) event.timestamp)
    | false, some e => return stamp event (← modify event e)
    | false, none => .error (notApplicable event .entityMissing)

end Aggregate

end GuardedThings
