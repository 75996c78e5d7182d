import GuardedThings.Clock
import GuardedThings.Wire.Basic

/-!
# Events and the journal

An event is a fact about one entity, with the revision it leads to and the
time it happened. The journal stores it as a record that names the type of the
event beside its payload; the name of a change and the namespace of its kind
make up the type.
-/

set_option autoImplicit false

namespace GuardedThings

/-- The payloads of the events of one kind of entity. -/
class Change (γ : Type) where
  /-- The kind of entity, as error messages name it. -/
  aggregate : String
  /-- The namespace of the event types. -/
  space : String
  /-- The name of a change. -/
  name : γ → String
  /-- Whether the change brings an entity to life. -/
  isCreation : γ → Bool
  /-- The fields of a change. -/
  payload : γ → Json
  /-- How changes are decoded, by name. -/
  table : {σ : Type} → [Source σ] → List (String × VariantBody σ γ)

namespace Change

variable {γ : Type} [Change γ]

/-- The names of all changes. -/
def names (γ : Type) [Change γ] : List String :=
  (table : List (String × VariantBody Json γ)).map (·.1)

/-- The event type of a change. -/
def eventType (c : γ) : String := space γ ++ ":" ++ name c

/-- Writes a change under its name. -/
def encode (c : γ) : Json := Json.single (name c) (payload c)

/-- Reads a change. -/
def decode {σ : Type} [Source σ] : Decoder σ γ := VariantBody.decode table

/-- The name in an event type of this namespace, if there is such a change. -/
def nameOf? (γ : Type) [Change γ] (eventType : String) : Option String :=
  let front := (space γ).toList ++ [':']
  if front.isPrefixOf eventType.toList then
    let name := String.ofList (eventType.toList.drop front.length)
    if (names γ).contains name then some name else none
  else none

/-- The change stored in the journal under a type. -/
def ofJournal (eventType : String) (payload : Json) : Except Failure γ :=
  match nameOf? γ eventType with
  | none => .error (.eventTypeUnhandled eventType (aggregate γ))
  | some name =>
    match (VariantBody.decodeNamed table name payload : Except Mismatch γ) with
    | .ok c => .ok c
    | .error mismatch =>
      .error (.jsonInvalid (s!"payload of '{eventType}': " ++ mismatch.message))

end Change

/-- A fact about an entity. -/
structure Event (kind : EntityKind) (γ : Type) where
  entityId : EntityId kind
  /-- The revision the event leads to. -/
  revision : Revision
  timestamp : Timestamp
  correlationId : Option String
  metadata : Option Json
  change : γ
deriving DecidableEq

/-- An event as the journal stores it. -/
structure JournalRecord where
  entityId : String
  revision : Revision
  eventType : String
  timestamp : Timestamp
  correlationId : Option String
  metadata : Option Json
  payload : Json
deriving DecidableEq

namespace Event

variable {kind : EntityKind} {γ : Type} [Change γ]

/-- The journal record of an event. -/
def toRecord (e : Event kind γ) : JournalRecord :=
  { entityId := e.entityId.text
    revision := e.revision
    eventType := Change.eventType e.change
    timestamp := e.timestamp
    correlationId := e.correlationId
    metadata := e.metadata
    payload := Change.payload e.change }

/-- The event of a journal record. -/
def ofRecord (r : JournalRecord) : Except Failure (Event kind γ) := do
  let entityId ← EntityId.parse r.entityId
  let change ← Change.ofJournal r.eventType r.payload
  return { entityId, revision := r.revision, timestamp := r.timestamp,
           correlationId := r.correlationId, metadata := r.metadata, change }

/-- The fields of an event. -/
def fields {σ : Type} [Source σ] : Fields σ (Event kind γ) :=
  ((Fields.required "entity_id" Wire.decode).and <|
    (Fields.required "revision" Wire.decode).and <|
    (Fields.required "timestamp" Wire.decode).and <|
    (Fields.optional "correlation_id" Wire.decode).and <|
    (Fields.optional "metadata" Wire.decode).and (Fields.required "payload" Change.decode)).map
    fun (entityId, revision, timestamp, correlationId, metadata, change) =>
      { entityId, revision, timestamp, correlationId, metadata, change }

instance : Wire (Event kind γ) where
  encode e := Json.ofFields
    [("correlation_id", e.correlationId.map Wire.encode), ("entity_id", some (Wire.encode e.entityId)),
      ("metadata", e.metadata), ("payload", some (Change.encode e.change)),
      ("revision", some (Wire.encode e.revision)), ("timestamp", some (Wire.encode e.timestamp))]
  decode := fields.decode

end Event

namespace JournalRecord

/-- The fields of a journal record. -/
def fields {σ : Type} [Source σ] : Fields σ JournalRecord :=
  ((Fields.required "entity_id" Wire.decode).and <|
    (Fields.required "revision" Wire.decode).and <|
    (Fields.required "event_type" Wire.decode).and <|
    (Fields.required "timestamp" Wire.decode).and <|
    (Fields.optional "correlation_id" Wire.decode).and <|
    (Fields.optional "metadata" Wire.decode).and (Fields.required "payload" Wire.decode)).map
    fun (entityId, revision, eventType, timestamp, correlationId, metadata, payload) =>
      { entityId, revision, eventType, timestamp, correlationId, metadata, payload }

instance : Wire JournalRecord where
  encode r := Json.ofFields
    [("correlation_id", r.correlationId.map Wire.encode), ("entity_id", some (.string r.entityId)),
      ("event_type", some (.string r.eventType)), ("metadata", r.metadata),
      ("payload", some r.payload), ("revision", some (Wire.encode r.revision)),
      ("timestamp", some (Wire.encode r.timestamp))]
  decode := fields.decode

end JournalRecord

end GuardedThings
