import GuardedThings.Aggregate.Event
import GuardedThings.Headers

/-!
# Commands and responses

A command is a request to one entity, with headers. It ends in a mutation (an
event to be stored and a response), in a response alone, or in a failure.
-/

set_option autoImplicit false

namespace GuardedThings

/-- A request to one entity. -/
structure Command (kind : EntityKind) (ρ : Type) where
  entityId : EntityId kind
  headers : Headers
  request : ρ
deriving DecidableEq

namespace Command

variable {kind : EntityKind} {ρ γ : Type}

/-- The fields of a command. -/
def fields [Wire ρ] {σ : Type} [Source σ] : Fields σ (Command kind ρ) :=
  ((Fields.required "entity_id" Wire.decode).and <|
    (Fields.defaulted "headers" .empty Wire.decode).and
      (Fields.required "payload" Wire.decode)).map
    fun (entityId, headers, request) => { entityId, headers, request }

instance [Wire ρ] : Wire (Command kind ρ) where
  encode c := Json.ofFields
    [("entity_id", some (Wire.encode c.entityId)), ("headers", some (Wire.encode c.headers)),
      ("payload", some (Wire.encode c.request))]
  decode := fields.decode

/-- The event by which a command changes its entity; it keeps correlation id and metadata. -/
def event (c : Command kind ρ) (revision : Revision) (now : Timestamp) (change : γ) :
    Event kind γ :=
  { entityId := c.entityId
    revision
    timestamp := now
    correlationId := c.headers.correlationId
    metadata := c.headers.metadata
    change }

end Command

/-- The answer to a command that was carried out. -/
structure Response where
  entityId : String
  type : String
  status : Status
  entity : Option Json
  headers : Headers
deriving DecidableEq

namespace Response

/-- The response with a tag, or without one. -/
def withTag (r : Response) (tag : Option EntityTag) : Response :=
  { r with headers := { r.headers with etag := tag } }

/-- The fields of a response. -/
def fields {σ : Type} [Source σ] : Fields σ Response :=
  ((Fields.required "entity_id" Wire.decode).and <|
    (Fields.required "response_type" Wire.decode).and <|
    (Fields.required "status" Wire.decode).and <|
    (Fields.optional "entity" Wire.decode).and
      (Fields.defaulted "headers" .empty Wire.decode)).map
    fun (entityId, type, status, entity, headers) => { entityId, type, status, entity, headers }

instance : Wire Response where
  encode r := Json.ofFields
    [("entity", r.entity), ("entity_id", some (.string r.entityId)),
      ("headers", some (Wire.encode r.headers)), ("response_type", some (.string r.type)),
      ("status", some (Wire.encode r.status))]
  decode := fields.decode

end Response

/-- The answer to a command that failed. -/
structure ErrorResponse where
  entityId : String
  status : Status
  error : String
  message : String
  description : String
  headers : Headers
deriving DecidableEq

namespace ErrorResponse

/-- The answer to a command with these headers that failed. -/
def ofFailure (entityId : String) (f : Failure) (headers : Headers) : ErrorResponse :=
  { entityId
    status := f.status
    error := f.code
    message := f.message
    description := f.description
    headers := headers.forResponse }

/-- The fields of an error response. -/
def fields {σ : Type} [Source σ] : Fields σ ErrorResponse :=
  ((Fields.required "entity_id" Wire.decode).and <|
    (Fields.required "status" Wire.decode).and <|
    (Fields.required "error" Wire.decode).and <|
    (Fields.required "message" Wire.decode).and <|
    (Fields.required "description" Wire.decode).and
      (Fields.defaulted "headers" .empty Wire.decode)).map
    fun (entityId, status, error, message, description, headers) =>
      { entityId, status, error, message, description, headers }

instance : Wire ErrorResponse where
  encode r := Json.ofFields
    [("description", some (.string r.description)), ("entity_id", some (.string r.entityId)),
      ("error", some (.string r.error)), ("headers", some (Wire.encode r.headers)),
      ("message", some (.string r.message)), ("status", some (Wire.encode r.status))]
  decode := fields.decode

end ErrorResponse

/-- How a command ends. -/
inductive Outcome (kind : EntityKind) (γ : Type) where
  /-- The event is to be stored; `created` and `deleted` tell whether the entity begins or ends. -/
  | mutation (event : Event kind γ) (response : Response) (created deleted : Bool)
  /-- There is nothing to store. -/
  | query (response : Response)
  /-- The command was refused. -/
  | failed (failure : Failure)
deriving DecidableEq

end GuardedThings
