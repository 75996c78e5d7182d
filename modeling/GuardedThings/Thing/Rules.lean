import GuardedThings.Aggregate.Execution
import GuardedThings.Thing.Request

/-!
# Rules of things

How requests to things are decided. A thing that is stored fits the size limit
and has a policy. A piece that is new where it is put is answered with its
content.
-/

set_option autoImplicit false

namespace GuardedThings.ThingRules

/-- The tag of a part of a thing: the revision for the whole, the content for the rest. -/
def tag (r : ThingRequest) (t : Thing) : Option EntityTag :=
  match r.part with
  | .whole => some (.ofRevision t.book.revision)
  | part => (part.place.get? t.toJson).map .ofContent

/-- What a request is decided with. -/
structure Setting where
  config : ThingConfig
  now : Timestamp
  /-- The revision of the next event. -/
  revision : Revision
  command : ThingCommand

namespace Setting

variable (s : Setting)

/-- The id of the addressed thing. -/
def id : ThingId := s.command.entityId

/-- A response to the command. -/
def response (status : Status) (entity : Option Json) : Response :=
  { entityId := s.id.text
    type := s.command.request.responseType
    status
    entity
    headers := s.command.headers.forResponse }

/-- The outcome of a change whose response has no content. -/
def changed (c : ThingChange) : Outcome .thing ThingChange :=
  .mutation (s.command.event s.revision s.now c) (s.response .noContent none) false false

/-- Checks the size of a document. -/
def checkSize (document : Json) : Except Failure Unit :=
  s.config.sizeLimit.check document s.command.headers

/-- Checks the size of a thing with new content in a part. -/
def checkSizeWith (t : Thing) (part : ThingPart) (content : Json) : Except Failure Unit :=
  s.checkSize (part.place.set t.toJson content)

/-- Checks that a part below an object is not the object itself. -/
def checkPlace (part : ThingPart) : Except Failure Unit :=
  if part.isMisplaced then .error (.pointerInvalid Pointer.root.text .isRoot) else .ok ()

/-- Checks that a thing has a feature. -/
def checkFeature (t : Thing) (id : FeatureId) : Except Failure Unit :=
  if (t.feature? id).isSome then .ok () else .error (.featureNotAccessible s.id.text id.text)

/-- Checks that the feature a part belongs to is there. -/
def checkOwner (t : Thing) (part : ThingPart) : Except Failure Unit :=
  match part.owner? with
  | some id => s.checkFeature t id
  | none => .ok ()

/-- Checks a proposed thing and gives it as it would be stored. -/
def acceptThing (proposed : Thing) (fallback : PolicyId) : Except Failure Thing := do
  if proposed.id ≠ s.id then .error (.entityIdMismatch s.id.text proposed.id.text)
  else
    let t := { proposed.withLifecycle .active with
      policyId := some (proposed.policyId.getD fallback) }
    s.checkSize t.toJson
    return t

/-- Creates a thing; its policy is the one of the same name unless it has one. -/
def create (proposed : Thing) : Except Failure (Outcome .thing ThingChange) := do
  let t ← s.acceptThing proposed s.id.toPolicyId
  let stored := { t with book := { t.book with revision := s.revision } }
  return .mutation (s.command.event s.revision s.now (.created t))
    (s.response .created (some stored.toJson)) true false

/-- Replaces a thing; a replacement without policy keeps the current one. -/
def replace (t proposed : Thing) : Except Failure (Outcome .thing ThingChange) :=
  return s.changed
    (.replaced (← s.acceptThing proposed (t.policyId.getD s.id.toPolicyId)))

/-- Assigns a policy to a thing. -/
def assignPolicy (t : Thing) (id : PolicyId) : Except Failure (Outcome .thing ThingChange) := do
  s.checkSizeWith t .policyId (Wire.encode id)
  return s.changed (.policyAssigned id)

/-- Puts a piece in place. -/
def write (t : Thing) (piece : ThingPiece) : Except Failure (Outcome .thing ThingChange) := do
  checkPlace piece.part
  s.checkOwner t piece.part
  s.checkSizeWith t piece.part piece.toJson
  let existed := (piece.part.get? t).isSome
  let response :=
    if existed then s.response .noContent none else s.response .created (some piece.toJson)
  return .mutation (s.command.event s.revision s.now (.written (.of existed) piece)) response
    false false

/-- Removes an item. -/
def remove (t : Thing) (item : ThingItem) : Except Failure (Outcome .thing ThingChange) := do
  match item with
  | .whole =>
    return .mutation (s.command.event s.revision s.now (.removed .whole))
      (s.response .noContent none) false true
  | item =>
    checkPlace item.part
    s.checkOwner t item.part
    if (item.part.get? t).isSome then return s.changed (.removed item)
    else .error (item.part.notAccessible s.id)

/-- Answers a query. -/
def retrieve (t : Thing) (query : ThingQuery) : Except Failure (Outcome .thing ThingChange) := do
  s.checkOwner t query.part
  match query.part.get? t with
  | some content => return .query (s.response .ok (some content))
  | none => .error (query.part.notAccessible s.id)

/-- Decides a request to an active thing. -/
def onExisting (t : Thing) : Except Failure (Outcome .thing ThingChange) :=
  match s.command.request with
  | .create _ => .error (.thingConflict s.id.text)
  | .replace proposed => s.replace t proposed
  | .assignPolicy id => s.assignPolicy t id
  | .write piece => s.write t piece
  | .remove item => s.remove t item
  | .retrieve query => s.retrieve t query

/-- Decides a request to a thing that does not exist or was deleted. -/
def onMissing : Except Failure (Outcome .thing ThingChange) :=
  match s.command.request with
  | .create proposed | .replace proposed => s.create proposed
  | _ => .error (.thingNotAccessible s.id.text)

end Setting

/-- What a command does to a thing. -/
def decide (config : ThingConfig) (now : Timestamp) (thing : Option Thing) (revision : Revision)
    (c : ThingCommand) : Outcome .thing ThingChange :=
  let s : Setting := ⟨config, now, revision, c⟩
  let result :=
    match Aggregate.active? thing with
    | some t => s.onExisting t
    | none => s.onMissing
  match result with
  | .ok outcome => outcome
  | .error failure => .failed failure

end GuardedThings.ThingRules

namespace GuardedThings

/-- The rules of things. -/
def thingRules (config : ThingConfig) : CommandRules Thing .thing ThingChange ThingRequest where
  decide := ThingRules.decide config
  tag := ThingRules.tag
  isQuery := ThingRequest.isQuery
  responseType := ThingRequest.responseType

end GuardedThings
