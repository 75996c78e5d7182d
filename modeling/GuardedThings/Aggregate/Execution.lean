import GuardedThings.Aggregate.Command
import GuardedThings.Aggregate.Evolution

/-!
# Execution of commands

The rules of a kind of entity decide what a command does to it. Around them,
every command passes the checks of its conditional headers first, and every
answer is given the tag of the addressed part as it is afterwards.
-/

set_option autoImplicit false

namespace GuardedThings

/-- How the commands of a kind of entity are decided. -/
structure CommandRules (α : Type) (kind : EntityKind) (γ ρ : Type) where
  /-- What a command does at a time, given the entity and the revision of the next event. -/
  decide : Timestamp → Option α → Revision → Command kind ρ → Outcome kind γ
  /-- The tag of the part of an entity that a request addresses, if the part exists. -/
  tag : ρ → α → Option EntityTag
  /-- Whether a request only reads. -/
  isQuery : ρ → Bool
  /-- The type of the response to a request. -/
  responseType : ρ → String

namespace CommandRules

variable {α γ ρ : Type} {kind : EntityKind} [Change γ] [Aggregate α kind γ]

/-- The tag of the addressed part of an active entity. -/
def currentTag (rules : CommandRules α kind γ ρ) (entity : Option α) (request : ρ) :
    Option EntityTag :=
  (Aggregate.active? entity).bind (rules.tag request)

/-- The answer to a query whose result the client has already. -/
def notModified (rules : CommandRules α kind γ ρ) (c : Command kind ρ) (tag : Option EntityTag) :
    Response :=
  Response.withTag
    { entityId := c.entityId.text
      type := rules.responseType c.request
      status := .notModified
      entity := none
      headers := c.headers.forResponse } tag

/-- What the conditional headers of a command end it with, if they do. -/
def checkHeaders (rules : CommandRules α kind γ ρ) (entity : Option α) (c : Command kind ρ) :
    Option (Outcome kind γ) :=
  let tag := rules.currentTag entity c.request
  match c.headers.ifMatch.filter fun ms => !ms.matchStrongly tag with
  | some ms => some (.failed (.preconditionFailed "if-match" ms.text))
  | none =>
    match c.headers.ifNoneMatch.filter fun ms => ms.matchWeakly tag with
    | some ms =>
      if rules.isQuery c.request then some (.query (rules.notModified c tag))
      else some (.failed (.preconditionFailed "if-none-match" ms.text))
    | none => none

/-- The outcome with the tag of the addressed part as it is afterwards. -/
def attachTag (rules : CommandRules α kind γ ρ) (entity : Option α) (c : Command kind ρ) :
    Outcome kind γ → Outcome kind γ
  | .mutation event response created deleted =>
    match Aggregate.apply event entity with
    | .ok next =>
      .mutation event (response.withTag (rules.currentTag (some next) c.request)) created deleted
    | .error failure => .failed failure
  | .query response => .query (response.withTag (rules.currentTag entity c.request))
  | .failed failure => .failed failure

/-- Executes a command on an entity. -/
def execute (rules : CommandRules α kind γ ρ) (now : Timestamp) (entity : Option α)
    (c : Command kind ρ) : Outcome kind γ :=
  match rules.checkHeaders entity c with
  | some outcome => outcome
  | none =>
    rules.attachTag entity c (rules.decide now entity (Aggregate.revision entity).next c)

end CommandRules

end GuardedThings
