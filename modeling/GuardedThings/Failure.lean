import GuardedThings.Clock
import GuardedThings.Status

/-!
# Failures

Everything that can go wrong in the domain, one constructor per cause. A
failure carries the texts of the ids and paths it is about; its kind, code,
status, message and description are functions of it.
-/

set_option autoImplicit false

namespace GuardedThings

/-- Why a text is not an entity id. -/
inductive EntityIdFlaw where
  | tooLong
  | noColon
  | namespaceMalformed
  | nameEmpty
  | nameMalformed
deriving DecidableEq

/-- The wording of a flaw. -/
def EntityIdFlaw.text : EntityIdFlaw → String
  | tooLong => "id exceeds the maximum length of 256 characters"
  | noColon => "id must contain a ':' separating namespace and name"
  | namespaceMalformed => "namespace must consist of dot-separated identifiers"
  | nameEmpty => "name must not be empty"
  | nameMalformed => "name must not contain '/' or control characters"

/-- Why a pointer is refused. -/
inductive PointerFlaw where
  | badEscape
  | isRoot
deriving DecidableEq

/-- The wording of a flaw. -/
def PointerFlaw.text : PointerFlaw → String
  | badEscape => "'~' must be followed by '0' or '1'"
  | isRoot => "it must address a field below the root"

/-- Why a text is not a label. -/
inductive LabelFlaw where
  | empty
  | tooLong
  | malformed
deriving DecidableEq

/-- The wording of a flaw. -/
def LabelFlaw.text : LabelFlaw → String
  | empty => "label must not be empty"
  | tooLong => "label exceeds the maximum length of 256 characters"
  | malformed => "label must not contain '/' or control characters"

/-- Why a text is not a subject id. -/
inductive SubjectIdFlaw where
  | empty
  | tooLong
  | malformed
deriving DecidableEq

/-- The wording of a flaw. -/
def SubjectIdFlaw.text : SubjectIdFlaw → String
  | empty => "subject id must not be empty"
  | tooLong => "subject id exceeds the maximum length of 256 characters"
  | malformed => "subject id must not contain control characters"

/-- Why a text is not a resource key. -/
inductive ResourceKeyFlaw where
  | noColon
  /-- The text after the colon is not a pointer. -/
  | badPath (path : String)
  | badType
deriving DecidableEq

/-- Why an event cannot be applied. -/
inductive EventFlaw where
  /-- The event addresses another entity than the one it is applied to. -/
  | otherEntity
  /-- A creation event meets an active entity. -/
  | entityExists
  /-- A modification event meets no active entity. -/
  | entityMissing
  /-- A creation was asked of a modification event. -/
  | notCreation
  /-- A modification was asked of a policy's creation event. -/
  | policyExists
  /-- A modification was asked of a thing's creation event. -/
  | thingExists
deriving DecidableEq

/-- The wording of a flaw. -/
def EventFlaw.text : EventFlaw → String
  | otherEntity => "the event addresses another entity"
  | entityExists => "the entity already exists"
  | entityMissing => "the entity does not exist or is deleted"
  | notCreation => "not a creation event"
  | policyExists => "the policy already exists"
  | thingExists => "the thing already exists"

/-- The coarse classes of failures. -/
inductive FailureKind where
  /-- Malformed input. -/
  | structural
  /-- The addressed entity is missing or exists already, or a precondition failed. -/
  | precondition
  /-- The requester lacks a permission. -/
  | authorization
  /-- The operation would break an invariant. -/
  | invariant
  /-- The journal holds an event the program does not know. -/
  | programming
deriving DecidableEq

/-- The name of a class. -/
def FailureKind.name : FailureKind → String
  | structural => "Structural"
  | precondition => "Precondition"
  | authorization => "Authorization"
  | invariant => "InvariantViolation"
  | programming => "Programming"

/-- What went wrong. -/
inductive Failure where
  | entityIdInvalid (id : String) (flaw : EntityIdFlaw)
  | pointerInvalid (pointer : String) (flaw : PointerFlaw)
  | resourceKeyInvalid (key : String) (flaw : ResourceKeyFlaw)
  | labelInvalid (label : String) (flaw : LabelFlaw)
  | subjectIdInvalid (subjectId : String) (flaw : SubjectIdFlaw)
  | permissionInvalid (permission : String)
  | headerInvalid (header value : String)
  | duplicateLabel (label : String)
  | policyStructureInvalid (reason : String)
  | jsonInvalid (reason : String)
  | entityIdMismatch (expected actual : String)
  | policyNotAccessible (policyId : String)
  | policyConflict (policyId : String)
  | entryNotAccessible (policyId label : String)
  | subjectNotAccessible (policyId label subjectId : String)
  | resourceNotAccessible (policyId label resourceKey : String)
  | thingNotAccessible (thingId : String)
  | thingConflict (thingId : String)
  | attributesNotAccessible (thingId : String)
  | attributeNotAccessible (thingId pointer : String)
  | definitionNotAccessible (thingId : String)
  | featuresNotAccessible (thingId : String)
  | featureNotAccessible (thingId featureId : String)
  | propertiesNotAccessible (thingId featureId : String)
  | propertyNotAccessible (thingId featureId pointer : String)
  | desiredPropertiesNotAccessible (thingId featureId : String)
  | desiredPropertyNotAccessible (thingId featureId pointer : String)
  | preconditionFailed (header matcher : String)
  | subjectExpiryInvalid (subjectId : String) (expiry : Timestamp)
  | policyNotModifiable (policyId : String)
  | entryNotModifiable (policyId label : String)
  | subjectsNotModifiable (policyId label : String)
  | subjectNotModifiable (policyId label subjectId : String)
  | resourcesNotModifiable (policyId label : String)
  | resourceNotModifiable (policyId label resourceKey : String)
  | thingNotModifiable (thingId : String)
  | policyIdNotModifiable (thingId : String)
  | definitionNotModifiable (thingId : String)
  | attributesNotModifiable (thingId : String)
  | attributeNotModifiable (thingId pointer : String)
  | featuresNotModifiable (thingId : String)
  | featureNotModifiable (thingId featureId : String)
  | propertiesNotModifiable (thingId featureId : String)
  | propertyNotModifiable (thingId featureId pointer : String)
  | desiredPropertiesNotModifiable (thingId featureId : String)
  | desiredPropertyNotModifiable (thingId featureId pointer : String)
  | entryInvalid (policyId label reason : String)
  | policyModificationInvalid (policyId reason : String)
  | policyInvalid (policyId reason : String)
  | policyTooLarge (actual max : Nat)
  | thingTooLarge (actual max : Nat)
  | eventNotApplicable (eventType entityId : String) (flaw : EventFlaw)
  | eventTypeUnhandled (eventType aggregate : String)
deriving DecidableEq

/-- The wording of a flaw. -/
def ResourceKeyFlaw.text : ResourceKeyFlaw → String
  | noColon => "resource key must contain a ':' after the resource type"
  | badPath path => s!"The JSON pointer '{path}' is not valid: " ++ PointerFlaw.badEscape.text
  | badType => "resource type must be a non-empty lower-case word"

namespace Failure

/-- The class of a failure. -/
def kind : Failure → FailureKind
  | entityIdInvalid .. | pointerInvalid .. | resourceKeyInvalid .. | labelInvalid ..
  | subjectIdInvalid .. | permissionInvalid .. | headerInvalid .. | duplicateLabel ..
  | policyStructureInvalid .. | jsonInvalid .. | entityIdMismatch .. => .structural
  | policyNotAccessible .. | policyConflict .. | entryNotAccessible .. | subjectNotAccessible ..
  | resourceNotAccessible .. | thingNotAccessible .. | thingConflict ..
  | attributesNotAccessible .. | attributeNotAccessible .. | definitionNotAccessible ..
  | featuresNotAccessible .. | featureNotAccessible .. | propertiesNotAccessible ..
  | propertyNotAccessible .. | desiredPropertiesNotAccessible ..
  | desiredPropertyNotAccessible .. | preconditionFailed .. | subjectExpiryInvalid .. =>
    .precondition
  | policyNotModifiable .. | entryNotModifiable .. | subjectsNotModifiable ..
  | subjectNotModifiable .. | resourcesNotModifiable .. | resourceNotModifiable ..
  | thingNotModifiable .. | policyIdNotModifiable .. | definitionNotModifiable ..
  | attributesNotModifiable .. | attributeNotModifiable .. | featuresNotModifiable ..
  | featureNotModifiable .. | propertiesNotModifiable .. | propertyNotModifiable ..
  | desiredPropertiesNotModifiable .. | desiredPropertyNotModifiable .. => .authorization
  | entryInvalid .. | policyModificationInvalid .. | policyInvalid .. | policyTooLarge ..
  | thingTooLarge .. | eventNotApplicable .. => .invariant
  | eventTypeUnhandled .. => .programming

/-- The name of the cause. -/
def name : Failure → String
  | entityIdInvalid .. => "EntityIdInvalid"
  | pointerInvalid .. => "JsonPointerInvalid"
  | resourceKeyInvalid .. => "ResourceKeyInvalid"
  | labelInvalid .. => "LabelInvalid"
  | subjectIdInvalid .. => "SubjectIdInvalid"
  | permissionInvalid .. => "PermissionInvalid"
  | headerInvalid .. => "HeaderInvalid"
  | duplicateLabel .. => "DuplicateLabel"
  | policyStructureInvalid .. => "InvalidPolicyStructure"
  | jsonInvalid .. => "JsonInvalid"
  | entityIdMismatch .. => "EntityIdMismatch"
  | policyNotAccessible .. => "PolicyNotAccessible"
  | policyConflict .. => "PolicyConflict"
  | entryNotAccessible .. => "PolicyEntryNotAccessible"
  | subjectNotAccessible .. => "SubjectNotAccessible"
  | resourceNotAccessible .. => "ResourceNotAccessible"
  | thingNotAccessible .. => "ThingNotAccessible"
  | thingConflict .. => "ThingConflict"
  | attributesNotAccessible .. => "AttributesNotAccessible"
  | attributeNotAccessible .. => "AttributeNotAccessible"
  | definitionNotAccessible .. => "DefinitionNotAccessible"
  | featuresNotAccessible .. => "FeaturesNotAccessible"
  | featureNotAccessible .. => "FeatureNotAccessible"
  | propertiesNotAccessible .. => "FeaturePropertiesNotAccessible"
  | propertyNotAccessible .. => "FeaturePropertyNotAccessible"
  | desiredPropertiesNotAccessible .. => "FeatureDesiredPropertiesNotAccessible"
  | desiredPropertyNotAccessible .. => "FeatureDesiredPropertyNotAccessible"
  | preconditionFailed .. => "PreconditionFailed"
  | subjectExpiryInvalid .. => "SubjectExpiryInvalid"
  | policyNotModifiable .. => "PolicyNotModifiable"
  | entryNotModifiable .. => "PolicyEntryNotModifiable"
  | subjectsNotModifiable .. => "SubjectsNotModifiable"
  | subjectNotModifiable .. => "SubjectNotModifiable"
  | resourcesNotModifiable .. => "ResourcesNotModifiable"
  | resourceNotModifiable .. => "ResourceNotModifiable"
  | thingNotModifiable .. => "ThingNotModifiable"
  | policyIdNotModifiable .. => "PolicyIdNotModifiable"
  | definitionNotModifiable .. => "DefinitionNotModifiable"
  | attributesNotModifiable .. => "AttributesNotModifiable"
  | attributeNotModifiable .. => "AttributeNotModifiable"
  | featuresNotModifiable .. => "FeaturesNotModifiable"
  | featureNotModifiable .. => "FeatureNotModifiable"
  | propertiesNotModifiable .. => "FeaturePropertiesNotModifiable"
  | propertyNotModifiable .. => "FeaturePropertyNotModifiable"
  | desiredPropertiesNotModifiable .. => "FeatureDesiredPropertiesNotModifiable"
  | desiredPropertyNotModifiable .. => "FeatureDesiredPropertyNotModifiable"
  | entryInvalid .. => "PolicyEntryInvalid"
  | policyModificationInvalid .. => "PolicyModificationInvalid"
  | policyInvalid .. => "PolicyInvalid"
  | policyTooLarge .. => "PolicyTooLarge"
  | thingTooLarge .. => "ThingTooLarge"
  | eventNotApplicable .. => "EventNotApplicable"
  | eventTypeUnhandled .. => "UnhandledEventType"

/-- The code by which clients tell failures apart. -/
def code : Failure → String
  | entityIdInvalid .. => "entity:id.invalid"
  | pointerInvalid .. => "json.pointer.invalid"
  | resourceKeyInvalid .. => "policies:resource.key.invalid"
  | labelInvalid .. => "policies:label.invalid"
  | subjectIdInvalid .. => "policies:subject.id.invalid"
  | permissionInvalid .. => "policies:permission.invalid"
  | headerInvalid .. => "header.invalid"
  | duplicateLabel .. => "policies:entry.label.duplicate"
  | policyStructureInvalid .. => "policies:policy.structure.invalid"
  | jsonInvalid .. => "json.invalid"
  | entityIdMismatch .. => "entity:id.mismatch"
  | policyNotAccessible .. => "policies:policy.notfound"
  | policyConflict .. => "policies:policy.conflict"
  | entryNotAccessible .. => "policies:policyentry.notfound"
  | subjectNotAccessible .. => "policies:subject.notfound"
  | resourceNotAccessible .. => "policies:resource.notfound"
  | thingNotAccessible .. => "things:thing.notfound"
  | thingConflict .. => "things:thing.conflict"
  | attributesNotAccessible .. => "things:attributes.notfound"
  | attributeNotAccessible .. => "things:attribute.notfound"
  | definitionNotAccessible .. => "things:definition.notfound"
  | featuresNotAccessible .. => "things:features.notfound"
  | featureNotAccessible .. => "things:feature.notfound"
  | propertiesNotAccessible .. => "things:feature.properties.notfound"
  | propertyNotAccessible .. => "things:feature.property.notfound"
  | desiredPropertiesNotAccessible .. => "things:feature.desiredProperties.notfound"
  | desiredPropertyNotAccessible .. => "things:feature.desiredProperty.notfound"
  | preconditionFailed .. => "precondition.failed"
  | subjectExpiryInvalid .. => "policies:subject.expiry.invalid"
  | policyNotModifiable .. => "policies:policy.notmodifiable"
  | entryNotModifiable .. => "policies:policyentry.notmodifiable"
  | subjectsNotModifiable .. => "policies:subjects.notmodifiable"
  | subjectNotModifiable .. => "policies:subject.notmodifiable"
  | resourcesNotModifiable .. => "policies:resources.notmodifiable"
  | resourceNotModifiable .. => "policies:resource.notmodifiable"
  | thingNotModifiable .. => "things:thing.notmodifiable"
  | policyIdNotModifiable .. => "things:policyId.notmodifiable"
  | definitionNotModifiable .. => "things:definition.notmodifiable"
  | attributesNotModifiable .. => "things:attributes.notmodifiable"
  | attributeNotModifiable .. => "things:attribute.notmodifiable"
  | featuresNotModifiable .. => "things:features.notmodifiable"
  | featureNotModifiable .. => "things:feature.notmodifiable"
  | propertiesNotModifiable .. => "things:feature.properties.notmodifiable"
  | propertyNotModifiable .. => "things:feature.property.notmodifiable"
  | desiredPropertiesNotModifiable .. => "things:feature.desiredProperties.notmodifiable"
  | desiredPropertyNotModifiable .. => "things:feature.desiredProperty.notmodifiable"
  | entryInvalid .. => "policies:policyentry.invalid"
  | policyModificationInvalid .. => "policies:policy.modificationinvalid"
  | policyInvalid .. => "policies:policy.invalid"
  | policyTooLarge .. => "policies:policy.toolarge"
  | thingTooLarge .. => "things:thing.toolarge"
  | eventNotApplicable .. => "events:event.notapplicable"
  | eventTypeUnhandled .. => "events:event.type.unhandled"

/-- The status of the response to a failure. -/
def status (f : Failure) : Status :=
  match f with
  | policyConflict .. | thingConflict .. => .conflict
  | preconditionFailed .. => .preconditionFailed
  | subjectExpiryInvalid .. | entryInvalid .. | policyInvalid .. => .badRequest
  | policyModificationInvalid .. => .forbidden
  | policyTooLarge .. | thingTooLarge .. => .payloadTooLarge
  | eventNotApplicable .. | eventTypeUnhandled .. => .internalServerError
  | _ =>
    match f.kind with
    | .structural => .badRequest
    | .precondition => .notFound
    | .authorization => .forbidden
    | .invariant => .badRequest
    | .programming => .internalServerError

/-- What is said of a single part that is missing or hidden. -/
def hidden : String := "could not be found or requester had insufficient permissions to access it."

/-- What is said of several parts that are missing or hidden. -/
def hiddenAll : String :=
  "could not be found or requester had insufficient permissions to access them."

/-- What is said of a part that the requester may not change. -/
def locked : String := "could not be modified as the requester had insufficient permissions."

/-- How messages name a policy. -/
def policyNamed (policyId : String) : String := s!"Policy with ID '{policyId}'"

/-- How messages name an entry. -/
def entryNamed (policyId label : String) : String :=
  s!"PolicyEntry with Label '{label}' on the " ++ policyNamed policyId

/-- How messages name a thing. -/
def thingNamed (thingId : String) : String := s!"Thing with ID '{thingId}'"

/-- How messages name a feature. -/
def featureNamed (thingId featureId : String) : String :=
  s!"Feature with ID '{featureId}' on the " ++ thingNamed thingId

/-- The message that tells a person what went wrong. -/
def message : Failure → String
  | entityIdInvalid id flaw => s!"The entity ID '{id}' is not valid: " ++ flaw.text
  | pointerInvalid pointer flaw => s!"The JSON pointer '{pointer}' is not valid: " ++ flaw.text
  | resourceKeyInvalid key flaw => s!"The resource key '{key}' is not valid: " ++ flaw.text
  | labelInvalid label flaw => s!"The Policy Label '{label}' is not valid: " ++ flaw.text
  | subjectIdInvalid subjectId flaw => s!"The Subject ID '{subjectId}' is not valid: " ++ flaw.text
  | permissionInvalid permission =>
    s!"The permission '{permission}' is not valid: permission must be a non-empty word"
  | headerInvalid header value => s!"The header '{header}' has the invalid value '{value}'"
  | duplicateLabel label => s!"The Label '{label}' is used by more than one PolicyEntry"
  | policyStructureInvalid reason => s!"The Policy structure is invalid: {reason}"
  | jsonInvalid reason => s!"The JSON content is invalid: {reason}"
  | entityIdMismatch expected actual =>
    s!"The entity ID '{actual}' in the payload does not match the addressed entity '{expected}'"
  | policyNotAccessible policyId => "The " ++ policyNamed policyId ++ " " ++ hidden
  | policyConflict policyId => "The " ++ policyNamed policyId ++ " already exists"
  | entryNotAccessible policyId label => "The " ++ entryNamed policyId label ++ " " ++ hidden
  | subjectNotAccessible policyId label subjectId =>
    s!"The Subject with ID '{subjectId}' of the " ++ entryNamed policyId label ++ " " ++ hidden
  | resourceNotAccessible policyId label key =>
    s!"The Resource with key '{key}' of the " ++ entryNamed policyId label ++ " " ++ hidden
  | thingNotAccessible thingId => "The " ++ thingNamed thingId ++ " " ++ hidden
  | thingConflict thingId => "The " ++ thingNamed thingId ++ " already exists"
  | attributesNotAccessible thingId =>
    "The Attributes of the " ++ thingNamed thingId ++ " " ++ hiddenAll
  | attributeNotAccessible thingId pointer =>
    s!"The Attribute with key '{pointer}' of the " ++ thingNamed thingId ++ " " ++ hidden
  | definitionNotAccessible thingId =>
    "The Definition of the " ++ thingNamed thingId ++ " " ++ hidden
  | featuresNotAccessible thingId =>
    "The Features of the " ++ thingNamed thingId ++ " " ++ hiddenAll
  | featureNotAccessible thingId featureId =>
    "The " ++ featureNamed thingId featureId ++ " " ++ hidden
  | propertiesNotAccessible thingId featureId =>
    "The Properties of the " ++ featureNamed thingId featureId ++ " " ++ hiddenAll
  | propertyNotAccessible thingId featureId pointer =>
    s!"The Property with JSON Pointer '{pointer}' of the " ++ featureNamed thingId featureId ++
      " " ++ hidden
  | desiredPropertiesNotAccessible thingId featureId =>
    "The desired Properties of the " ++ featureNamed thingId featureId ++ " " ++ hiddenAll
  | desiredPropertyNotAccessible thingId featureId pointer =>
    s!"The desired Property with JSON Pointer '{pointer}' of the " ++
      featureNamed thingId featureId ++ " " ++ hidden
  | preconditionFailed header matcher =>
    s!"The comparison of precondition header '{header}' for the requested entity evaluated to " ++
      s!"false. Expected: '{matcher}'."
  | subjectExpiryInvalid subjectId expiry =>
    s!"The expiry of the Subject with ID '{subjectId}' must not be in the past (expiry " ++
      expiry.text ++ ")."
  | policyNotModifiable policyId => "The " ++ policyNamed policyId ++ " " ++ locked
  | entryNotModifiable policyId label => "The " ++ entryNamed policyId label ++ " " ++ locked
  | subjectsNotModifiable policyId label =>
    "The Subjects of the " ++ entryNamed policyId label ++ " " ++ locked
  | subjectNotModifiable policyId label subjectId =>
    s!"The Subject with ID '{subjectId}' of the " ++ entryNamed policyId label ++ " " ++ locked
  | resourcesNotModifiable policyId label =>
    "The Resources of the " ++ entryNamed policyId label ++ " " ++ locked
  | resourceNotModifiable policyId label key =>
    s!"The Resource with key '{key}' of the " ++ entryNamed policyId label ++ " " ++ locked
  | thingNotModifiable thingId => "The " ++ thingNamed thingId ++ " " ++ locked
  | policyIdNotModifiable thingId =>
    "The Policy ID of the " ++ thingNamed thingId ++ " " ++ locked
  | definitionNotModifiable thingId =>
    "The Definition of the " ++ thingNamed thingId ++ " " ++ locked
  | attributesNotModifiable thingId =>
    "The Attributes of the " ++ thingNamed thingId ++ " " ++ locked
  | attributeNotModifiable thingId pointer =>
    s!"The Attribute with key '{pointer}' of the " ++ thingNamed thingId ++ " " ++ locked
  | featuresNotModifiable thingId => "The Features of the " ++ thingNamed thingId ++ " " ++ locked
  | featureNotModifiable thingId featureId =>
    "The " ++ featureNamed thingId featureId ++ " " ++ locked
  | propertiesNotModifiable thingId featureId =>
    "The Properties of the " ++ featureNamed thingId featureId ++ " " ++ locked
  | propertyNotModifiable thingId featureId pointer =>
    s!"The Property with JSON Pointer '{pointer}' of the " ++ featureNamed thingId featureId ++
      " " ++ locked
  | desiredPropertiesNotModifiable thingId featureId =>
    "The desired Properties of the " ++ featureNamed thingId featureId ++ " " ++ locked
  | desiredPropertyNotModifiable thingId featureId pointer =>
    s!"The desired Property with JSON Pointer '{pointer}' of the " ++
      featureNamed thingId featureId ++ " " ++ locked
  | entryInvalid policyId label reason =>
    "The " ++ entryNamed policyId label ++ s!" is invalid: {reason}"
  | policyModificationInvalid policyId reason =>
    "The " ++ policyNamed policyId ++
      s!" could not be modified as the resulting Policy would be invalid: {reason}"
  | policyInvalid policyId reason => "The " ++ policyNamed policyId ++ s!" is invalid: {reason}"
  | policyTooLarge actual max =>
    s!"The size of '{actual}' bytes exceeds the maximal allowed Policy size of '{max}' bytes."
  | thingTooLarge actual max =>
    s!"The size of '{actual}' bytes exceeds the maximal allowed Thing size of '{max}' bytes."
  | eventNotApplicable eventType entityId flaw =>
    s!"The event '{eventType}' cannot be applied to entity '{entityId}': " ++ flaw.text
  | eventTypeUnhandled eventType aggregate =>
    s!"The event type '{eventType}' is not handled for aggregates of type '{aggregate}'"

/-- A hint on how to resolve a failure. -/
def description (f : Failure) : String :=
  match f with
  | entityIdInvalid .. => "It must conform to the namespaced entity ID notation 'namespace:name'."
  | resourceKeyInvalid .. =>
    "A resource key has the form '<type>:/<path>', e.g. 'thing:/attributes'."
  | duplicateLabel .. => "Each PolicyEntry of a Policy needs a unique Label."
  | policyConflict .. | thingConflict .. => "Choose another ID or delete the existing entity first."
  | preconditionFailed .. =>
    "Check the precondition headers If-Match and If-None-Match of your request."
  | subjectExpiryInvalid .. => "Provide an expiry which lies in the future."
  | policyTooLarge .. | thingTooLarge .. =>
    "Reduce the size of the entity or the content of the request."
  | eventNotApplicable .. =>
    "The journal contains an event sequence that the aggregate cannot follow."
  | _ =>
    match f.kind with
    | .structural => "Check the request for malformed content."
    | .precondition => "Check if the ID was correct and you have sufficient permissions."
    | .authorization => "Check if you have sufficient permissions."
    | .invariant =>
      "It must contain at least one permanent Subject with WRITE permission on the root resource."
    | .programming => "The event registry and the persisted journal are out of sync."

end Failure

end GuardedThings
