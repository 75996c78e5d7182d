import GuardedThings.Policy.Part
import GuardedThings.Thing.Basic

/-!
# Parts of a thing

What requests and events on things are about. Each part has a place in the
thing document, and the resource that protects it has the same path. A failure
to reach or change a part names it.
-/

set_option autoImplicit false

namespace GuardedThings

/-- A part of a thing. -/
inductive ThingPart where
  | whole
  | policyId
  | definition
  | attributes
  | attributeAt (pointer : Pointer)
  | features
  | feature (id : FeatureId)
  | properties (side : PropertySide) (id : FeatureId)
  | property (side : PropertySide) (id : FeatureId) (pointer : Pointer)
deriving DecidableEq

namespace ThingPart

/-- The pointer to the attributes in a thing document. -/
def attributesPointer : Pointer := .ofSegments ["attributes"]

/-- The pointer to the features in a thing document. -/
def featuresPointer : Pointer := .ofSegments ["features"]

/-- The place of the part in the thing document. -/
def place : ThingPart → Pointer
  | whole => .root
  | policyId => .ofSegments ["policyId"]
  | definition => .ofSegments ["definition"]
  | attributes => attributesPointer
  | attributeAt p => attributesPointer.join p
  | features => featuresPointer
  | feature id => featuresPointer.append id.text
  | properties side id => (featuresPointer.append id.text).append side.memberName
  | property side id p => ((featuresPointer.append id.text).append side.memberName).join p

/-- The resource that protects the part. -/
def resourceKey (part : ThingPart) : ResourceKey := .thing part.place

/-- The feature the part belongs to. -/
def featureId? : ThingPart → Option FeatureId
  | whole | policyId | definition | attributes | attributeAt _ | features => none
  | feature id | properties _ id | property _ id _ => some id

/-- The feature that has to be there for the part to be there. -/
def owner? : ThingPart → Option FeatureId
  | properties _ id | property _ id _ => some id
  | _ => none

/-- Whether the part is to be below an object but points to the object itself. -/
def isMisplaced : ThingPart → Bool
  | attributeAt p | property _ _ p => p.isRoot
  | _ => false

/-- The content of the part in a thing. -/
def get? (t : Thing) : ThingPart → Option Json
  | whole => some t.toJson
  | policyId => t.policyId.map Wire.encode
  | definition => t.definition.map Wire.encode
  | attributes => t.attributes.map Wire.encode
  | attributeAt p => t.attribute? p
  | features => t.features.map Wire.encode
  | feature id => (t.feature? id).map Wire.encode
  | properties side id => ((t.feature? id).bind fun f => f.side side).map Wire.encode
  | property side id p => (t.feature? id).bind fun f => f.property? side p

/-- The failure to find the part, or to be allowed to see it. -/
def notAccessible (thing : ThingId) : ThingPart → Failure
  | whole | policyId => .thingNotAccessible thing.text
  | definition => .definitionNotAccessible thing.text
  | attributes => .attributesNotAccessible thing.text
  | attributeAt p => .attributeNotAccessible thing.text p.text
  | features => .featuresNotAccessible thing.text
  | feature id => .featureNotAccessible thing.text id.text
  | properties .reported id => .propertiesNotAccessible thing.text id.text
  | properties .desired id => .desiredPropertiesNotAccessible thing.text id.text
  | property .reported id p => .propertyNotAccessible thing.text id.text p.text
  | property .desired id p => .desiredPropertyNotAccessible thing.text id.text p.text

/-- The failure to be allowed to change the part. -/
def notModifiable (thing : ThingId) : ThingPart → Failure
  | whole => .thingNotModifiable thing.text
  | policyId => .policyIdNotModifiable thing.text
  | definition => .definitionNotModifiable thing.text
  | attributes => .attributesNotModifiable thing.text
  | attributeAt p => .attributeNotModifiable thing.text p.text
  | features => .featuresNotModifiable thing.text
  | feature id => .featureNotModifiable thing.text id.text
  | properties .reported id => .propertiesNotModifiable thing.text id.text
  | properties .desired id => .desiredPropertiesNotModifiable thing.text id.text
  | property .reported id p => .propertyNotModifiable thing.text id.text p.text
  | property .desired id p => .desiredPropertyNotModifiable thing.text id.text p.text

end ThingPart

/-- A part of a thing that can come and go, and is written as one. -/
inductive ThingPiece where
  | definition (definition : Definition)
  | attributes (attributes : JsonObject)
  | attributeAt (pointer : Pointer) (value : Json)
  | features (features : Features)
  | feature (id : FeatureId) (feature : Feature)
  | properties (side : PropertySide) (id : FeatureId) (properties : JsonObject)
  | property (side : PropertySide) (id : FeatureId) (pointer : Pointer) (value : Json)
deriving DecidableEq

namespace ThingPiece

/-- The part that the piece is written to. -/
def part : ThingPiece → ThingPart
  | definition _ => .definition
  | attributes _ => .attributes
  | attributeAt p _ => .attributeAt p
  | features _ => .features
  | feature id _ => .feature id
  | properties side id _ => .properties side id
  | property side id p _ => .property side id p

/-- The content of the piece. -/
def toJson : ThingPiece → Json
  | definition d => Wire.encode d
  | attributes members => .object members
  | attributeAt _ v => v
  | features fs => Wire.encode fs
  | feature _ f => Wire.encode f
  | properties _ _ members => .object members
  | property _ _ _ v => v

/-- The thing with the piece put in place. -/
def put (t : Thing) : ThingPiece → Thing
  | definition d => { t with definition := some d }
  | attributes members => { t with attributes := some members }
  | attributeAt p v => t.setAttribute p v
  | features fs => { t with features := some fs }
  | feature id f => t.setFeature id f
  | properties side id members => t.updateFeature id fun f => f.withSide side (some members)
  | property side id p v => t.updateFeature id fun f => f.setProperty side p v

end ThingPiece

/-- A part of a thing that can be removed. -/
inductive ThingItem where
  | whole
  | definition
  | attributes
  | attributeAt (pointer : Pointer)
  | features
  | feature (id : FeatureId)
  | properties (side : PropertySide) (id : FeatureId)
  | property (side : PropertySide) (id : FeatureId) (pointer : Pointer)
deriving DecidableEq

namespace ThingItem

/-- The part that is removed. -/
def part : ThingItem → ThingPart
  | whole => .whole
  | definition => .definition
  | attributes => .attributes
  | attributeAt p => .attributeAt p
  | features => .features
  | feature id => .feature id
  | properties side id => .properties side id
  | property side id p => .property side id p

/-- The thing after the removal; a thing as a whole stays as a deleted one. -/
def removeFrom (t : Thing) : ThingItem → Thing
  | whole => { t with book := { t.book with lifecycle := .deleted } }
  | definition => { t with definition := none }
  | attributes => { t with attributes := none }
  | attributeAt p => t.removeAttribute p
  | features => { t with features := none }
  | feature id => t.removeFeature id
  | properties side id => t.updateFeature id fun f => f.withSide side none
  | property side id p => t.updateFeature id fun f => f.removeProperty side p

end ThingItem

/-- A part of a thing that can be asked for. -/
inductive ThingQuery where
  | whole
  | attributes
  | attributeAt (pointer : Pointer)
  | feature (id : FeatureId)
  | property (side : PropertySide) (id : FeatureId) (pointer : Pointer)
deriving DecidableEq

namespace ThingQuery

/-- The part that is asked for. -/
def part : ThingQuery → ThingPart
  | whole => .whole
  | attributes => .attributes
  | attributeAt p => .attributeAt p
  | feature id => .feature id
  | property side id p => .property side id p

end ThingQuery

end GuardedThings
