import GuardedThings.Aggregate.Command
import GuardedThings.Aggregate.SizeLimit
import GuardedThings.Thing.Event

/-!
# Requests to things

What can be asked of a thing, how it is named on the wire, and which part of
the thing it addresses; and the settings by which requests are decided.
-/

set_option autoImplicit false

namespace GuardedThings

/-- What is asked of a thing. -/
inductive ThingRequest where
  | create (thing : Thing)
  /-- Replaces the thing, or creates it if there is none. -/
  | replace (thing : Thing)
  | assignPolicy (policyId : PolicyId)
  | write (piece : ThingPiece)
  | remove (item : ThingItem)
  | retrieve (query : ThingQuery)
deriving DecidableEq

namespace ThingRequest

/-- The part of the thing a request addresses. -/
def part : ThingRequest → ThingPart
  | create _ | replace _ => .whole
  | assignPolicy _ => .policyId
  | write piece => piece.part
  | remove item => item.part
  | retrieve query => query.part

/-- Whether a request only reads. -/
def isQuery : ThingRequest → Bool
  | retrieve _ => true
  | _ => false

/-- The name of a request. -/
def name : ThingRequest → String
  | create _ => "createThing"
  | replace _ => "modifyThing"
  | assignPolicy _ => "modifyPolicyId"
  | write (.definition _) => "modifyDefinition"
  | write (.attributes _) => "modifyAttributes"
  | write (.attributeAt ..) => "modifyAttribute"
  | write (.features _) => "modifyFeatures"
  | write (.feature ..) => "modifyFeature"
  | write (.properties .reported ..) => "modifyFeatureProperties"
  | write (.properties .desired ..) => "modifyFeatureDesiredProperties"
  | write (.property .reported ..) => "modifyFeatureProperty"
  | write (.property .desired ..) => "modifyFeatureDesiredProperty"
  | remove .whole => "deleteThing"
  | remove .definition => "deleteDefinition"
  | remove .attributes => "deleteAttributes"
  | remove (.attributeAt _) => "deleteAttribute"
  | remove .features => "deleteFeatures"
  | remove (.feature _) => "deleteFeature"
  | remove (.properties .reported _) => "deleteFeatureProperties"
  | remove (.properties .desired _) => "deleteFeatureDesiredProperties"
  | remove (.property .reported ..) => "deleteFeatureProperty"
  | remove (.property .desired ..) => "deleteFeatureDesiredProperty"
  | retrieve .whole => "retrieveThing"
  | retrieve .attributes => "retrieveAttributes"
  | retrieve (.attributeAt _) => "retrieveAttribute"
  | retrieve (.feature _) => "retrieveFeature"
  | retrieve (.property .reported ..) => "retrieveFeatureProperty"
  | retrieve (.property .desired ..) => "retrieveFeatureDesiredProperty"

/-- The type of the response to a request. -/
def responseType (r : ThingRequest) : String := "things.responses:" ++ r.name

/-- How requests are decoded, by name. -/
def table {σ : Type} [Source σ] : List (String × VariantBody σ ThingRequest) :=
  [("createThing", .fields ((Fields.required "thing" Wire.decode).map create)),
    ("modifyThing", .fields ((Fields.required "thing" Wire.decode).map replace)),
    ("deleteThing", .bare (remove .whole)),
    ("retrieveThing", .bare (retrieve .whole)),
    ("modifyPolicyId", .fields ((Fields.required "policyId" Wire.decode).map assignPolicy)),
    ("modifyDefinition", .fields (ThingPiece.definitionFields write)),
    ("deleteDefinition", .bare (remove .definition)),
    ("modifyAttributes", .fields (ThingPiece.attributesFields write)),
    ("deleteAttributes", .bare (remove .attributes)),
    ("modifyAttribute", .fields (ThingPiece.attributeFields write)),
    ("deleteAttribute", .fields (ThingItem.attributeFields fun p => remove (.attributeAt p))),
    ("retrieveAttributes", .bare (retrieve .attributes)),
    ("retrieveAttribute", .fields (ThingItem.attributeFields fun p => retrieve (.attributeAt p))),
    ("modifyFeatures", .fields (ThingPiece.featuresFields write)),
    ("deleteFeatures", .bare (remove .features)),
    ("modifyFeature", .fields (ThingPiece.featureFields write)),
    ("deleteFeature", .fields (ThingItem.featureFields fun id => remove (.feature id))),
    ("retrieveFeature", .fields (ThingItem.featureFields fun id => retrieve (.feature id))),
    ("modifyFeatureProperties", .fields (ThingPiece.propertiesFields .reported write)),
    ("deleteFeatureProperties",
      .fields (ThingItem.featureFields fun id => remove (.properties .reported id))),
    ("modifyFeatureProperty", .fields (ThingPiece.propertyFields .reported write)),
    ("deleteFeatureProperty",
      .fields (ThingItem.propertyFields fun id p => remove (.property .reported id p))),
    ("retrieveFeatureProperty",
      .fields (ThingItem.propertyFields fun id p => retrieve (.property .reported id p))),
    ("modifyFeatureDesiredProperties", .fields (ThingPiece.propertiesFields .desired write)),
    ("deleteFeatureDesiredProperties",
      .fields (ThingItem.featureFields fun id => remove (.properties .desired id))),
    ("modifyFeatureDesiredProperty", .fields (ThingPiece.propertyFields .desired write)),
    ("deleteFeatureDesiredProperty",
      .fields (ThingItem.propertyFields fun id p => remove (.property .desired id p))),
    ("retrieveFeatureDesiredProperty",
      .fields (ThingItem.propertyFields fun id p => retrieve (.property .desired id p)))]

/-- The wire form of a request. -/
def encode (r : ThingRequest) : Json :=
  match r with
  | create t | replace t => .single r.name (.ofFields [("thing", some t.toJson)])
  | assignPolicy id => .single r.name (.ofFields [("policyId", some (Wire.encode id))])
  | write piece => .single r.name piece.payload
  | remove .whole | remove .definition | remove .attributes | remove .features
  | retrieve .whole | retrieve .attributes => .string r.name
  | remove item => .single r.name item.payload
  | retrieve (.attributeAt p) => .single r.name (ThingItem.attributeAt p).payload
  | retrieve (.feature id) => .single r.name (ThingItem.feature id).payload
  | retrieve (.property side id p) => .single r.name (ThingItem.property side id p).payload

instance : Wire ThingRequest := ⟨encode, VariantBody.decode table⟩

end ThingRequest

/-- A command addressed to a thing. -/
abbrev ThingCommand := Command .thing ThingRequest

/-- The settings by which requests to things are decided. -/
structure ThingConfig where
  maxSizeBytes : UInt64
deriving DecidableEq

namespace ThingConfig

/-- At most 100 KiB. -/
def standard : ThingConfig := ⟨102400⟩

/-- The fields of the settings. -/
def fields {σ : Type} [Source σ] : Fields σ ThingConfig :=
  (Fields.defaulted "max_thing_size_bytes" standard.maxSizeBytes Wire.decode).map
    fun maxSizeBytes => { maxSizeBytes }

instance : Wire ThingConfig where
  encode c := Json.ofFields [("max_thing_size_bytes", some (.ofWord c.maxSizeBytes))]
  decode := fields.decode

/-- The size limit of things. -/
def sizeLimit (c : ThingConfig) : SizeLimit := ⟨.thing, c.maxSizeBytes.toNat⟩

end ThingConfig

end GuardedThings
