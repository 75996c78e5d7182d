import GuardedThings.Aggregate.Evolution
import GuardedThings.Thing.Part

/-!
# Events of things

What can happen to a thing, how it is named in the journal, and what it makes
of the thing. Events on a missing feature create the feature.
-/

set_option autoImplicit false

namespace GuardedThings

/-- A change of a thing. -/
inductive ThingChange where
  | created (thing : Thing)
  | replaced (thing : Thing)
  | policyAssigned (policyId : PolicyId)
  | written (how : Placement) (piece : ThingPiece)
  | removed (item : ThingItem)
deriving DecidableEq

namespace ThingPiece

variable {σ α : Type} [Source σ]

/-- The fields of a definition to be written. -/
def definitionFields (make : ThingPiece → α) : Fields σ α :=
  (Fields.required "definition" Wire.decode).map fun d => make (.definition d)

/-- The fields of attributes to be written. -/
def attributesFields (make : ThingPiece → α) : Fields σ α :=
  (Fields.required "attributes" Wire.decode).map fun members => make (.attributes members)

/-- The fields of an attribute to be written. -/
def attributeFields (make : ThingPiece → α) : Fields σ α :=
  ((Fields.required "pointer" Wire.decode).and (Fields.required "value" Wire.decode)).map
    fun (p, v) => make (.attributeAt p v)

/-- The fields of features to be written. -/
def featuresFields (make : ThingPiece → α) : Fields σ α :=
  (Fields.required "features" Wire.decode).map fun fs => make (.features fs)

/-- The fields of a feature to be written. -/
def featureFields (make : ThingPiece → α) : Fields σ α :=
  ((Fields.required "featureId" Wire.decode).and (Fields.required "feature" Wire.decode)).map
    fun (id, f) => make (.feature id f)

/-- The fields of properties to be written. -/
def propertiesFields (side : PropertySide) (make : ThingPiece → α) : Fields σ α :=
  ((Fields.required "featureId" Wire.decode).and
    (Fields.required side.memberName Wire.decode)).map
    fun (id, members) => make (.properties side id members)

/-- The fields of a property to be written. -/
def propertyFields (side : PropertySide) (make : ThingPiece → α) : Fields σ α :=
  ((Fields.required "featureId" Wire.decode).and <|
    (Fields.required "pointer" Wire.decode).and (Fields.required "value" Wire.decode)).map
    fun (id, p, v) => make (.property side id p v)

/-- The fields of a piece. -/
def payload : ThingPiece → Json
  | definition d => .ofFields [("definition", some (Wire.encode d))]
  | attributes members => .ofFields [("attributes", some (.object members))]
  | attributeAt p v => .ofFields [("pointer", some (Wire.encode p)), ("value", some v)]
  | features fs => .ofFields [("features", some (Wire.encode fs))]
  | feature id f => .ofFields
    [("feature", some (Wire.encode f)), ("featureId", some (Wire.encode id))]
  | properties .reported id members => .ofFields
    [("featureId", some (Wire.encode id)), ("properties", some (.object members))]
  | properties .desired id members => .ofFields
    [("desiredProperties", some (.object members)), ("featureId", some (Wire.encode id))]
  | property _ id p v => .ofFields
    [("featureId", some (Wire.encode id)), ("pointer", some (Wire.encode p)), ("value", some v)]

end ThingPiece

namespace ThingItem

variable {σ α : Type} [Source σ]

/-- The fields of the address of an attribute. -/
def attributeFields (make : Pointer → α) : Fields σ α :=
  (Fields.required "pointer" Wire.decode).map make

/-- The fields of the address of a feature. -/
def featureFields (make : FeatureId → α) : Fields σ α :=
  (Fields.required "featureId" Wire.decode).map make

/-- The fields of the address of a property. -/
def propertyFields (make : FeatureId → Pointer → α) : Fields σ α :=
  ((Fields.required "featureId" Wire.decode).and (Fields.required "pointer" Wire.decode)).map
    fun (id, p) => make id p

/-- The fields of an item. -/
def payload : ThingItem → Json
  | whole | definition | attributes | features => .object []
  | attributeAt p => .ofFields [("pointer", some (Wire.encode p))]
  | feature id | properties _ id => .ofFields [("featureId", some (Wire.encode id))]
  | property _ id p => .ofFields
    [("featureId", some (Wire.encode id)), ("pointer", some (Wire.encode p))]

end ThingItem

namespace ThingChange

/-- The name of a change. -/
def name : ThingChange → String
  | created _ => "thingCreated"
  | replaced _ => "thingModified"
  | policyAssigned _ => "policyIdModified"
  | written .created (.definition _) => "definitionCreated"
  | written .modified (.definition _) => "definitionModified"
  | written .created (.attributes _) => "attributesCreated"
  | written .modified (.attributes _) => "attributesModified"
  | written .created (.attributeAt ..) => "attributeCreated"
  | written .modified (.attributeAt ..) => "attributeModified"
  | written .created (.features _) => "featuresCreated"
  | written .modified (.features _) => "featuresModified"
  | written .created (.feature ..) => "featureCreated"
  | written .modified (.feature ..) => "featureModified"
  | written .created (.properties .reported ..) => "featurePropertiesCreated"
  | written .modified (.properties .reported ..) => "featurePropertiesModified"
  | written .created (.properties .desired ..) => "featureDesiredPropertiesCreated"
  | written .modified (.properties .desired ..) => "featureDesiredPropertiesModified"
  | written .created (.property .reported ..) => "featurePropertyCreated"
  | written .modified (.property .reported ..) => "featurePropertyModified"
  | written .created (.property .desired ..) => "featureDesiredPropertyCreated"
  | written .modified (.property .desired ..) => "featureDesiredPropertyModified"
  | removed .whole => "thingDeleted"
  | removed .definition => "definitionDeleted"
  | removed .attributes => "attributesDeleted"
  | removed (.attributeAt _) => "attributeDeleted"
  | removed .features => "featuresDeleted"
  | removed (.feature _) => "featureDeleted"
  | removed (.properties .reported _) => "featurePropertiesDeleted"
  | removed (.properties .desired _) => "featureDesiredPropertiesDeleted"
  | removed (.property .reported ..) => "featurePropertyDeleted"
  | removed (.property .desired ..) => "featureDesiredPropertyDeleted"

/-- The fields of a change. -/
def payload : ThingChange → Json
  | created t | replaced t => .ofFields [("thing", some t.toJson)]
  | policyAssigned id => .ofFields [("policyId", some (Wire.encode id))]
  | written _ piece => piece.payload
  | removed item => item.payload

/-- How changes are decoded, by name. -/
def table {σ : Type} [Source σ] : List (String × VariantBody σ ThingChange) :=
  [("thingCreated", .fields ((Fields.required "thing" Wire.decode).map created)),
    ("thingModified", .fields ((Fields.required "thing" Wire.decode).map replaced)),
    ("thingDeleted", .fields (.nothing (removed .whole))),
    ("policyIdModified", .fields ((Fields.required "policyId" Wire.decode).map policyAssigned)),
    ("definitionCreated", .fields (ThingPiece.definitionFields (written .created))),
    ("definitionModified", .fields (ThingPiece.definitionFields (written .modified))),
    ("definitionDeleted", .fields (.nothing (removed .definition))),
    ("attributesCreated", .fields (ThingPiece.attributesFields (written .created))),
    ("attributesModified", .fields (ThingPiece.attributesFields (written .modified))),
    ("attributesDeleted", .fields (.nothing (removed .attributes))),
    ("attributeCreated", .fields (ThingPiece.attributeFields (written .created))),
    ("attributeModified", .fields (ThingPiece.attributeFields (written .modified))),
    ("attributeDeleted", .fields (ThingItem.attributeFields fun p => removed (.attributeAt p))),
    ("featuresCreated", .fields (ThingPiece.featuresFields (written .created))),
    ("featuresModified", .fields (ThingPiece.featuresFields (written .modified))),
    ("featuresDeleted", .fields (.nothing (removed .features))),
    ("featureCreated", .fields (ThingPiece.featureFields (written .created))),
    ("featureModified", .fields (ThingPiece.featureFields (written .modified))),
    ("featureDeleted", .fields (ThingItem.featureFields fun id => removed (.feature id))),
    ("featurePropertiesCreated",
      .fields (ThingPiece.propertiesFields .reported (written .created))),
    ("featurePropertiesModified",
      .fields (ThingPiece.propertiesFields .reported (written .modified))),
    ("featurePropertiesDeleted",
      .fields (ThingItem.featureFields fun id => removed (.properties .reported id))),
    ("featurePropertyCreated",
      .fields (ThingPiece.propertyFields .reported (written .created))),
    ("featurePropertyModified",
      .fields (ThingPiece.propertyFields .reported (written .modified))),
    ("featurePropertyDeleted",
      .fields (ThingItem.propertyFields fun id p => removed (.property .reported id p))),
    ("featureDesiredPropertiesCreated",
      .fields (ThingPiece.propertiesFields .desired (written .created))),
    ("featureDesiredPropertiesModified",
      .fields (ThingPiece.propertiesFields .desired (written .modified))),
    ("featureDesiredPropertiesDeleted",
      .fields (ThingItem.featureFields fun id => removed (.properties .desired id))),
    ("featureDesiredPropertyCreated",
      .fields (ThingPiece.propertyFields .desired (written .created))),
    ("featureDesiredPropertyModified",
      .fields (ThingPiece.propertyFields .desired (written .modified))),
    ("featureDesiredPropertyDeleted",
      .fields (ThingItem.propertyFields fun id p => removed (.property .desired id p)))]

/-- Whether a change brings a thing to life. -/
def isCreation : ThingChange → Bool
  | created _ => true
  | _ => false

instance : Change ThingChange where
  aggregate := "thing"
  space := "things.events"
  name := name
  isCreation := isCreation
  payload := payload
  table := table

instance : Wire ThingChange := ⟨Change.encode, Change.decode⟩

end ThingChange

namespace Thing

/-- The thing with its lifecycle set. -/
def withLifecycle (t : Thing) (l : Lifecycle) : Thing :=
  { t with book := { t.book with lifecycle := l } }

/-- The thing a creation event brings to life. -/
def ofCreation (e : Event .thing ThingChange) : Except Failure Thing :=
  match e.change with
  | .created t => .ok (t.withLifecycle .active)
  | _ => .error (Aggregate.notApplicable e .notCreation)

/-- The replacement of a thing: active, and as old as the thing it replaces. -/
def replaceBy (t replacement : Thing) : Thing :=
  { replacement with
    book := { replacement.book with
      lifecycle := .active
      created := t.book.created.or replacement.book.created } }

/-- The thing after any event but a creation. -/
def after (e : Event .thing ThingChange) (t : Thing) : Except Failure Thing :=
  match e.change with
  | .created _ => .error (Aggregate.notApplicable e .thingExists)
  | .replaced replacement => .ok (t.replaceBy replacement)
  | .policyAssigned id => .ok { t with policyId := some id }
  | .written _ piece => .ok (piece.put t)
  | .removed item => .ok (item.removeFrom t)

instance : Aggregate Thing .thing ThingChange where
  id := Thing.id
  book := Thing.book
  withBook t book := { t with book }
  toJson := Thing.toJson
  create := ofCreation
  modify := after

end Thing

end GuardedThings
