import GuardedThings.Bookkeeping
import GuardedThings.Thing.Feature

/-!
# Things

A thing has attributes and features, may have a definition, and is governed by
a policy. It carries the bookkeeping of a stored entity.
-/

set_option autoImplicit false

namespace GuardedThings

/-- The digital counterpart of a thing. -/
structure Thing where
  id : ThingId
  /-- The policy that governs the thing. -/
  policyId : Option PolicyId := none
  definition : Option Definition := none
  attributes : Option JsonObject := none
  features : Option Features := none
  book : Bookkeeping := .fresh
deriving DecidableEq

namespace Thing

/-- The active thing without content. -/
def new (id : ThingId) : Thing := { id }

/-- Whether the thing was deleted. -/
def isDeleted (t : Thing) : Bool := t.book.lifecycle.isDeleted

/-- The attribute at a pointer. -/
def attribute? (t : Thing) (p : Pointer) : Option Json := p.getIn? t.attributes

/-- The thing with an attribute set. -/
def setAttribute (t : Thing) (p : Pointer) (value : Json) : Thing :=
  { t with attributes := some (p.setIn t.attributes value) }

/-- The thing without an attribute. -/
def removeAttribute (t : Thing) (p : Pointer) : Thing :=
  { t with attributes := t.attributes.map p.removeIn }

/-- The feature with the given id. -/
def feature? (t : Thing) (id : FeatureId) : Option Feature := t.features.bind fun fs => fs.get? id

/-- The thing with a feature added or replaced. -/
def setFeature (t : Thing) (id : FeatureId) (f : Feature) : Thing :=
  { t with features := some ((t.features.getD .empty).insert id f) }

/-- The thing without a feature. -/
def removeFeature (t : Thing) (id : FeatureId) : Thing :=
  { t with features := t.features.map fun fs => fs.erase id }

/-- The thing with a feature changed; a missing feature counts as empty. -/
def updateFeature (t : Thing) (id : FeatureId) (f : Feature → Feature) : Thing :=
  t.setFeature id (f ((t.feature? id).getD .empty))

/-- The fields of a thing document. -/
def fields {σ : Type} [Source σ] : Fields σ Thing :=
  ((Fields.required "thingId" Wire.decode).and <|
    (Fields.optional "policyId" Wire.decode).and <|
    (Fields.optional "definition" Wire.decode).and <|
    (Fields.optional "attributes" Wire.decode).and <|
    (Fields.optional "features" Wire.decode).and Bookkeeping.fields).map
    fun (id, policyId, definition, attributes, features, book) =>
      { id, policyId, definition, attributes, features, book }

instance : Wire Thing where
  encode t := Json.ofFields
    (t.book.members ++
      [("attributes", t.attributes.map Wire.encode),
        ("definition", t.definition.map Wire.encode),
        ("features", t.features.map Wire.encode),
        ("policyId", t.policyId.map Wire.encode),
        ("thingId", some (Wire.encode t.id))])
  decode := fields.decode

/-- The thing document. -/
def toJson (t : Thing) : Json := Wire.encode t

end Thing

end GuardedThings
