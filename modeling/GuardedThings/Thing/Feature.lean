import GuardedThings.Policy.Entry

/-!
# Definitions and features

A definition names the model that a thing or a feature conforms to. A feature
has reported properties and desired properties, both JSON objects, each of
which may be absent.
-/

set_option autoImplicit false

namespace GuardedThings

namespace Definition

/-- Whether a text is one of the three parts of a definition. -/
def isPart (cs : List Char) : Bool :=
  !cs.isEmpty && !cs.any fun c => Text.isBlank c || c = '/'

/-- Whether a text is a definition: namespace, name and version with colons between them. -/
def isDefinition (text : String) : Bool :=
  let parts := Text.split ':' text.toList
  parts.length = 3 && parts.all isPart

end Definition

/-- The name of a model. -/
structure Definition where
  text : String
  wellFormed : Definition.isDefinition text = true
deriving DecidableEq

namespace Definition

/-- Reads a definition. -/
def parse (raw : String) : Except Failure Definition :=
  if h : isDefinition raw = true then .ok ⟨raw, h⟩
  else .error (.jsonInvalid s!"definition '{raw}' must have the form 'namespace:name:version'")

instance : Wire Definition := ⟨fun d => .string d.text, Decoder.parsed Definition.parse⟩

end Definition

/-- The models a feature conforms to; at least one. -/
structure FeatureDefinition where
  identifiers : List Definition
  nonempty : identifiers ≠ []
deriving DecidableEq

namespace FeatureDefinition

/-- The definition of the given models, of which there must be one. -/
def ofList (identifiers : List Definition) : Except Failure FeatureDefinition :=
  if h : identifiers ≠ [] then .ok ⟨identifiers, h⟩
  else .error (.jsonInvalid "feature definition must contain at least one identifier")

instance : Wire FeatureDefinition where
  encode d := .array (d.identifiers.map Wire.encode)
  decode s := do
    match ofList (← Decoder.list Wire.decode s) with
    | .ok d => .ok d
    | .error failure => .error (.refused failure)

end FeatureDefinition

namespace FeatureId

/-- Whether a text is a feature id: not empty, no slash, no control characters. -/
def isId (text : String) : Bool :=
  text ≠ "" && !text.toList.any fun c => c = '/' || Text.isControl c

end FeatureId

/-- The name of a feature within its thing. -/
structure FeatureId where
  text : String
  wellFormed : FeatureId.isId text = true
deriving DecidableEq

namespace FeatureId

instance : Key FeatureId where
  names id := [id.text]
  names_injective {a b} h := by
    obtain ⟨_, _⟩ := a
    obtain ⟨_, _⟩ := b
    simp only [List.cons.injEq, and_true] at h
    cases h
    rfl

/-- Reads a feature id. -/
def parse (raw : String) : Except Failure FeatureId :=
  if h : isId raw = true then .ok ⟨raw, h⟩
  else .error (.jsonInvalid s!"feature id '{raw}' must be non-empty and must not contain '/'")

instance : Wire FeatureId := ⟨fun id => .string id.text, Decoder.parsed FeatureId.parse⟩

end FeatureId

namespace Pointer

/-- The value at a pointer below the root of an object that may be absent. -/
def getIn? (p : Pointer) (object : Option JsonObject) : Option Json :=
  if p.isRoot then none else object.bind fun members => p.get? (.object members)

/-- The object with a value set; an absent object counts as empty, and only an object can replace
the whole of it. -/
def setIn (p : Pointer) (object : Option JsonObject) (value : Json) : JsonObject :=
  let members := object.getD []
  ((p.set (.object members) value).members?).getD members

/-- The object without the value at a pointer. -/
def removeIn (p : Pointer) (members : JsonObject) : JsonObject :=
  match p.remove? (.object members) with
  | some (_, .object rest) => rest
  | _ => members

end Pointer

/-- The two sets of properties of a feature. -/
inductive PropertySide where
  /-- The properties the thing reports. -/
  | reported
  /-- The properties the thing should have. -/
  | desired
deriving DecidableEq

/-- The name of the member of a feature that holds the properties. -/
def PropertySide.memberName : PropertySide → String
  | reported => "properties"
  | desired => "desiredProperties"

/-- A feature of a thing. -/
structure Feature where
  definition : Option FeatureDefinition := none
  properties : Option JsonObject := none
  desiredProperties : Option JsonObject := none
deriving DecidableEq

namespace Feature

/-- The feature without definition and properties. -/
def empty : Feature := {}

/-- The properties of one side. -/
def side (f : Feature) : PropertySide → Option JsonObject
  | .reported => f.properties
  | .desired => f.desiredProperties

/-- The feature with the properties of one side replaced. -/
def withSide (f : Feature) (s : PropertySide) (properties : Option JsonObject) : Feature :=
  match s with
  | .reported => { f with properties }
  | .desired => { f with desiredProperties := properties }

/-- The property at a pointer. -/
def property? (f : Feature) (s : PropertySide) (p : Pointer) : Option Json := p.getIn? (f.side s)

/-- The feature with a property set. -/
def setProperty (f : Feature) (s : PropertySide) (p : Pointer) (value : Json) : Feature :=
  f.withSide s (some (p.setIn (f.side s) value))

/-- The feature without a property. -/
def removeProperty (f : Feature) (s : PropertySide) (p : Pointer) : Feature :=
  f.withSide s ((f.side s).map p.removeIn)

/-- The fields of a feature. -/
def fields {σ : Type} [Source σ] : Fields σ Feature :=
  ((Fields.optional "definition" Wire.decode).and <|
    (Fields.optional "properties" Wire.decode).and
      (Fields.optional "desiredProperties" Wire.decode)).map
    fun (definition, properties, desiredProperties) =>
      { definition, properties, desiredProperties }

instance : Wire Feature where
  encode f := Json.ofFields
    [("definition", f.definition.map Wire.encode),
      ("desiredProperties", f.desiredProperties.map Wire.encode),
      ("properties", f.properties.map Wire.encode)]
  decode := fields.decode

end Feature

/-- The features of a thing. -/
abbrev Features := Dict FeatureId Feature

instance : Wire Features where
  encode := Dict.toJson (·.text) Wire.encode
  decode := Decoder.dict FeatureId.parse Wire.decode

end GuardedThings
