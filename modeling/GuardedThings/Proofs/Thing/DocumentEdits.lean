import GuardedThings.Proofs.Json.RecordEdits
import GuardedThings.Proofs.Json.Tidy
import GuardedThings.Proofs.Thing.WireForm

/-!
# Edits of thing documents

What an event does to a thing, seen in its document. To put a piece in place is
to write its content at the place of its part (`ThingPiece.toJson_put`), and to
remove an item is to remove what is there (`ThingItem.toJson_removeFrom`); what a
part holds is what the document says at its place
(`ThingPart.get?_eq_get?_place`).

A place is a path in a few steps: the member of the thing, the feature, the side
of its properties, the pointer. One lemma for each step says how the typed value
and the document correspond there, and `Json.setPath_append` and
`Json.removePath?_append` put the steps together.
-/

set_option autoImplicit false

namespace GuardedThings

/-! ## Pointers -/

namespace Pointer

/-- A pointer that is not the root has segments. -/
theorem segments_ne_nil {p : Pointer} (h : p.isRoot = false) : p.segments ≠ [] := by
  intro hnil
  unfold isRoot at h
  rw [hnil] at h
  cases h

variable {p : Pointer}

/-- What a pointer finds in an object is what its path leads to. -/
theorem getIn?_eq (h : p.isRoot = false) (object : Option JsonObject) :
    p.getIn? object = (object.map Json.object).bind fun v => v.getPath? p.segments := by
  unfold getIn?
  rw [h]
  cases object with
  | none => rfl
  | some members => rfl

/-- Where a pointer finds something, there is an object and its path leads there. -/
theorem exists_of_getIn? {object : Option JsonObject} {w : Json} (h : p.isRoot = false)
    (hw : p.getIn? object = some w) :
    ∃ members, object = some members ∧ (Json.object members).getPath? p.segments = some w := by
  rw [getIn?_eq h] at hw
  obtain ⟨v, hv, hw⟩ := Option.bind_eq_some_iff.mp hw
  obtain ⟨members, hmembers, rfl⟩ := Option.map_eq_some_iff.mp hv
  exact ⟨members, hmembers, hw⟩

/-- Writing into an object that may be absent is writing into a value that may be missing. -/
theorem object_setIn (h : p.isRoot = false) (object : Option JsonObject) (value : Json) :
    Json.object (p.setIn object value) =
      ((object.map Json.object).getD .null).setPath p.segments value := by
  unfold setIn set
  cases hsegments : p.segments with
  | nil => exact absurd hsegments (segments_ne_nil h)
  | cons name rest =>
    cases object with
    | none => rfl
    | some members => rfl

/-- Removing from an object what is there leaves the object without it. -/
theorem removePath?_object {members : JsonObject} {w : Json} (h : p.isRoot = false)
    (hw : (Json.object members).getPath? p.segments = some w) :
    (Json.object members).removePath? p.segments = some (w, .object (p.removeIn members)) := by
  obtain ⟨rest, hremoved⟩ := Json.removePath?_of_getPath? (segments_ne_nil h) hw
  unfold removeIn remove?
  rw [hremoved]

end Pointer

/-! ## Members of a thing -/

namespace Thing

variable (t : Thing)

/-- The names of the members of a thing document, ascending. -/
def memberNames : List String :=
  ["_created", "_lifecycle", "_modified", "_revision", "attributes", "definition", "features",
    "policyId", "thingId"]

/-- The members of a thing stand in the order of their names. -/
theorem memberNames_ascending : memberNames.Pairwise Key.Before := by decide

/-- The members that are no bookkeeping. -/
def contentFields : List (String × Option Json) :=
  [("attributes", t.attributes.map Wire.encode), ("definition", t.definition.map Wire.encode),
    ("features", t.features.map Wire.encode), ("policyId", t.policyId.map Wire.encode),
    ("thingId", some (Wire.encode t.id))]

/-- What the document says under a name is what the field of that name says. -/
theorem member?_toJson (name : String) :
    t.toJson.member? name = (Assoc.get? name (t.book.members ++ t.contentFields)).join := by
  refine Json.get?_present ?_ name
  show memberNames.Nodup
  exact memberNames_ascending.imp fun hlt => hlt.ne

/-- Bookkeeping makes no difference to the other members. -/
theorem member?_toJson_withBook (book : Bookkeeping) {name : String}
    (h : name ∉ ["_created", "_lifecycle", "_modified", "_revision"]) :
    ({ t with book } : Thing).toJson.member? name = t.toJson.member? name := by
  have hbook : ∀ b : Bookkeeping, Assoc.get? name (b.members ++ t.contentFields) =
      Assoc.get? name t.contentFields := by
    intro b
    simp only [List.mem_cons, List.not_mem_nil, or_false, not_or] at h
    simp [Bookkeeping.members, Assoc.get?_cons, Ne.symm h.1, Ne.symm h.2.1, Ne.symm h.2.2.1,
      Ne.symm h.2.2.2]
  rw [member?_toJson, member?_toJson, hbook t.book]
  exact congrArg Option.join (hbook book)

/-- Whether a path leads to something else than the bookkeeping. -/
def IsContent (path : List String) : Prop :=
  ∀ name, path.head? = some name → name ∉ ["_created", "_lifecycle", "_modified", "_revision"]

/-- Bookkeeping makes no difference to the content. -/
theorem getPath?_toJson_withBook (book : Bookkeeping) {path : List String}
    (hne : path ≠ []) (hcontent : IsContent path) :
    ({ t with book } : Thing).toJson.getPath? path = t.toJson.getPath? path := by
  cases path with
  | nil => exact absurd rfl hne
  | cons name rest =>
    rw [Json.getPath?_cons, Json.getPath?_cons, t.member?_toJson_withBook book (hcontent name rfl)]

/-- The attributes are found in the document of a thing, if it has any. -/
theorem getPath?_toJson_attributes :
    t.toJson.getPath? ["attributes"] = t.attributes.map Json.object := by
  rw [Json.getPath?_cons, member?_toJson]
  exact Option.bind_fun_some _

/-- The definition is found in the document of a thing, if it has one. -/
theorem getPath?_toJson_definition :
    t.toJson.getPath? ["definition"] = t.definition.map Wire.encode := by
  rw [Json.getPath?_cons, member?_toJson]
  exact Option.bind_fun_some _

/-- The features are found in the document of a thing, if it has any. -/
theorem getPath?_toJson_features :
    t.toJson.getPath? ["features"] = t.features.map Wire.encode := by
  rw [Json.getPath?_cons, member?_toJson]
  exact Option.bind_fun_some _

/-- The policy id is found in the document of a thing, if it has one. -/
theorem getPath?_toJson_policyId :
    t.toJson.getPath? ["policyId"] = t.policyId.map Wire.encode := by
  rw [Json.getPath?_cons, member?_toJson]
  exact Option.bind_fun_some _

/-- New attributes of a thing are set in its document. -/
theorem toJson_attributes (members : JsonObject) :
    ({ t with attributes := some members } : Thing).toJson =
      t.toJson.setPath ["attributes"] (.object members) :=
  Json.setPath_ofFields t.book.members (t.contentFields.drop 1)
    (by exact memberNames_ascending) (t.attributes.map Wire.encode) _

/-- A new definition of a thing is set in its document. -/
theorem toJson_definition (d : Definition) :
    ({ t with definition := some d } : Thing).toJson =
      t.toJson.setPath ["definition"] (Wire.encode d) :=
  Json.setPath_ofFields (t.book.members ++ t.contentFields.take 1) (t.contentFields.drop 2)
    (by exact memberNames_ascending) (t.definition.map Wire.encode) _

/-- New features of a thing are set in its document. -/
theorem toJson_features (fs : Features) :
    ({ t with features := some fs } : Thing).toJson =
      t.toJson.setPath ["features"] (Wire.encode fs) :=
  Json.setPath_ofFields (t.book.members ++ t.contentFields.take 2) (t.contentFields.drop 3)
    (by exact memberNames_ascending) (t.features.map Wire.encode) _

/-- A new policy id of a thing is set in its document. -/
theorem toJson_policyId (id : PolicyId) :
    ({ t with policyId := some id } : Thing).toJson =
      t.toJson.setPath ["policyId"] (Wire.encode id) :=
  Json.setPath_ofFields (t.book.members ++ t.contentFields.take 3) (t.contentFields.drop 4)
    (by exact memberNames_ascending) (t.policyId.map Wire.encode) _

variable {t}

/-- To remove the attributes removes them from the document. -/
theorem removePath?_attributes {members : JsonObject} (h : t.attributes = some members) :
    t.toJson.removePath? ["attributes"] =
      some (.object members, ({ t with attributes := none } : Thing).toJson) := by
  obtain ⟨id, policyId, definition, attributes, features, book⟩ := t
  cases h
  exact Json.removePath?_ofFields book.members _ (by exact memberNames_ascending) _

/-- To remove the definition removes it from the document. -/
theorem removePath?_definition {d : Definition} (h : t.definition = some d) :
    t.toJson.removePath? ["definition"] =
      some (Wire.encode d, ({ t with definition := none } : Thing).toJson) := by
  obtain ⟨id, policyId, definition, attributes, features, book⟩ := t
  cases h
  exact Json.removePath?_ofFields (book.members ++ [("attributes", attributes.map Wire.encode)]) _
    (by exact memberNames_ascending) _

/-- To remove the features removes them from the document. -/
theorem removePath?_features {fs : Features} (h : t.features = some fs) :
    t.toJson.removePath? ["features"] =
      some (Wire.encode fs, ({ t with features := none } : Thing).toJson) := by
  obtain ⟨id, policyId, definition, attributes, features, book⟩ := t
  cases h
  exact Json.removePath?_ofFields (book.members ++ [("attributes", attributes.map Wire.encode),
    ("definition", definition.map Wire.encode)]) _ (by exact memberNames_ascending) _

/-! ### Tidiness -/

/-- A thing document is tidy exactly if its attributes and its features are. -/
theorem tidy_toJson_iff (t : Thing) :
    t.toJson.Tidy ↔ (∀ members, t.attributes = some members → (Json.object members).Tidy) ∧
      ∀ fs, t.features = some fs → (Wire.encode fs : Json).Tidy := by
  constructor
  · intro h
    refine ⟨?_, ?_⟩
    · intro members hmembers
      have hpath := t.getPath?_toJson_attributes
      rw [hmembers] at hpath
      exact h.getPath? hpath
    · intro fs hfs
      have hpath := t.getPath?_toJson_features
      rw [hfs] at hpath
      exact h.getPath? hpath
  · rintro ⟨hattributes, hfeatures⟩
    refine Json.tidy_ofFields (by exact memberNames_ascending) fun name value hmem => ?_
    rcases List.mem_append.mp hmem with hbook | hmem
    · exact t.book.tidy_members hbook
    · simp only [List.mem_cons, List.not_mem_nil, or_false, Prod.mk.injEq] at hmem
      rcases hmem with ⟨-, hfield⟩ | ⟨-, hfield⟩ | ⟨-, hfield⟩ | ⟨-, hfield⟩ | ⟨-, hfield⟩
      · obtain ⟨members, hmembers, rfl⟩ := Option.map_eq_some_iff.mp hfield.symm
        exact hattributes members hmembers
      · obtain ⟨d, -, rfl⟩ := Option.map_eq_some_iff.mp hfield.symm
        exact Json.tidy_of_noObject rfl
      · obtain ⟨fs, hfs, rfl⟩ := Option.map_eq_some_iff.mp hfield.symm
        exact hfeatures fs hfs
      · obtain ⟨id, -, rfl⟩ := Option.map_eq_some_iff.mp hfield.symm
        exact Json.tidy_of_noObject rfl
      · cases hfield
        exact Json.tidy_of_noObject rfl

/-- Whether a thing document is tidy depends on its attributes and its features only. -/
theorem tidy_toJson_congr {t u : Thing} (h : t.toJson.Tidy)
    (hattributes : u.attributes = t.attributes) (hfeatures : u.features = t.features) :
    u.toJson.Tidy := by
  rw [tidy_toJson_iff] at h ⊢
  rw [hattributes, hfeatures]
  exact h

end Thing

/-! ## Features -/

namespace Feature

/-- The members of a feature stand in the order of their names. -/
theorem memberNames_ascending :
    ["definition", "desiredProperties", "properties"].Pairwise Key.Before := by
  decide

/-- The properties of one side are found in the document of a feature, if it has any. -/
theorem getPath?_encode_side (f : Feature) (side : PropertySide) :
    (Wire.encode f : Json).getPath? [side.memberName] = (f.side side).map Json.object := by
  have hmember : ∀ name, (Wire.encode f : Json).member? name =
      (Assoc.get? name [("definition", f.definition.map Wire.encode),
        ("desiredProperties", f.desiredProperties.map Wire.encode),
        ("properties", f.properties.map Wire.encode)]).join := by
    intro name
    refine Json.get?_present ?_ name
    exact memberNames_ascending.imp fun hlt => hlt.ne
  rw [Json.getPath?_cons, hmember]
  cases side with
  | reported => exact Option.bind_fun_some _
  | desired => exact Option.bind_fun_some _

/-- New properties of one side are set in the document of the feature. -/
theorem encode_withSide (f : Feature) (side : PropertySide) (members : JsonObject) :
    (Wire.encode (f.withSide side (some members)) : Json) =
      (Wire.encode f : Json).setPath [side.memberName] (.object members) := by
  cases side with
  | reported =>
    exact Json.setPath_ofFields [("definition", f.definition.map Wire.encode),
      ("desiredProperties", f.desiredProperties.map Wire.encode)] []
      (by exact memberNames_ascending) (f.properties.map Wire.encode) _
  | desired =>
    exact Json.setPath_ofFields [("definition", f.definition.map Wire.encode)]
      [("properties", f.properties.map Wire.encode)]
      (by exact memberNames_ascending) (f.desiredProperties.map Wire.encode) _

/-- To remove the properties of one side removes them from the document. -/
theorem removePath?_encode_side {f : Feature} {side : PropertySide} {members : JsonObject}
    (h : f.side side = some members) :
    (Wire.encode f : Json).removePath? [side.memberName] =
      some (.object members, Wire.encode (f.withSide side none)) := by
  obtain ⟨definition, properties, desiredProperties⟩ := f
  cases side with
  | reported =>
    cases h
    exact Json.removePath?_ofFields [("definition", definition.map Wire.encode),
      ("desiredProperties", desiredProperties.map Wire.encode)] []
      (by exact memberNames_ascending) _
  | desired =>
    cases h
    exact Json.removePath?_ofFields [("definition", definition.map Wire.encode)]
      [("properties", properties.map Wire.encode)] (by exact memberNames_ascending) _

end Feature

namespace Features

/-- Feature ids differ if their texts do, and only then. -/
theorem text_injective {k l : FeatureId} (h : k.text = l.text) : k = l :=
  Decoder.text_injective_of_parse FeatureId.parse_text h

/-- A feature is found in the document of the features under its id. -/
theorem member?_encode (fs : Features) (id : FeatureId) :
    (Wire.encode fs : Json).member? id.text = (fs.get? id).map Wire.encode :=
  Dict.get?_jsonMembers text_injective fs id

end Features

namespace Thing

variable (t : Thing)

/-- A feature is found in the document of the thing under its id. -/
theorem getPath?_toJson_feature (id : FeatureId) :
    t.toJson.getPath? ["features", id.text] = (t.feature? id).map Wire.encode := by
  show t.toJson.getPath? (["features"] ++ [id.text]) = _
  rw [Json.getPath?_append, getPath?_toJson_features]
  unfold feature?
  cases t.features with
  | none => rfl
  | some fs =>
    show ((Wire.encode fs : Json).member? id.text).bind some = (fs.get? id).map Wire.encode
    rw [Option.bind_fun_some, Features.member?_encode]

/-- A new feature of a thing is set in its document under its id. -/
theorem toJson_setFeature (id : FeatureId) (f : Feature) :
    (t.setFeature id f).toJson = t.toJson.setPath ["features", id.text] (Wire.encode f) := by
  show _ = t.toJson.setPath (["features"] ++ [id.text]) _
  rw [Json.setPath_append, getPath?_toJson_features]
  unfold setFeature
  rw [toJson_features]
  congr 1
  show ((t.features.getD .empty).insert id f).toJson (·.text) Wire.encode = _
  rw [Dict.toJson_insert Features.text_injective]
  cases t.features with
  | none => rfl
  | some fs => rfl

variable {t}

/-- To remove a feature removes it from the document. -/
theorem removePath?_feature {id : FeatureId} {f : Feature} (h : t.feature? id = some f) :
    t.toJson.removePath? ["features", id.text] =
      some (Wire.encode f, (t.removeFeature id).toJson) := by
  obtain ⟨fs, hfs, hf⟩ := Option.bind_eq_some_iff.mp h
  have hrest : (t.removeFeature id).toJson =
      t.toJson.setPath ["features"] (Wire.encode (fs.erase id)) := by
    unfold removeFeature
    rw [hfs]
    exact t.toJson_features (fs.erase id)
  show t.toJson.removePath? (["features"] ++ [id.text]) = _
  rw [Json.removePath?_append _ _ (List.cons_ne_nil _ _), getPath?_toJson_features, hfs,
    Option.map_some, Option.bind_some]
  show ((fs.toJson (·.text) Wire.encode).removePath? [id.text]).map _ = _
  rw [Dict.removePath?_toJson Features.text_injective fs id hf, hrest]
  rfl

end Thing

/-! ## Places -/

namespace ThingPart

/-- The place of a feature is spelled by two names. -/
theorem segments_featurePlace (id : FeatureId) :
    (featuresPointer.append id.text).segments = ["features", id.text] := by
  have hne : id.text ≠ "" := by
    intro hempty
    have hid := id.wellFormed
    rw [hempty] at hid
    exact absurd hid (by decide)
  rw [Pointer.segments_append _ hne]
  rfl

/-- The place of the properties of one side is a name further down than the feature. -/
theorem segments_sidePlace (side : PropertySide) (id : FeatureId) :
    ((featuresPointer.append id.text).append side.memberName).segments =
      ["features", id.text] ++ [side.memberName] := by
  have hne : side.memberName ≠ "" := by
    cases side with
    | reported => decide
    | desired => decide
  rw [Pointer.segments_append _ hne, segments_featurePlace]

/-- The place of a property is that of its feature, the side, and the pointer. -/
theorem segments_place_property (side : PropertySide) (id : FeatureId) (p : Pointer) :
    (property side id p).place.segments =
      ["features", id.text] ++ ([side.memberName] ++ p.segments) := by
  show ((featuresPointer.append id.text).append side.memberName).segments ++ p.segments = _
  rw [segments_sidePlace, List.append_assoc]

/-- The place of a part lies in a member that is no bookkeeping. -/
theorem exists_segments_place {part : ThingPart} (h : part ≠ whole) :
    ∃ name rest, part.place.segments = name :: rest ∧
      name ∈ ["attributes", "definition", "features", "policyId"] := by
  cases part with
  | whole => exact absurd rfl h
  | policyId => exact ⟨"policyId", [], rfl, by decide⟩
  | definition => exact ⟨"definition", [], rfl, by decide⟩
  | attributes => exact ⟨"attributes", [], rfl, by decide⟩
  | attributeAt p => exact ⟨"attributes", p.segments, rfl, by decide⟩
  | features => exact ⟨"features", [], rfl, by decide⟩
  | feature id => exact ⟨"features", [id.text], segments_featurePlace id, by decide⟩
  | properties side id =>
    exact ⟨"features", [id.text, side.memberName], segments_sidePlace side id, by decide⟩
  | property side id p =>
    exact ⟨"features", _, segments_place_property side id p, by decide⟩

/-- Bookkeeping makes no difference at the place of a part. -/
theorem get?_place_withBook (t : Thing) (book : Bookkeeping) {part : ThingPart} (h : part ≠ whole) :
    part.place.get? ({ t with book } : Thing).toJson = part.place.get? t.toJson := by
  obtain ⟨name, rest, hsegments, hname⟩ := exists_segments_place h
  have hcontent : Thing.IsContent part.place.segments := by
    intro first hfirst
    rw [hsegments] at hfirst
    cases hfirst
    simp only [List.mem_cons, List.not_mem_nil, or_false] at hname
    rcases hname with rfl | rfl | rfl | rfl
    · decide
    · decide
    · decide
    · decide
  have hne : part.place.segments ≠ [] := by
    rw [hsegments]
    exact List.cons_ne_nil _ _
  exact t.getPath?_toJson_withBook book hne hcontent

/-- What a part holds is what the document says at its place. -/
theorem get?_eq_get?_place (t : Thing) (part : ThingPart) (h : part.isMisplaced = false) :
    part.get? t = part.place.get? t.toJson := by
  unfold Pointer.get?
  cases part with
  | whole => rfl
  | policyId => exact t.getPath?_toJson_policyId.symm
  | definition => exact t.getPath?_toJson_definition.symm
  | attributes => exact t.getPath?_toJson_attributes.symm
  | attributeAt p =>
    show p.getIn? t.attributes = t.toJson.getPath? (["attributes"] ++ p.segments)
    rw [Json.getPath?_append, t.getPath?_toJson_attributes, Pointer.getIn?_eq h]
  | features => exact t.getPath?_toJson_features.symm
  | feature id =>
    show (t.feature? id).map Wire.encode =
      t.toJson.getPath? (featuresPointer.append id.text).segments
    rw [segments_featurePlace, t.getPath?_toJson_feature]
  | properties side id =>
    show ((t.feature? id).bind fun f => f.side side).map Wire.encode =
      t.toJson.getPath? ((featuresPointer.append id.text).append side.memberName).segments
    rw [segments_sidePlace, Json.getPath?_append, t.getPath?_toJson_feature]
    cases t.feature? id with
    | none => rfl
    | some f => exact (f.getPath?_encode_side side).symm
  | property side id p =>
    rw [segments_place_property, Json.getPath?_append, t.getPath?_toJson_feature]
    show ((t.feature? id).bind fun f => p.getIn? (f.side side)) = _
    cases t.feature? id with
    | none => rfl
    | some f =>
      show p.getIn? (f.side side) =
        (Wire.encode f : Json).getPath? ([side.memberName] ++ p.segments)
      rw [Json.getPath?_append, f.getPath?_encode_side, Pointer.getIn?_eq h]

end ThingPart

/-! ## Edits -/

/-- To put a piece in place is to write its content at the place of its part. -/
theorem ThingPiece.toJson_put {t : Thing} {piece : ThingPiece}
    (placed : piece.part.isMisplaced = false)
    (owned : ∀ id, piece.part.owner? = some id → (t.feature? id).isSome) :
    (piece.put t).toJson = piece.part.place.set t.toJson piece.toJson := by
  unfold Pointer.set
  cases piece with
  | definition d => exact t.toJson_definition d
  | attributes members => exact t.toJson_attributes members
  | attributeAt p v =>
    show (t.setAttribute p v).toJson = t.toJson.setPath (["attributes"] ++ p.segments) v
    rw [Json.setPath_append, t.getPath?_toJson_attributes, ← Pointer.object_setIn placed]
    exact t.toJson_attributes _
  | features fs => exact t.toJson_features fs
  | feature id f =>
    show (t.setFeature id f).toJson =
      t.toJson.setPath (ThingPart.featuresPointer.append id.text).segments (Wire.encode f)
    rw [ThingPart.segments_featurePlace]
    exact t.toJson_setFeature id f
  | properties side id members =>
    obtain ⟨f, hf⟩ := Option.isSome_iff_exists.mp (owned id rfl)
    show (t.updateFeature id _).toJson = t.toJson.setPath
      ((ThingPart.featuresPointer.append id.text).append side.memberName).segments (.object members)
    unfold Thing.updateFeature
    rw [ThingPart.segments_sidePlace, Json.setPath_append, t.getPath?_toJson_feature, hf,
      t.toJson_setFeature, Option.getD_some, f.encode_withSide]
    rfl
  | property side id p v =>
    obtain ⟨f, hf⟩ := Option.isSome_iff_exists.mp (owned id rfl)
    show (t.updateFeature id _).toJson =
      t.toJson.setPath (ThingPart.property side id p).place.segments v
    unfold Thing.updateFeature Feature.setProperty
    rw [ThingPart.segments_place_property, Json.setPath_append, t.getPath?_toJson_feature, hf,
      t.toJson_setFeature, Option.getD_some, f.encode_withSide, Pointer.object_setIn placed,
      Option.map_some, Option.getD_some, Json.setPath_append, f.getPath?_encode_side]

/-- To remove an item that is there is to remove what the document says at its place. -/
theorem ThingItem.toJson_removeFrom {t : Thing} {item : ThingItem} (inside : item ≠ .whole)
    (placed : item.part.isMisplaced = false)
    (found : (item.part.get? t).isSome) :
    ∃ removed, item.part.place.remove? t.toJson = some (removed, (item.removeFrom t).toJson) := by
  obtain ⟨content, hcontent⟩ := Option.isSome_iff_exists.mp found
  unfold Pointer.remove?
  -- A member of the document or of a feature is removed as such. What a pointer leads to is removed
  -- from the member that it starts in, and this member is set anew.
  cases item with
  | whole => exact absurd rfl inside
  | definition =>
    obtain ⟨d, hd, -⟩ := Option.map_eq_some_iff.mp hcontent
    exact ⟨_, Thing.removePath?_definition hd⟩
  | attributes =>
    obtain ⟨members, hmembers, -⟩ := Option.map_eq_some_iff.mp hcontent
    exact ⟨_, Thing.removePath?_attributes hmembers⟩
  | attributeAt p =>
    obtain ⟨members, hmembers, hget⟩ := Pointer.exists_of_getIn? placed hcontent
    refine ⟨content, ?_⟩
    show t.toJson.removePath? (["attributes"] ++ p.segments) =
      some (content, (t.removeAttribute p).toJson)
    unfold Thing.removeAttribute
    rw [Json.removePath?_append _ _ (Pointer.segments_ne_nil placed),
      t.getPath?_toJson_attributes, hmembers, Option.map_some, Option.map_some, Option.bind_some,
      Pointer.removePath?_object placed hget, t.toJson_attributes]
    rfl
  | features =>
    obtain ⟨fs, hfs, -⟩ := Option.map_eq_some_iff.mp hcontent
    exact ⟨_, Thing.removePath?_features hfs⟩
  | feature id =>
    obtain ⟨f, hf, -⟩ := Option.map_eq_some_iff.mp hcontent
    refine ⟨Wire.encode f, ?_⟩
    show t.toJson.removePath? (ThingPart.featuresPointer.append id.text).segments = _
    rw [ThingPart.segments_featurePlace]
    exact Thing.removePath?_feature hf
  | properties side id =>
    obtain ⟨members, hside, -⟩ := Option.map_eq_some_iff.mp hcontent
    obtain ⟨f, hf, hside⟩ := Option.bind_eq_some_iff.mp hside
    refine ⟨.object members, ?_⟩
    show t.toJson.removePath?
      ((ThingPart.featuresPointer.append id.text).append side.memberName).segments =
        some (_, (t.updateFeature id _).toJson)
    unfold Thing.updateFeature
    rw [ThingPart.segments_sidePlace, Json.removePath?_append _ _ (List.cons_ne_nil _ _),
      t.getPath?_toJson_feature, hf, Option.map_some, Option.bind_some,
      Feature.removePath?_encode_side hside, t.toJson_setFeature]
    rfl
  | property side id p =>
    obtain ⟨f, hf, hget⟩ := Option.bind_eq_some_iff.mp hcontent
    obtain ⟨members, hside, hget⟩ := Pointer.exists_of_getIn? placed hget
    refine ⟨content, ?_⟩
    show t.toJson.removePath? (ThingPart.property side id p).place.segments =
      some (content, (t.updateFeature id fun f => f.removeProperty side p).toJson)
    have hremoved : (Wire.encode (f.removeProperty side p) : Json) =
        (Wire.encode f : Json).setPath [side.memberName] (.object (p.removeIn members)) := by
      unfold Feature.removeProperty
      rw [hside]
      exact f.encode_withSide side _
    unfold Thing.updateFeature
    have hbelow : [side.memberName] ++ p.segments ≠ [] := List.cons_ne_nil _ _
    rw [ThingPart.segments_place_property, Json.removePath?_append _ _ hbelow,
      t.getPath?_toJson_feature, hf, Option.map_some, Option.bind_some,
      Json.removePath?_append _ _ (Pointer.segments_ne_nil placed), f.getPath?_encode_side, hside,
      Option.map_some, Option.bind_some, Pointer.removePath?_object placed hget,
      t.toJson_setFeature, Option.getD_some, hremoved]
    rfl

end GuardedThings
