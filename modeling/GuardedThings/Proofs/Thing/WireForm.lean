import GuardedThings.Proofs.Policy.WireForm
import GuardedThings.Thing.Request

/-!
# Things read back

Every document, every change and every request of a thing is read back as it was
written. An absent attribute, property or definition is not written at all, and
none that is there is written as null, so nothing that is missing comes back and
nothing that is there gets lost. Values of attributes and properties may be
anything, null included: their fields are always written.
-/

set_option autoImplicit false

namespace GuardedThings

/-! ## Features -/

/-- The text of a definition is read back as the definition. -/
theorem Definition.parse_text (d : Definition) : parse d.text = .ok d := by
  unfold parse
  rw [dif_pos d.wellFormed]

instance : LawfulWire Definition := ⟨fun d => decode_parsed_string d.parse_text⟩

/-- The text of a feature id is read back as the id. -/
theorem FeatureId.parse_text (id : FeatureId) : parse id.text = .ok id := by
  unfold parse
  rw [dif_pos id.wellFormed]

instance : LawfulWire FeatureId := ⟨fun id => decode_parsed_string id.parse_text⟩

instance : LawfulWire FeatureDefinition where
  decode_encode d := by
    have hlist : Decoder.list Wire.decode (.array (d.identifiers.map Wire.encode) : Json) =
        .ok d.identifiers := decode_list_map LawfulWire.decode_encode d.identifiers
    have hkept : FeatureDefinition.ofList d.identifiers = .ok d := dif_pos d.nonempty
    show (do
      match FeatureDefinition.ofList
          (← Decoder.list Wire.decode (.array (d.identifiers.map Wire.encode) : Json)) with
      | .ok d => .ok d
      | .error failure => .error (.refused failure)) = (Except.ok d : Except Mismatch _)
    rw [hlist]
    show (match FeatureDefinition.ofList d.identifiers with
      | .ok d => .ok d
      | .error failure => .error (.refused failure)) = (Except.ok d : Except Mismatch _)
    rw [hkept]

instance : LawfulWire Feature where
  decode_encode f := by
    refine (((Fields.Reads.optional (by exact fun _ => nofun) ?_ rfl).and
      ((Fields.Reads.optional (by exact fun _ => nofun) ?_ rfl).and
        (Fields.Reads.optional (by exact fun _ => nofun) ?_ rfl) ?_) ?_).map _).decode
    all_goals simp

instance : LawfulWire Features where
  decode_encode fs := Decoder.dict_toJson FeatureId.parse_text LawfulWire.decode_encode fs

/-! ## Things -/

instance : LawfulWire Thing where
  decode_encode t := by
    have hnodup : ((t.book.members ++
        [("attributes", t.attributes.map Wire.encode), ("definition", t.definition.map Wire.encode),
          ("features", t.features.map Wire.encode), ("policyId", t.policyId.map Wire.encode),
          ("thingId", some (Wire.encode t.id))]).map Prod.fst).Nodup := by
      simp [Bookkeeping.members]
    refine ((Fields.Reads.required hnodup rfl).and
      ((Fields.Reads.optional (by exact fun _ => nofun) hnodup rfl).and
        ((Fields.Reads.optional (by exact fun _ => nofun) hnodup rfl).and
          ((Fields.Reads.optional (by exact fun _ => nofun) hnodup rfl).and
            ((Fields.Reads.optional (by exact fun _ => nofun) hnodup rfl).and
              (Bookkeeping.reads_members hnodup) ?_) ?_) ?_) ?_) ?_).map _ |>.decode
    all_goals simp

/-! ## Changes -/

section Payloads

variable {α : Type}

/-- A definition is read back from the field that holds it. -/
theorem ThingPiece.reads_definition (make : ThingPiece → α) (d : Definition) :
    (definitionFields make).Reads ["definition"] [("definition", some (Wire.encode d))]
      (make (.definition d)) :=
  (Fields.Reads.required (by simp) rfl).map _

/-- All attributes are read back from the field that holds them. -/
theorem ThingPiece.reads_attributes (make : ThingPiece → α) (members : JsonObject) :
    (attributesFields make).Reads ["attributes"] [("attributes", some (.object members))]
      (make (.attributes members)) :=
  (Fields.Reads.required (by simp) rfl).map _

/-- An attribute is read back from its fields, a pointer and a value. -/
theorem ThingPiece.reads_attribute (make : ThingPiece → α) (p : Pointer) (v : Json) :
    (attributeFields make).Reads ["pointer", "value"]
      [("pointer", some (Wire.encode p)), ("value", some v)] (make (.attributeAt p v)) := by
  refine ((Fields.Reads.required ?_ rfl).and (Fields.Reads.required ?_ rfl) ?_).map _
  all_goals simp

/-- All features are read back from the field that holds them. -/
theorem ThingPiece.reads_features (make : ThingPiece → α) (fs : Features) :
    (featuresFields make).Reads ["features"] [("features", some (Wire.encode fs))]
      (make (.features fs)) :=
  (Fields.Reads.required (by simp) rfl).map _

/-- A feature is read back from its fields, with its id. -/
theorem ThingPiece.reads_feature (make : ThingPiece → α) (id : FeatureId) (f : Feature) :
    (featureFields make).Reads ["featureId", "feature"]
      [("feature", some (Wire.encode f)), ("featureId", some (Wire.encode id))]
      (make (.feature id f)) := by
  refine ((Fields.Reads.required ?_ rfl).and (Fields.Reads.required ?_ rfl) ?_).map _
  all_goals simp

/-- The properties stand under a name of their side, before or after the id of the feature. -/
theorem ThingPiece.reads_properties {fields : List (String × Option Json)}
    (make : ThingPiece → α) (side : PropertySide) (id : FeatureId) (members : JsonObject)
    (hnodup : (fields.map Prod.fst).Nodup)
    (hid : Assoc.get? "featureId" fields = some (some (Wire.encode id)))
    (hmembers : Assoc.get? side.memberName fields = some (some (.object members))) :
    (propertiesFields side make).Reads ["featureId", side.memberName] fields
      (make (.properties side id members)) := by
  refine ((Fields.Reads.required hnodup hid).and (Fields.Reads.required hnodup hmembers) ?_).map _
  cases side with
  | reported => simp [PropertySide.memberName]
  | desired => simp [PropertySide.memberName]

/-- A property is read back from its fields, with the feature and the pointer. -/
theorem ThingPiece.reads_property (make : ThingPiece → α) (side : PropertySide) (id : FeatureId)
    (p : Pointer) (v : Json) :
    (propertyFields side make).Reads ["featureId", "pointer", "value"]
      [("featureId", some (Wire.encode id)), ("pointer", some (Wire.encode p)),
        ("value", some v)] (make (.property side id p v)) := by
  refine ((Fields.Reads.required ?_ rfl).and
    ((Fields.Reads.required ?_ rfl).and (Fields.Reads.required ?_ rfl) ?_) ?_).map _
  all_goals simp

/-- An attribute to remove is read back by its pointer. -/
theorem ThingItem.reads_attribute (make : Pointer → α) (p : Pointer) :
    (attributeFields make).Reads ["pointer"] [("pointer", some (Wire.encode p))] (make p) :=
  (Fields.Reads.required (by simp) rfl).map _

/-- A feature to remove is read back by its id. -/
theorem ThingItem.reads_feature (make : FeatureId → α) (id : FeatureId) :
    (featureFields make).Reads ["featureId"] [("featureId", some (Wire.encode id))] (make id) :=
  (Fields.Reads.required (by simp) rfl).map _

/-- A property to remove is read back by its feature and pointer. -/
theorem ThingItem.reads_property (make : FeatureId → Pointer → α) (id : FeatureId) (p : Pointer) :
    (propertyFields make).Reads ["featureId", "pointer"]
      [("featureId", some (Wire.encode id)), ("pointer", some (Wire.encode p))] (make id p) := by
  refine ((Fields.Reads.required ?_ rfl).and (Fields.Reads.required ?_ rfl) ?_).map _
  all_goals simp

end Payloads

namespace ThingChange

/-- A piece is read back from the payload of the change that writes it. -/
theorem decodeNamed_written (how : Placement) (piece : ThingPiece) :
    (VariantBody.decodeNamed table (written how piece).name piece.payload : Except Mismatch _) =
      .ok (written how piece) := by
  cases piece with
  | definition d =>
    cases how <;> exact (ThingPiece.reads_definition _ d).decodeNamed rfl
  | attributes members =>
    cases how <;> exact (ThingPiece.reads_attributes _ members).decodeNamed rfl
  | attributeAt p v =>
    cases how <;> exact (ThingPiece.reads_attribute _ p v).decodeNamed rfl
  | features fs =>
    cases how <;> exact (ThingPiece.reads_features _ fs).decodeNamed rfl
  | feature id f =>
    cases how <;> exact (ThingPiece.reads_feature _ id f).decodeNamed rfl
  | properties side id members =>
    cases side <;> cases how <;>
      exact (ThingPiece.reads_properties _ _ id members (by simp) rfl rfl).decodeNamed rfl
  | property side id p v =>
    cases side <;> cases how <;> exact (ThingPiece.reads_property _ _ id p v).decodeNamed rfl

/-- An item is read back from the payload of the change that removes it. -/
theorem decodeNamed_removed (item : ThingItem) :
    (VariantBody.decodeNamed table (removed item).name item.payload : Except Mismatch _) =
      .ok (removed item) := by
  cases item with
  | whole => exact (Fields.reads_nothing [] (removed .whole)).decodeNamed rfl
  | definition => exact (Fields.reads_nothing [] (removed .definition)).decodeNamed rfl
  | attributes => exact (Fields.reads_nothing [] (removed .attributes)).decodeNamed rfl
  | features => exact (Fields.reads_nothing [] (removed .features)).decodeNamed rfl
  | attributeAt p =>
    exact (ThingItem.reads_attribute (fun p => removed (.attributeAt p)) p).decodeNamed rfl
  | feature id =>
    exact (ThingItem.reads_feature (fun id => removed (.feature id)) id).decodeNamed rfl
  | properties side id =>
    have hreads := ThingItem.reads_feature (fun id => removed (.properties side id)) id
    cases side <;> exact hreads.decodeNamed rfl
  | property side id p =>
    have hreads := ThingItem.reads_property (fun id p => removed (.property side id p)) id p
    cases side <;> exact hreads.decodeNamed rfl

instance : LawfulChange ThingChange where
  decodeNamed_payload c := by
    cases c with
    | created t => exact ((Fields.Reads.required (by simp) rfl).map _).decodeNamed rfl
    | replaced t => exact ((Fields.Reads.required (by simp) rfl).map _).decodeNamed rfl
    | policyAssigned id => exact ((Fields.Reads.required (by simp) rfl).map _).decodeNamed rfl
    | written how piece => exact decodeNamed_written how piece
    | removed item => exact decodeNamed_removed item

end ThingChange

/-! ## Requests -/

namespace ThingRequest

/-- A piece is read back from the request to write it. -/
theorem decode_encode_write (piece : ThingPiece) :
    VariantBody.decode table (encode (write piece)) = .ok (write piece) := by
  refine VariantBody.decode_single ?_
  cases piece with
  | definition d => exact (ThingPiece.reads_definition _ d).decodeNamed rfl
  | attributes members => exact (ThingPiece.reads_attributes _ members).decodeNamed rfl
  | attributeAt p v => exact (ThingPiece.reads_attribute _ p v).decodeNamed rfl
  | features fs => exact (ThingPiece.reads_features _ fs).decodeNamed rfl
  | feature id f => exact (ThingPiece.reads_feature _ id f).decodeNamed rfl
  | properties side id members =>
    cases side <;>
      exact (ThingPiece.reads_properties _ _ id members (by simp) rfl rfl).decodeNamed rfl
  | property side id p v =>
    cases side <;> exact (ThingPiece.reads_property _ _ id p v).decodeNamed rfl

/-- An item is read back from the request to remove it. -/
theorem decode_encode_remove (item : ThingItem) :
    VariantBody.decode table (encode (remove item)) = .ok (remove item) := by
  cases item with
  | whole | definition | attributes | features => exact VariantBody.decode_string rfl
  | attributeAt p =>
    have hreads := ThingItem.reads_attribute (fun p => remove (.attributeAt p)) p
    exact VariantBody.decode_single (hreads.decodeNamed rfl)
  | feature id =>
    have hreads := ThingItem.reads_feature (fun id => remove (.feature id)) id
    exact VariantBody.decode_single (hreads.decodeNamed rfl)
  | properties side id =>
    have hreads := ThingItem.reads_feature (fun id => remove (.properties side id)) id
    cases side <;> exact VariantBody.decode_single (hreads.decodeNamed rfl)
  | property side id p =>
    have hreads := ThingItem.reads_property (fun id p => remove (.property side id p)) id p
    cases side <;> exact VariantBody.decode_single (hreads.decodeNamed rfl)

/-- A part is read back from the request to retrieve it. -/
theorem decode_encode_retrieve (query : ThingQuery) :
    VariantBody.decode table (encode (retrieve query)) = .ok (retrieve query) := by
  cases query with
  | whole | attributes => exact VariantBody.decode_string rfl
  | attributeAt p =>
    have hreads := ThingItem.reads_attribute (fun p => retrieve (.attributeAt p)) p
    exact VariantBody.decode_single (hreads.decodeNamed rfl)
  | feature id =>
    have hreads := ThingItem.reads_feature (fun id => retrieve (.feature id)) id
    exact VariantBody.decode_single (hreads.decodeNamed rfl)
  | property side id p =>
    have hreads := ThingItem.reads_property (fun id p => retrieve (.property side id p)) id p
    cases side <;> exact VariantBody.decode_single (hreads.decodeNamed rfl)

instance : LawfulWire ThingRequest where
  decode_encode r := by
    cases r with
    | create t | replace t =>
      exact VariantBody.decode_single
        (((Fields.Reads.required (by simp) rfl).map _).decodeNamed rfl)
    | assignPolicy id =>
      exact VariantBody.decode_single
        (((Fields.Reads.required (by simp) rfl).map _).decodeNamed rfl)
    | write piece => exact decode_encode_write piece
    | remove item => exact decode_encode_remove item
    | retrieve query => exact decode_encode_retrieve query

end ThingRequest

end GuardedThings
