import GuardedThings.Policy.Request
import GuardedThings.Proofs.Aggregate.Journal
import GuardedThings.Proofs.Wire.Dictionaries
import GuardedThings.Proofs.Wire.Texts

/-!
# Policies read back

Every document, every change and every request of a policy is read back as it
was written. A record needs one line for each of its fields, in the order in
which its reader names them. The changes and requests that write, remove or
retrieve something come in families whose members differ in nothing but their
name, so their payloads are read back once, whatever is made of them
(`PolicyPiece.reads_entry` and its neighbours).
-/

set_option autoImplicit false

namespace GuardedThings

/-! ## Entries -/

instance : LawfulWire Label := ⟨fun l => decode_parsed_string l.parse_text⟩

/-- A time is never written as null. -/
theorem encode_timestamp_ne_null (t : Timestamp) : (Wire.encode t : Json) ≠ .null := nofun

instance : LawfulWire Subject where
  decode_encode s := by
    refine (((Fields.Reads.required ?_ rfl).and
      (Fields.Reads.optional encode_timestamp_ne_null ?_ rfl) ?_).map _).decode
    all_goals simp

instance : LawfulWire Subjects where
  decode_encode s :=
    Decoder.uniqueDict_toJson _ SubjectId.parse_text LawfulWire.decode_encode s

instance : LawfulWire Effects where
  decode_encode e := by
    refine (((Fields.Reads.defaulted ?_ rfl).and (Fields.Reads.defaulted ?_ rfl) ?_).map _).decode
    all_goals simp

instance : LawfulWire Resources where
  decode_encode r :=
    Decoder.uniqueDict_toJson _ ResourceKey.parse_text LawfulWire.decode_encode r

/-- The fields of a body are read back among those of any record that has them. -/
theorem EntryBody.reads_fields {fields : List (String × Option Json)} {b : EntryBody}
    (hnodup : (fields.map Prod.fst).Nodup)
    (hsubjects : Assoc.get? "subjects" fields = some (some (Wire.encode b.subjects)))
    (hresources : Assoc.get? "resources" fields = some (some (Wire.encode b.resources))) :
    EntryBody.fields.Reads ["subjects", "resources"] fields b := by
  refine ((Fields.Reads.defaulted hnodup hsubjects).and
    (Fields.Reads.defaulted hnodup hresources) ?_).map _
  simp

instance : LawfulWire EntryBody where
  decode_encode b := (EntryBody.reads_fields (by simp) rfl rfl).decode

instance : LawfulWire Entry where
  decode_encode e := by
    refine (((Fields.Reads.required ?_ rfl).and
      (EntryBody.reads_fields (b := e.body) ?_ rfl rfl) ?_).map _).decode
    all_goals simp

/-! ## Policies -/

/-- The bookkeeping is read back among the fields of any document it belongs to. -/
theorem Bookkeeping.reads_members {others : List (String × Option Json)} {b : Bookkeeping}
    (hnodup : ((b.members ++ others).map Prod.fst).Nodup) :
    Bookkeeping.fields.Reads ["_lifecycle", "_revision", "_created", "_modified"]
      (b.members ++ others) b := by
  refine ((Fields.Reads.defaulted hnodup rfl).and ((Fields.Reads.defaulted hnodup rfl).and
    ((Fields.Reads.optional encode_timestamp_ne_null hnodup rfl).and
      (Fields.Reads.optional encode_timestamp_ne_null hnodup rfl) ?_) ?_) ?_).map _
  all_goals simp

instance : LawfulWire Policy where
  decode_encode p := by
    have hnodup : ((p.book.members ++ [("entries", some p.entriesJson),
        ("policyId", some (Wire.encode p.id))]).map Prod.fst).Nodup := by
      simp [Bookkeeping.members]
    have hentries : Decoder.dict Label.parse Wire.decode p.entriesJson = .ok p.entries :=
      Decoder.dict_toJson Label.parse_text LawfulWire.decode_encode p.entries
    refine (((Fields.Reads.required hnodup rfl).and <| (Bookkeeping.reads_members hnodup).and
      (Fields.reads_field_of_some hnodup rfl hentries) ?_) ?_).map _ |>.decode
    all_goals simp

/-! ## Changes -/

section Payloads

variable {α : Type}

/-- An entry is read back from the field that holds it. -/
theorem PolicyPiece.reads_entry (make : PolicyPiece → α) (e : Entry) :
    (entryFields make).Reads ["entry"] [("entry", some (Wire.encode e))] (make (.entry e)) :=
  (Fields.Reads.required (by simp) rfl).map _

/-- A subject is read back from its fields, with the label and the id. -/
theorem PolicyPiece.reads_subject (make : PolicyPiece → α) (l : Label) (id : SubjectId)
    (s : Subject) :
    (subjectFields make).Reads ["label", "subjectId", "subject"]
      [("label", some (Wire.encode l)), ("subject", some (Wire.encode s)),
        ("subjectId", some (Wire.encode id))] (make (.subject l id s)) := by
  refine ((Fields.Reads.required ?_ rfl).and
    ((Fields.Reads.required ?_ rfl).and (Fields.Reads.required ?_ rfl) ?_) ?_).map _
  all_goals simp

/-- A resource is read back from its fields, with the label and the key. -/
theorem PolicyPiece.reads_resource (make : PolicyPiece → α) (l : Label) (key : ResourceKey)
    (e : Effects) :
    (resourceFields make).Reads ["label", "resourceKey", "resource"]
      [("label", some (Wire.encode l)), ("resource", some (Wire.encode e)),
        ("resourceKey", some (Wire.encode key))] (make (.resource l key e)) := by
  refine ((Fields.Reads.required ?_ rfl).and
    ((Fields.Reads.required ?_ rfl).and (Fields.Reads.required ?_ rfl) ?_) ?_).map _
  all_goals simp

/-- All entries are read back from the field that holds them. -/
theorem PolicyGroup.reads_entries (make : PolicyGroup → α) (es : List Entry) :
    (entriesFields make).Reads ["entries"] [("entries", some (.array (es.map Wire.encode)))]
      (make (.entries es)) :=
  (Fields.reads_field_of_some (by simp) rfl (decode_list_map LawfulWire.decode_encode es)).map _

/-- The subjects of an entry are read back from their fields, with the label. -/
theorem PolicyGroup.reads_subjects (make : PolicyGroup → α) (l : Label) (s : Subjects) :
    (subjectsFields make).Reads ["label", "subjects"]
      [("label", some (Wire.encode l)), ("subjects", some (Wire.encode s))]
      (make (.subjects l s)) := by
  refine ((Fields.Reads.required ?_ rfl).and (Fields.Reads.required ?_ rfl) ?_).map _
  all_goals simp

/-- The resources of an entry are read back from their fields, with the label. -/
theorem PolicyGroup.reads_resources (make : PolicyGroup → α) (l : Label) (r : Resources) :
    (resourcesFields make).Reads ["label", "resources"]
      [("label", some (Wire.encode l)), ("resources", some (Wire.encode r))]
      (make (.resources l r)) := by
  refine ((Fields.Reads.required ?_ rfl).and (Fields.Reads.required ?_ rfl) ?_).map _
  all_goals simp

/-- An entry to remove is read back by its label. -/
theorem PolicyItem.reads_entry (make : Label → α) (l : Label) :
    (entryFields make).Reads ["label"] [("label", some (Wire.encode l))] (make l) :=
  (Fields.Reads.required (by simp) rfl).map _

/-- A subject to remove is read back by its label and id. -/
theorem PolicyItem.reads_subject (make : Label → SubjectId → α) (l : Label) (id : SubjectId) :
    (subjectFields make).Reads ["label", "subjectId"]
      [("label", some (Wire.encode l)), ("subjectId", some (Wire.encode id))] (make l id) := by
  refine ((Fields.Reads.required ?_ rfl).and (Fields.Reads.required ?_ rfl) ?_).map _
  all_goals simp

/-- A resource to remove is read back by its label and key. -/
theorem PolicyItem.reads_resource (make : Label → ResourceKey → α) (l : Label)
    (key : ResourceKey) :
    (resourceFields make).Reads ["label", "resourceKey"]
      [("label", some (Wire.encode l)), ("resourceKey", some (Wire.encode key))]
      (make l key) := by
  refine ((Fields.Reads.required ?_ rfl).and (Fields.Reads.required ?_ rfl) ?_).map _
  all_goals simp

end Payloads

namespace PolicyChange

/-- A collection is read back from the payload of the change that replaces it. -/
theorem decodeNamed_groupReplaced (group : PolicyGroup) :
    (VariantBody.decodeNamed table (groupReplaced group).name group.payload : Except Mismatch _) =
      .ok (groupReplaced group) := by
  cases group with
  | entries es => exact (PolicyGroup.reads_entries _ es).decodeNamed rfl
  | subjects l s => exact (PolicyGroup.reads_subjects _ l s).decodeNamed rfl
  | resources l r => exact (PolicyGroup.reads_resources _ l r).decodeNamed rfl

/-- A piece is read back from the payload of the change that writes it. -/
theorem decodeNamed_written (how : Placement) (piece : PolicyPiece) :
    (VariantBody.decodeNamed table (written how piece).name piece.payload : Except Mismatch _) =
      .ok (written how piece) := by
  cases piece with
  | entry e => cases how <;> exact (PolicyPiece.reads_entry _ e).decodeNamed rfl
  | subject l id s => cases how <;> exact (PolicyPiece.reads_subject _ l id s).decodeNamed rfl
  | resource l key e => cases how <;> exact (PolicyPiece.reads_resource _ l key e).decodeNamed rfl

/-- An item is read back from the payload of the change that removes it. -/
theorem decodeNamed_removed (item : PolicyItem) :
    (VariantBody.decodeNamed table (removed item).name item.payload : Except Mismatch _) =
      .ok (removed item) := by
  cases item with
  | whole => exact (Fields.reads_nothing [] (removed .whole)).decodeNamed rfl
  | entry l => exact (PolicyItem.reads_entry (fun l => removed (.entry l)) l).decodeNamed rfl
  | subject l id =>
    exact (PolicyItem.reads_subject (fun l id => removed (.subject l id)) l id).decodeNamed rfl
  | resource l key =>
    exact (PolicyItem.reads_resource (fun l key => removed (.resource l key)) l key).decodeNamed rfl

instance : LawfulChange PolicyChange where
  decodeNamed_payload c := by
    cases c with
    | created p => exact ((Fields.Reads.required (by simp) rfl).map _).decodeNamed rfl
    | replaced p => exact ((Fields.Reads.required (by simp) rfl).map _).decodeNamed rfl
    | groupReplaced group => exact decodeNamed_groupReplaced group
    | written how piece => exact decodeNamed_written how piece
    | removed item => exact decodeNamed_removed item

end PolicyChange

/-! ## Requests -/

namespace PolicyRequest

/-- A collection is read back from the request to replace it. -/
theorem decode_encode_replaceGroup (group : PolicyGroup) :
    VariantBody.decode table (encode (replaceGroup group)) = .ok (replaceGroup group) := by
  refine VariantBody.decode_single ?_
  cases group with
  | entries es => exact (PolicyGroup.reads_entries _ es).decodeNamed rfl
  | subjects l s => exact (PolicyGroup.reads_subjects _ l s).decodeNamed rfl
  | resources l r => exact (PolicyGroup.reads_resources _ l r).decodeNamed rfl

/-- A piece is read back from the request to write it. -/
theorem decode_encode_write (piece : PolicyPiece) :
    VariantBody.decode table (encode (write piece)) = .ok (write piece) := by
  refine VariantBody.decode_single ?_
  cases piece with
  | entry e => exact (PolicyPiece.reads_entry _ e).decodeNamed rfl
  | subject l id s => exact (PolicyPiece.reads_subject _ l id s).decodeNamed rfl
  | resource l key e => exact (PolicyPiece.reads_resource _ l key e).decodeNamed rfl

/-- An item is read back from the request to remove it. -/
theorem decode_encode_remove (item : PolicyItem) :
    VariantBody.decode table (encode (remove item)) = .ok (remove item) := by
  cases item with
  | whole => exact VariantBody.decode_string rfl
  | entry l =>
    have hreads := PolicyItem.reads_entry (fun l => remove (.entry l)) l
    exact VariantBody.decode_single (hreads.decodeNamed rfl)
  | subject l id =>
    have hreads := PolicyItem.reads_subject (fun l id => remove (.subject l id)) l id
    exact VariantBody.decode_single (hreads.decodeNamed rfl)
  | resource l key =>
    have hreads := PolicyItem.reads_resource (fun l key => remove (.resource l key)) l key
    exact VariantBody.decode_single (hreads.decodeNamed rfl)

/-- A part is read back from the request to retrieve it. -/
theorem decode_encode_retrieve (part : PolicyPart) :
    VariantBody.decode table (encode (retrieve part)) = .ok (retrieve part) := by
  cases part with
  | whole | entries => exact VariantBody.decode_string rfl
  | entry l =>
    have hreads := PolicyItem.reads_entry (fun l => retrieve (.entry l)) l
    exact VariantBody.decode_single (hreads.decodeNamed rfl)
  | subjects l =>
    have hreads := PolicyItem.reads_entry (fun l => retrieve (.subjects l)) l
    exact VariantBody.decode_single (hreads.decodeNamed rfl)
  | subject l id =>
    have hreads := PolicyItem.reads_subject (fun l id => retrieve (.subject l id)) l id
    exact VariantBody.decode_single (hreads.decodeNamed rfl)
  | resources l =>
    have hreads := PolicyItem.reads_entry (fun l => retrieve (.resources l)) l
    exact VariantBody.decode_single (hreads.decodeNamed rfl)
  | resource l key =>
    have hreads := PolicyItem.reads_resource (fun l key => retrieve (.resource l key)) l key
    exact VariantBody.decode_single (hreads.decodeNamed rfl)

instance : LawfulWire PolicyRequest where
  decode_encode r := by
    cases r with
    | create p | replace p =>
      exact VariantBody.decode_single
        (((Fields.Reads.required (by simp) rfl).map _).decodeNamed rfl)
    | replaceGroup group => exact decode_encode_replaceGroup group
    | write piece => exact decode_encode_write piece
    | remove item => exact decode_encode_remove item
    | retrieve part => exact decode_encode_retrieve part

end PolicyRequest

end GuardedThings
