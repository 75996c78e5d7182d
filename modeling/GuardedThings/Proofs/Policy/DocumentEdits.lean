import GuardedThings.Proofs.Aggregate.Run
import GuardedThings.Proofs.Json.RecordEdits
import GuardedThings.Proofs.Policy.DocumentParts

/-!
# Edits of policy documents

What an event does to a policy, seen in its document. To replace a collection or
to put a piece in place is to write its content at the place of its part
(`PolicyGroup.toJson_put`, `PolicyPiece.toJson_put`), and to remove an item is to
remove what is there (`PolicyItem.toJson_removeFrom`).

The steps on the way are the entries, the entry of a label, its subjects or its
resources, and one of them. Whatever lies inside an entry is edited by writing
the entry back (`Policy.toJson_updateEntry`).
-/

set_option autoImplicit false

namespace GuardedThings

/-! ## Collections of an entry -/

namespace EntryBody

variable (b : EntryBody)

/-- New subjects of an entry are a new member of its document. -/
theorem encode_subjects (subjects : Subjects) :
    (Wire.encode { b with subjects } : Json) =
      (Wire.encode b : Json).setPath ["subjects"] (Wire.encode subjects) :=
  Json.setPath_ofFields [("resources", some (Wire.encode b.resources))] []
    (by exact memberNames_ascending) (some (Wire.encode b.subjects)) _

/-- New resources of an entry are a new member of its document. -/
theorem encode_resources (resources : Resources) :
    (Wire.encode { b with resources } : Json) =
      (Wire.encode b : Json).setPath ["resources"] (Wire.encode resources) :=
  Json.setPath_ofFields [] [("subjects", some (Wire.encode b.subjects))]
    (by exact memberNames_ascending) (some (Wire.encode b.resources)) _

end EntryBody

/-! ## Entries -/

namespace Policy

variable (p : Policy)

/-- New entries of a policy are a new member of its document. -/
theorem toJson_entries (entries : Dict Label EntryBody) :
    ({ p with entries } : Policy).toJson =
      p.toJson.setPath ["entries"] (entries.toJson (·.text) Wire.encode) :=
  Json.setPath_ofFields p.book.members [("policyId", some (Wire.encode p.id))]
    (by exact memberNames_ascending) (some p.entriesJson) _

/-- The entries are found in the document of a policy. -/
theorem getPath?_toJson_entries : p.toJson.getPath? ["entries"] = some p.entriesJson := by
  rw [Json.getPath?_cons, p.member?_toJson_entries]
  rfl

/-- A new entry of a policy is set in its document under its label. -/
theorem toJson_insertEntry (l : Label) (body : EntryBody) :
    ({ p with entries := p.entries.insert l body } : Policy).toJson =
      p.toJson.setPath ["entries", l.text] (Wire.encode body) := by
  show _ = p.toJson.setPath (["entries"] ++ [l.text]) _
  rw [Json.setPath_append, p.getPath?_toJson_entries, p.toJson_entries,
    Dict.toJson_insert Label.text_injective]
  rfl

variable {p} {l : Label} {body : EntryBody} (h : p.entries.get? l = some body)

include h

/-- An entry is found in the document under its label. -/
theorem getPath?_toJson_of_get? :
    p.toJson.getPath? ["entries", l.text] = some (Wire.encode body) := by
  rw [p.getPath?_toJson_entry, h]
  rfl

/-- To write inside an entry is to write inside what the document says under its label. -/
theorem toJson_updateEntry {f : EntryBody → EntryBody} {path : List String} {value : Json}
    (hf : (Wire.encode (f body) : Json) = (Wire.encode body : Json).setPath path value) :
    (p.updateEntry l f).toJson = p.toJson.setPath ("entries" :: l.text :: path) value := by
  show _ = p.toJson.setPath (["entries", l.text] ++ path) value
  unfold updateEntry
  rw [Json.setPath_append, getPath?_toJson_of_get? h, h, p.toJson_insertEntry]
  exact congrArg (p.toJson.setPath ["entries", l.text]) hf

/-- To remove inside an entry is to remove inside what the document says under its label. -/
theorem removePath?_updateExisting {f : EntryBody → EntryBody} {path : List String}
    {removed : Json} (hne : path ≠ [])
    (hf : (Wire.encode body : Json).removePath? path = some (removed, Wire.encode (f body))) :
    p.toJson.removePath? ("entries" :: l.text :: path) =
      some (removed, (p.updateExisting l f).toJson) := by
  show p.toJson.removePath? (["entries", l.text] ++ path) = _
  unfold updateExisting
  simp only [h]
  rw [Json.removePath?_append _ _ hne, getPath?_toJson_of_get? h, p.toJson_insertEntry,
    Option.bind_some, hf]
  rfl

/-- To remove an entry removes it from the document. -/
theorem removePath?_toJson_entry :
    p.toJson.removePath? ["entries", l.text] = some (Wire.encode body, (p.removeEntry l).toJson) := by
  show p.toJson.removePath? (["entries"] ++ [l.text]) = _
  rw [Json.removePath?_append _ _ (List.cons_ne_nil _ _), p.getPath?_toJson_entries,
    Option.bind_some]
  show ((p.entries.toJson (·.text) Wire.encode).removePath? [l.text]).map _ = _
  rw [Dict.removePath?_toJson Label.text_injective p.entries l h]
  exact congrArg (fun edited => some (Wire.encode body, edited)) (p.toJson_entries _).symm

end Policy

/-! ## Edits of parts -/

/-- The content of a collection. -/
def PolicyGroup.toJson (next : Policy) : PolicyGroup → Json
  | entries _ => next.entriesJson
  | subjects _ s => Wire.encode s
  | resources _ r => Wire.encode r

/-- Whether the entry that a part lies in is there; a part as large as an entry lies in none. -/
def PolicyPart.IsOwned (p : Policy) : PolicyPart → Prop
  | whole | entries | entry _ => True
  | subjects l | subject l _ | resources l | resource l _ => (p.entries.get? l).isSome

/-- To replace a collection is to write its content at the place of its part. -/
theorem PolicyGroup.toJson_put {p next : Policy} (group : PolicyGroup)
    (owned : group.part.IsOwned p) (hput : group.put p = .ok next) :
    next.toJson = group.part.place.set p.toJson (group.toJson next) := by
  unfold Pointer.set
  rw [PolicyPart.segments_place]
  cases group with
  | entries es =>
    obtain ⟨indexed, -, heq⟩ := (bind_eq_ok_iff _ _ _).mp hput
    cases heq
    exact p.toJson_entries indexed
  | subjects l s =>
    obtain ⟨body, hbody⟩ := Option.isSome_iff_exists.mp owned
    cases hput
    exact Policy.toJson_updateEntry hbody (body.encode_subjects s)
  | resources l r =>
    obtain ⟨body, hbody⟩ := Option.isSome_iff_exists.mp owned
    cases hput
    exact Policy.toJson_updateEntry hbody (body.encode_resources r)

/-- To put a piece in place is to write its content at the place of its part. -/
theorem PolicyPiece.toJson_put {p : Policy} (piece : PolicyPiece) (owned : piece.part.IsOwned p) :
    (piece.put p).toJson = piece.part.place.set p.toJson piece.toJson := by
  unfold Pointer.set
  rw [PolicyPart.segments_place]
  cases piece with
  | entry e => exact p.toJson_insertEntry e.label e.body
  | subject l id subject =>
    obtain ⟨body, hbody⟩ := Option.isSome_iff_exists.mp owned
    have hinside : (Wire.encode { body with subjects := body.subjects.insert id subject } : Json) =
        (Wire.encode body : Json).setPath (["subjects"] ++ [id.text]) (Wire.encode subject) := by
      rw [body.encode_subjects, Json.setPath_append, body.getPath?_encode_subjects []]
      exact congrArg _ (Dict.toJson_insert SubjectId.text_injective body.subjects id subject)
    exact Policy.toJson_updateEntry hbody hinside
  | resource l key effects =>
    obtain ⟨body, hbody⟩ := Option.isSome_iff_exists.mp owned
    have hinside : (Wire.encode { body with resources := body.resources.insert key effects } : Json) =
        (Wire.encode body : Json).setPath (["resources"] ++ [key.text]) (Wire.encode effects) := by
      rw [body.encode_resources, Json.setPath_append, body.getPath?_encode_resources []]
      exact congrArg _ (Dict.toJson_insert ResourceKey.text_injective body.resources key effects)
    exact Policy.toJson_updateEntry hbody hinside

/-- To remove an item that is there is to remove what the document says at its place. -/
theorem PolicyItem.toJson_removeFrom {p : Policy} {item : PolicyItem} (inside : item ≠ .whole)
    (found : (item.part.get? p).isSome) :
    ∃ removed, item.part.place.remove? p.toJson = some (removed, (item.removeFrom p).toJson) := by
  obtain ⟨content, hcontent⟩ := Option.isSome_iff_exists.mp found
  unfold Pointer.remove?
  rw [PolicyPart.segments_place]
  cases item with
  | whole => exact absurd rfl inside
  | entry l =>
    obtain ⟨body, hbody, -⟩ := Option.map_eq_some_iff.mp hcontent
    exact ⟨_, Policy.removePath?_toJson_entry hbody⟩
  | subject l id =>
    obtain ⟨subject, hsubject, -⟩ := Option.map_eq_some_iff.mp hcontent
    obtain ⟨body, hbody, hsubject⟩ := Option.bind_eq_some_iff.mp hsubject
    have hremoved : (Wire.encode body : Json).removePath? (["subjects"] ++ [id.text]) =
        some (Wire.encode subject,
          Wire.encode { body with subjects := body.subjects.erase id }) := by
      rw [Json.removePath?_append _ _ (List.cons_ne_nil _ _), body.getPath?_encode_subjects [],
        body.encode_subjects]
      show ((body.subjects.toJson (·.text) Wire.encode).removePath? [id.text]).map _ = _
      rw [Dict.removePath?_toJson SubjectId.text_injective body.subjects id hsubject]
      rfl
    exact ⟨_, Policy.removePath?_updateExisting hbody (List.cons_ne_nil _ _) hremoved⟩
  | resource l key =>
    obtain ⟨effects, heffects, -⟩ := Option.map_eq_some_iff.mp hcontent
    obtain ⟨body, hbody, heffects⟩ := Option.bind_eq_some_iff.mp heffects
    have hremoved : (Wire.encode body : Json).removePath? (["resources"] ++ [key.text]) =
        some (Wire.encode effects,
          Wire.encode { body with resources := body.resources.erase key }) := by
      rw [Json.removePath?_append _ _ (List.cons_ne_nil _ _), body.getPath?_encode_resources [],
        body.encode_resources]
      show ((body.resources.toJson (·.text) Wire.encode).removePath? [key.text]).map _ = _
      rw [Dict.removePath?_toJson ResourceKey.text_injective body.resources key heffects]
      rfl
    exact ⟨_, Policy.removePath?_updateExisting hbody (List.cons_ne_nil _ _) hremoved⟩

end GuardedThings
