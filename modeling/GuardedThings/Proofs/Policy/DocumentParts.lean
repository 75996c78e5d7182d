import GuardedThings.Policy.Part
import GuardedThings.Proofs.Access.ViewPaths
import GuardedThings.Proofs.Wire.Texts

/-!
# Parts in policy documents

A part of a policy holds what the policy document says at its place
(`PolicyPart.get?_eq_get?_place`). The place is spelled by a few names: the
member of the entries, the label, the collection, and the text of the subject id
or the resource key (`PolicyPart.segments_place`); no part lies below a single
resource (`PolicyPart.eq_of_names_resource`). Policy documents are tidy
(`Policy.tidy_toJson`), so views can be followed along these names.
-/

set_option autoImplicit false

namespace GuardedThings

/-! ## Names -/

/-- Labels are not empty. -/
theorem Label.text_ne_empty (l : Label) : l.text ≠ "" := by
  intro hempty
  have hl := l.wellFormed
  rw [hempty] at hl
  cases hl

/-- Subject ids are not empty. -/
theorem SubjectId.text_ne_empty (id : SubjectId) : id.text ≠ "" := by
  intro hempty
  have hid := id.wellFormed
  rw [hempty] at hid
  cases hid

/-- The texts of resource keys have at least a colon. -/
theorem ResourceKey.text_ne_empty (key : ResourceKey) : key.text ≠ "" := by
  intro hempty
  have hlist := congrArg String.toList hempty
  simp [text] at hlist

/-- Labels differ if their texts do, and only then. -/
theorem Label.text_injective {l m : Label} (h : l.text = m.text) : l = m :=
  Decoder.text_injective_of_parse parse_text h

/-- Subject ids differ if their texts do, and only then. -/
theorem SubjectId.text_injective {id id' : SubjectId} (h : id.text = id'.text) : id = id' :=
  Decoder.text_injective_of_parse parse_text h

namespace PolicyPart

/-- The names on the way to a part. -/
def names : PolicyPart → List String
  | whole => []
  | entries => ["entries"]
  | entry l => ["entries", l.text]
  | subjects l => ["entries", l.text, "subjects"]
  | subject l id => ["entries", l.text, "subjects", id.text]
  | resources l => ["entries", l.text, "resources"]
  | resource l key => ["entries", l.text, "resources", key.text]

/-- The place of a part is spelled by its names. -/
theorem segments_place (part : PolicyPart) : part.place.segments = part.names := by
  have hentry : ∀ l : Label, (entriesPointer.append l.text).segments = ["entries", l.text] :=
    fun l => entriesPointer.segments_append l.text_ne_empty
  have hbelow : ∀ (l : Label) {collection : String}, collection ≠ "" →
      ((entriesPointer.append l.text).append collection).segments =
        ["entries", l.text, collection] := by
    intro l collection h
    rw [Pointer.segments_append _ h, hentry]
    rfl
  cases part with
  | whole => rfl
  | entries => rfl
  | entry l => exact hentry l
  | subjects l => exact hbelow l (by decide)
  | resources l => exact hbelow l (by decide)
  | subject l id =>
    show (Pointer.append _ id.text).segments = _
    rw [Pointer.segments_append _ id.text_ne_empty, hbelow l (by decide)]
    rfl
  | resource l key =>
    show (Pointer.append _ key.text).segments = _
    rw [Pointer.segments_append _ key.text_ne_empty, hbelow l (by decide)]
    rfl

/-- Only the part itself lies at or below a single resource. -/
theorem eq_of_names_resource {l : Label} {key : ResourceKey} {part : PolicyPart}
    (h : (resource l key).names <+: part.names) : part = resource l key := by
  cases part with
  | whole | entries | entry _ | subjects _ | resources _ =>
    have hlength := h.length_le
    simp [names] at hlength
  | subject m id => simp [names, List.cons_prefix_cons] at h
  | resource m key' =>
    simp only [names, List.cons_prefix_cons, true_and] at h
    obtain ⟨hlabel, hkey, -⟩ := h
    rw [Label.text_injective hlabel, ResourceKey.text_injective hkey]

end PolicyPart

/-! ## Contents -/

namespace EntryBody

variable (b : EntryBody) (path : List String)

/-- The members of an entry stand in the order of their names. -/
theorem memberNames_ascending : ["resources", "subjects"].Pairwise Key.Before := by decide

/-- The members of an entry have different names. -/
theorem memberNames_nodup : ["resources", "subjects"].Nodup :=
  memberNames_ascending.imp fun hlt => hlt.ne

/-- Below the subjects of an entry, paths lead into the subjects. -/
theorem getPath?_encode_subjects :
    (Wire.encode b : Json).getPath? ("subjects" :: path) =
      (Wire.encode b.subjects : Json).getPath? path := by
  have hmember : (Wire.encode b : Json).member? "subjects" = some (Wire.encode b.subjects) :=
    Json.get?_present (by exact memberNames_nodup) "subjects"
  rw [Json.getPath?_cons, hmember, Option.bind_some]

/-- Below the resources of an entry, paths lead into the resources. -/
theorem getPath?_encode_resources :
    (Wire.encode b : Json).getPath? ("resources" :: path) =
      (Wire.encode b.resources : Json).getPath? path := by
  have hmember : (Wire.encode b : Json).member? "resources" = some (Wire.encode b.resources) :=
    Json.get?_present (by exact memberNames_nodup) "resources"
  rw [Json.getPath?_cons, hmember, Option.bind_some]

end EntryBody

/-- A subject is found in the document of the subjects under its id. -/
theorem Subjects.member?_encode (s : Subjects) (id : SubjectId) :
    (Wire.encode s : Json).member? id.text = (s.get? id).map Wire.encode :=
  Dict.get?_jsonMembers SubjectId.text_injective s id

/-- A resource is found in the document of the resources under its key. -/
theorem Resources.member?_encode (r : Resources) (key : ResourceKey) :
    (Wire.encode r : Json).member? key.text = (r.get? key).map Wire.encode :=
  Dict.get?_jsonMembers ResourceKey.text_injective r key

namespace Policy

variable (p : Policy)

/-- The names of the members of a policy document, ascending. -/
def memberNames : List String :=
  ["_created", "_lifecycle", "_modified", "_revision", "entries", "policyId"]

/-- The members of a policy stand in the order of their names. -/
theorem memberNames_ascending : memberNames.Pairwise Key.Before := by decide

/-- The members of a policy have different names. -/
theorem memberNames_nodup : memberNames.Nodup := memberNames_ascending.imp fun hlt => hlt.ne

/-- The member of the entries is there in every policy. -/
theorem member?_toJson_entries : p.toJson.member? "entries" = some p.entriesJson :=
  Json.get?_present (by exact memberNames_nodup) "entries"

/-- Below an entry, paths lead into its body. -/
theorem getPath?_toJson_entry (l : Label) (path : List String) :
    p.toJson.getPath? ("entries" :: l.text :: path) =
      (p.entries.get? l).bind fun body => (Wire.encode body : Json).getPath? path := by
  have hentry : p.entriesJson.member? l.text = (p.entries.get? l).map Wire.encode :=
    Dict.get?_jsonMembers Label.text_injective p.entries l
  rw [Json.getPath?_cons, member?_toJson_entries, Option.bind_some, Json.getPath?_cons, hentry,
    Option.bind_map]
  rfl

end Policy

/-- What a part holds is what the document says at its place. -/
theorem PolicyPart.get?_eq_get?_place (p : Policy) (part : PolicyPart) :
    part.get? p = part.place.get? p.toJson := by
  unfold Pointer.get?
  rw [segments_place]
  cases part with
  | whole => rfl
  | entries =>
    show some p.entriesJson = p.toJson.getPath? ["entries"]
    rw [Json.getPath?_cons, p.member?_toJson_entries]
    rfl
  | entry l =>
    show _ = p.toJson.getPath? ["entries", l.text]
    rw [p.getPath?_toJson_entry]
    exact Option.map_eq_bind
  | subjects l =>
    show _ = p.toJson.getPath? ["entries", l.text, "subjects"]
    rw [p.getPath?_toJson_entry]
    simp only [EntryBody.getPath?_encode_subjects]
    exact Option.map_eq_bind
  | resources l =>
    show _ = p.toJson.getPath? ["entries", l.text, "resources"]
    rw [p.getPath?_toJson_entry]
    simp only [EntryBody.getPath?_encode_resources]
    exact Option.map_eq_bind
  | subject l id =>
    show (p.subject? l id).map Wire.encode =
      p.toJson.getPath? ["entries", l.text, "subjects", id.text]
    rw [p.getPath?_toJson_entry]
    unfold Policy.subject?
    cases p.entries.get? l with
    | none => rfl
    | some body =>
      rw [Option.bind_some, Option.bind_some, body.getPath?_encode_subjects, Json.getPath?_cons,
        Subjects.member?_encode]
      exact (Option.bind_fun_some _).symm
  | resource l key =>
    show (p.resource? l key).map Wire.encode =
      p.toJson.getPath? ["entries", l.text, "resources", key.text]
    rw [p.getPath?_toJson_entry]
    unfold Policy.resource?
    cases p.entries.get? l with
    | none => rfl
    | some body =>
      rw [Option.bind_some, Option.bind_some, body.getPath?_encode_resources, Json.getPath?_cons,
        Resources.member?_encode]
      exact (Option.bind_fun_some _).symm

/-! ## Tidiness -/

/-- The members of a subject stand in the order of their names. -/
theorem Subject.memberNames_ascending : ["expiry", "type"].Pairwise Key.Before := by decide

/-- The document of a subject is tidy. -/
theorem Subject.tidy_encode (s : Subject) : (Wire.encode s : Json).Tidy := by
  refine Json.tidy_ofFields (by exact memberNames_ascending) fun name value hmem =>
    Json.tidy_of_noObject ?_
  simp only [List.mem_cons, List.not_mem_nil, or_false, Prod.mk.injEq] at hmem
  rcases hmem with ⟨-, hexpiry⟩ | ⟨-, htype⟩
  · obtain ⟨t, -, rfl⟩ := Option.map_eq_some_iff.mp hexpiry.symm
    rfl
  · cases htype
    rfl

/-- The members of effects stand in the order of their names. -/
theorem Effects.memberNames_ascending : ["grant", "revoke"].Pairwise Key.Before := by decide

/-- The document of effects is tidy. -/
theorem Effects.tidy_encode (e : Effects) : (Wire.encode e : Json).Tidy := by
  refine Json.tidy_ofFields (by exact memberNames_ascending) fun name value hmem =>
    Json.tidy_of_noObject ?_
  simp only [List.mem_cons, List.not_mem_nil, or_false, Prod.mk.injEq] at hmem
  rcases hmem with ⟨-, hside⟩ | ⟨-, hside⟩
  · cases hside
    rfl
  · cases hside
    rfl

/-- The document of an entry is tidy. -/
theorem EntryBody.tidy_encode (b : EntryBody) : (Wire.encode b : Json).Tidy := by
  refine Json.tidy_ofFields (by exact memberNames_ascending) fun name value hmem => ?_
  simp only [List.mem_cons, List.not_mem_nil, or_false, Prod.mk.injEq] at hmem
  rcases hmem with ⟨-, hresources⟩ | ⟨-, hsubjects⟩
  · cases hresources
    exact Dict.tidy_toJson b.resources Effects.tidy_encode ResourceKey.text_injective
  · cases hsubjects
    exact Dict.tidy_toJson b.subjects Subject.tidy_encode SubjectId.text_injective

/-- The document of a policy is tidy. -/
theorem Policy.tidy_toJson (p : Policy) : p.toJson.Tidy := by
  refine Json.tidy_ofFields (by exact memberNames_ascending) fun name value hmem => ?_
  rcases List.mem_append.mp hmem with hbook | hmem
  · exact p.book.tidy_members hbook
  · simp only [List.mem_cons, List.not_mem_nil, or_false, Prod.mk.injEq] at hmem
    rcases hmem with ⟨-, hentries⟩ | ⟨-, hid⟩
    · cases hentries
      exact Dict.tidy_toJson p.entries EntryBody.tidy_encode Label.text_injective
    · cases hid
      exact Json.tidy_of_noObject rfl

end GuardedThings
