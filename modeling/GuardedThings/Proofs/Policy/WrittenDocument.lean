import GuardedThings.Proofs.Access.Subtree
import GuardedThings.Proofs.Wire.Dictionaries
import GuardedThings.Proofs.Wire.Parts

/-!
# What a policy document writes, its enforcer decides

Resource keys have many spellings, and a document is read into dictionaries by
key. If two spellings of one key were accepted, one grant or revoke would take
the place of another without anyone noticing. They are not: resources are read
exactly if all keys are told apart, and then there is one entry for each member
(`Decoder.uniqueDict_eq_ok_iff`, `Decoder.Collects.size_eq`).

What a document says is put down here on its JSON alone (`Json.Writes`): some
member of `entries` names the subject and has, among its resources, a member whose
name is read as the key and whose value lists the permission. Each of the four
layers of a document is read from the field that stands for it (`Fields.Picks`), so
the policy that is read gives a subject what the document writes, and nothing else
(`Policy.gives_decoded_iff`). The decisions follow from that by the longest prefix
(`Enforcer.decidesBy_build`).
-/

set_option autoImplicit false

namespace GuardedThings

/-! ## What a document writes -/

namespace Effect

/-- The name of the field that lists the permissions with this effect. -/
def fieldName : Effect → String
  | granted => "grant"
  | revoked => "revoke"

/-- The position of this field among the fields of effects. -/
def position : Effect → Nat
  | granted => 0
  | revoked => 1

end Effect

namespace Json

/-- The effects list the permission as granted, or as revoked. -/
def Lists (effects : Json) (effect : Effect) (p : Permission) : Prop :=
  ∃ words, effects.field? effect.fieldName effect.position = some (.array words) ∧
    .string p.name ∈ words

/-- The entry has a subject with this id. -/
def Names (entry : Json) (id : SubjectId) : Prop :=
  ∃ subjects, entry.field? "subjects" 0 = some (.object subjects) ∧
    ∃ m ∈ subjects, SubjectId.parse m.1 = .ok id

/-- The entry has a resource with this key, in whatever spelling, that lists the permission. -/
def WritesOn (entry : Json) (on : ResourceKey) (effect : Effect) (p : Permission) : Prop :=
  ∃ resources, entry.field? "resources" 1 = some (.object resources) ∧
    ∃ m ∈ resources, ResourceKey.parse m.1 = .ok on ∧ m.2.Lists effect p

/-- The policy document has an entry that names the subject and writes the effect. -/
def Writes (document : Json) (id : SubjectId) (on : ResourceKey) (effect : Effect)
    (p : Permission) : Prop :=
  ∃ entries, document.field? "entries" 5 = some (.object entries) ∧
    ∃ m ∈ entries, m.2.Names id ∧ m.2.WritesOn on effect p

/-- The policy document grants the permission by the longest prefix: it is granted on some resource
at or above the key, and those on which it is revoked have shorter paths. -/
def Grants (document : Json) (id : SubjectId) (key : ResourceKey) (p : Permission) : Prop :=
  ∃ g : ResourceKey, g.covers key = true ∧ document.Writes id g .granted p ∧
    ∀ r : ResourceKey, r.covers key = true → document.Writes id r .revoked p →
      r.path.level < g.path.level

/-- No two entries of the policy document have the same label. An object that was read from a text
has every name once. -/
def LabelsOnce (document : Json) : Prop :=
  ∀ entries, document.field? "entries" 5 = some (.object entries) → (entries.map Prod.fst).Nodup

end Json

/-! ## What is read from it -/

/-- Strings are read from an array of strings. -/
theorem Decoder.list_string_eq_ok {v : Json} {texts : List String}
    (h : Decoder.list Decoder.string v = .ok texts) : v = Json.ofStrings texts := by
  cases v with
  | null | bool _ | integer _ | float _ | string _ | object _ => cases h
  | array words =>
    obtain ⟨_, hwords, h⟩ := (bind_eq_ok_iff _ _ _).mp h
    cases h
    have hkept : ∀ (word : Json) text, Decoder.string word = .ok text → .string text = word := by
      intro word text hword
      cases word with
      | string _ =>
        cases hword
        rfl
      | null | bool _ | integer _ | float _ | array _ | object _ => cases hword
    have hmapped : texts.map Json.string = words.map id := map_mapM hkept hwords
    rw [Json.ofStrings, hmapped, List.map_id]

namespace Permissions

/-- The permissions that are read are those that are named. -/
theorem contains_of_parse {texts : List String} {ps : Permissions}
    (h : Permissions.parse texts = .ok ps) (p : Permission) :
    ps.contains p = true ↔ p.name ∈ texts := by
  obtain ⟨parsed, hparsed, h⟩ := (bind_eq_ok_iff _ _ _).mp h
  cases h
  have hname : ∀ text (q : Permission), Permission.parse text = .ok q ↔ q.name = text := by
    intro text q
    constructor
    · intro hq
      unfold Permission.parse at hq
      split at hq
      · cases hq
        rfl
      · cases hq
    · rintro rfl
      exact q.parse_name
  rw [KeySet.contains_ofList, decide_eq_true_iff]
  constructor
  · intro hmem
    obtain ⟨text, htext, hread⟩ := exists_of_mem_mapM hparsed hmem
    exact (hname text p).mp hread ▸ htext
  · intro hmem
    obtain ⟨q, hq, hread⟩ := exists_mem_mapM_of_mem hparsed hmem
    rw [p.parse_name] at hread
    cases hread
    exact hq

/-- Decoded permissions are those whose names the array lists. -/
theorem contains_decoded_iff {v : Json} {ps : Permissions}
    (h : (Wire.decode v : Except Mismatch Permissions) = .ok ps) (p : Permission) :
    ps.contains p = true ↔ ∃ words, v = .array words ∧ .string p.name ∈ words := by
  obtain ⟨texts, htexts, h⟩ := (bind_eq_ok_iff _ _ _).mp h
  split at h
  · rename_i ps' hparsed
    cases h
    rw [contains_of_parse hparsed, Decoder.list_string_eq_ok htexts]
    simp [Json.ofStrings]
  · cases h

end Permissions

namespace Effects

/-- Effects take each side from its own field, and nothing if the field is missing. -/
theorem picks_side (effect : Effect) :
    (Effects.fields : Fields Json Effects).Picks effect.fieldName effect.position fun found e =>
      found.elim (e.side effect = .empty) fun v => Wire.decode v = .ok (e.side effect) := by
  cases effect with
  | granted => exact ((Fields.picks_defaulted "grant" _ _).and_left _).map
  | revoked =>
    exact ((Fields.picks_defaulted "revoke" _ _).and_right
      (Fields.avoids_field (by decide) _ _ _)).map

/-- Effects are read from what lists them. -/
theorem gives_decoded_iff {v : Json} {e : Effects}
    (h : (Wire.decode v : Except Mismatch Effects) = .ok e) (effect : Effect) (p : Permission) :
    e.gives effect p = true ↔ v.Lists effect p := by
  have hside := (picks_side effect).of_decode h
  unfold gives Json.Lists
  cases hfield : v.field? effect.fieldName effect.position with
  | none =>
    rw [hfield] at hside
    have hside : e.side effect = .empty := hside
    rw [hside]
    simp [KeySet.contains, Dict.contains, KeySet.empty]
  | some words =>
    rw [hfield] at hside
    rw [Permissions.contains_decoded_iff hside p]
    simp only [Option.some.injEq]

end Effects

namespace EntryBody

/-- An entry takes its subjects from their field, and has none if it is missing. -/
theorem picks_subjects :
    (EntryBody.fields : Fields Json EntryBody).Picks "subjects" 0 fun found body =>
      found.elim (body.subjects = .empty) fun v => Wire.decode v = .ok body.subjects :=
  ((Fields.picks_defaulted "subjects" _ _).and_left _).map

/-- An entry takes its resources from their field, and has none if it is missing. -/
theorem picks_resources :
    (EntryBody.fields : Fields Json EntryBody).Picks "resources" 1 fun found body =>
      found.elim (body.resources = .empty) fun v => Wire.decode v = .ok body.resources :=
  ((Fields.picks_defaulted "resources" _ _).and_right
    (Fields.avoids_field (by decide) _ _ _)).map

variable {v : Json} {body : EntryBody} (h : (Wire.decode v : Except Mismatch EntryBody) = .ok body)

include h

/-- The subjects of an entry are those that it names. -/
theorem names_decoded_iff (id : SubjectId) :
    (∃ subject, body.subjects.get? id = some subject) ↔ v.Names id := by
  have hsubjects := picks_subjects.of_decode h
  unfold Json.Names
  cases hfield : v.field? "subjects" 0 with
  | none =>
    rw [hfield] at hsubjects
    have hsubjects : body.subjects = .empty := hsubjects
    rw [hsubjects]
    simp
  | some written =>
    rw [hfield] at hsubjects
    obtain ⟨members, rfl, hcollects⟩ := (Decoder.uniqueDict_eq_ok_iff _ _ _).mp hsubjects
    have hnamed := hcollects.exists_get?_iff id (P := fun _ => True) (Q := fun _ => True)
      fun _ _ _ => Iff.rfl
    simpa using hnamed

/-- The resources of an entry say what it writes. -/
theorem writesOn_decoded_iff (on : ResourceKey) (effect : Effect) (p : Permission) :
    (∃ e, body.resources.get? on = some e ∧ e.gives effect p = true) ↔ v.WritesOn on effect p := by
  have hresources := picks_resources.of_decode h
  unfold Json.WritesOn
  cases hfield : v.field? "resources" 1 with
  | none =>
    rw [hfield] at hresources
    have hresources : body.resources = .empty := hresources
    rw [hresources]
    simp
  | some written =>
    rw [hfield] at hresources
    obtain ⟨members, rfl, hcollects⟩ := (Decoder.uniqueDict_eq_ok_iff _ _ _).mp hresources
    rw [hcollects.exists_get?_iff on fun v e he => Effects.gives_decoded_iff he effect p]
    simp only [Option.some.injEq, Json.object.injEq, exists_eq_left']

end EntryBody

namespace Policy

/-- A label has the text that it was read from. -/
theorem label_text_of_parse (raw : String) (label : Label) (h : Label.parse raw = .ok label) :
    label.text = raw := by
  unfold Label.parse at h
  split at h
  · cases h
    rfl
  · cases h

/-- A policy takes its entries from their field, and has none if it is missing. -/
theorem picks_entries :
    (Policy.fields : Fields Json Policy).Picks "entries" 5 fun found policy =>
      found.elim (policy.entries = .empty) fun v =>
        Decoder.dict Label.parse Wire.decode v = .ok policy.entries := by
  have hbook : (Bookkeeping.fields : Fields Json Bookkeeping).Avoids "entries" 4 :=
    ((Fields.avoids_field (by decide) _ _ _).and <|
      (Fields.avoids_field (by decide) _ _ _).and <|
        (Fields.avoids_field (by decide) _ _ _).and (Fields.avoids_field (by decide) _ _ _)).map _
  exact (((Fields.picks_defaulted "entries" _ _).and_right hbook).and_right
    (Fields.avoids_field (by decide) _ _ _)).map

/-- A policy gives a subject what the document that it is read from writes. -/
theorem gives_decoded_iff {document : Json} {policy : Policy}
    (h : (Wire.decode document : Except Mismatch Policy) = .ok policy)
    (hlabels : document.LabelsOnce) (id : SubjectId) (on : ResourceKey) (effect : Effect)
    (p : Permission) :
    policy.Gives (fun _ => true) id on effect p ↔ document.Writes id on effect p := by
  have hgives : policy.Gives (fun _ => true) id on effect p ↔
      ∃ label body, policy.entries.get? label = some body ∧
        (∃ subject, body.subjects.get? id = some subject) ∧
          ∃ e, body.resources.get? on = some e ∧ e.gives effect p = true := by
    simp only [Gives, mem_statements_iff, true_and]
    constructor
    · rintro ⟨e, ⟨label, body, subject, hbody, hsubject, he⟩, hgives⟩
      exact ⟨label, body, hbody, ⟨subject, hsubject⟩, e, he, hgives⟩
    · rintro ⟨label, body, hbody, ⟨subject, hsubject⟩, e, he, hgives⟩
      exact ⟨e, ⟨label, body, subject, hbody, hsubject, he⟩, hgives⟩
  have hentries := picks_entries.of_decode h
  rw [hgives]
  unfold Json.Writes
  cases hfield : document.field? "entries" 5 with
  | none =>
    rw [hfield] at hentries
    have hentries : policy.entries = .empty := hentries
    rw [hentries]
    simp
  | some written =>
    rw [hfield] at hentries
    obtain ⟨members, rfl, -⟩ := (Decoder.dict_eq_ok_iff written).mp hentries
    have hcollects := Decoder.collects_of_dict label_text_of_parse (hlabels members hfield) hentries
    simp only [Option.some.injEq, Json.object.injEq, exists_eq_left']
    constructor
    · rintro ⟨label, body, hget, hnames, hwrites⟩
      obtain ⟨m, hm, -, hbody⟩ := (hcollects.get?_eq_some_iff label body).mp hget
      exact ⟨m, hm, (EntryBody.names_decoded_iff hbody id).mp hnames,
        (EntryBody.writesOn_decoded_iff hbody on effect p).mp hwrites⟩
    · rintro ⟨m, hm, hnames, hwrites⟩
      obtain ⟨label, body, hlabel, hbody⟩ := hcollects.exists_read hm
      exact ⟨label, body, (hcollects.get?_eq_some_iff label body).mpr ⟨m, hm, hlabel, hbody⟩,
        (EntryBody.names_decoded_iff hbody id).mpr hnames,
        (EntryBody.writesOn_decoded_iff hbody on effect p).mpr hwrites⟩

/-- What the document grants by the longest prefix, the policy does. -/
theorem grantsByLongestPrefix_decoded_iff {document : Json} {policy : Policy}
    (h : (Wire.decode document : Except Mismatch Policy) = .ok policy)
    (hlabels : document.LabelsOnce) (id : SubjectId) (key : ResourceKey) (p : Permission) :
    policy.grantsByLongestPrefix (fun _ => true) id key p = true ↔ document.Grants id key p := by
  rw [grantsByLongestPrefix_iff]
  simp only [gives_decoded_iff h hlabels]
  rfl

end Policy

/-! ## Decisions from what is granted -/

namespace Enforcer

/-- All decisions follow from which permissions are granted to which subject on which resource. -/
structure DecidesBy (e : Enforcer) (granted : SubjectId → ResourceKey → Permission → Prop) :
    Prop where
  hasPermission_iff : ∀ (caller : Caller) (key : ResourceKey) (permissions : Permissions),
    e.hasPermission caller key permissions = true ↔
      permissions.isEmpty = false ∧ ∀ p, permissions.contains p = true →
        ∃ id, caller.ids.contains id = true ∧ granted id key p
  hasPermissionAtOrBelow_iff : ∀ (caller : Caller) (key : ResourceKey) (permissions : Permissions),
    e.hasPermissionAtOrBelow caller key permissions = true ↔
      permissions.isEmpty = false ∧ ∀ p, permissions.contains p = true →
        ∃ id, caller.ids.contains id = true ∧ ∃ q, key.covers q = true ∧ granted id q p
  hasUnrestrictedPermission_iff :
    ∀ (caller : Caller) (key : ResourceKey) (permissions : Permissions),
      e.hasUnrestrictedPermission caller key permissions = true ↔
        permissions.isEmpty = false ∧ ∀ p, permissions.contains p = true →
          ∃ id, caller.ids.contains id = true ∧ ∀ q, key.covers q = true → granted id q p
  subjectsWith_iff : ∀ (key : ResourceKey) (permissions : Permissions) (id : SubjectId),
    (e.subjectsWith key permissions).contains id = true ↔
      permissions.isEmpty = false ∧ ∀ p, permissions.contains p = true → granted id key p
  subjectsWithPartial_iff : ∀ (key : ResourceKey) (permissions : Permissions) (id : SubjectId),
    (e.subjectsWithPartial key permissions).contains id = true ↔
      permissions.isEmpty = false ∧ ∀ p, permissions.contains p = true →
        ∃ q, key.covers q = true ∧ granted id q p
  subjectsWithUnrestricted_iff : ∀ (key : ResourceKey) (permissions : Permissions) (id : SubjectId),
    (e.subjectsWithUnrestricted key permissions).contains id = true ↔
      permissions.isEmpty = false ∧ ∀ p, permissions.contains p = true →
        ∀ q, key.covers q = true → granted id q p

section Trees

variable (counts : Subject → Bool) (policy : Policy) (id : SubjectId) (key : ResourceKey)
  (p : Permission)

/-- The tree grants at or below a key iff the longest prefix does on some key there. -/
theorem grantsAtOrBelow_tree_iff :
    ((build counts policy).tree id key.type).grantsAtOrBelow p key.path.segments = true ↔
      ∃ q, key.covers q = true ∧ policy.grantsByLongestPrefix counts id q p = true := by
  simp only [(wellFormed_tree_build counts policy id key.type).grantsAtOrBelow_iff,
    ResourceKey.covers_iff_extend, ← grants_tree_iff]
  constructor
  · rintro ⟨rest, h, hgrants⟩
    exact ⟨_, ⟨rest, h, rfl⟩, hgrants⟩
  · rintro ⟨_, ⟨rest, h, rfl⟩, hgrants⟩
    exact ⟨rest, h, hgrants⟩

/-- The tree grants throughout a key iff the longest prefix does on all keys there. -/
theorem grantsThroughout_tree_iff :
    ((build counts policy).tree id key.type).grantsThroughout p key.path.segments = true ↔
      ∀ q, key.covers q = true → policy.grantsByLongestPrefix counts id q p = true := by
  simp only [(wellFormed_tree_build counts policy id key.type).grantsThroughout_iff,
    ResourceKey.covers_iff_extend, ← grants_tree_iff]
  constructor
  · rintro hall _ ⟨rest, h, rfl⟩
    exact hall rest h
  · intro hall rest h
    exact hall _ ⟨rest, h, rfl⟩

end Trees

/-- An enforcer decides by the longest prefix. -/
theorem decidesBy_build (counts : Subject → Bool) (policy : Policy) :
    (build counts policy).DecidesBy fun id key p =>
      policy.grantsByLongestPrefix counts id key p = true where
  hasPermission_iff := hasPermission_build_iff counts policy
  hasPermissionAtOrBelow_iff caller key permissions := by
    unfold hasPermissionAtOrBelow
    rw [decide_iff _ AccessTree.grantsAtOrBelow_empty]
    simp only [grantsAtOrBelow_tree_iff]
  hasUnrestrictedPermission_iff caller key permissions := by
    unfold hasUnrestrictedPermission
    rw [decide_iff _ AccessTree.grantsThroughout_empty]
    simp only [grantsThroughout_tree_iff]
  subjectsWith_iff := contains_subjectsWith_build_iff counts policy
  subjectsWithPartial_iff key permissions id := by
    unfold subjectsWithPartial
    rw [contains_subjectsWhere_iff _ AccessTree.grantsAtOrBelow_empty]
    simp only [grantsAtOrBelow_tree_iff]
  subjectsWithUnrestricted_iff key permissions id := by
    unfold subjectsWithUnrestricted
    rw [contains_subjectsWhere_iff _ AccessTree.grantsThroughout_empty]
    simp only [grantsThroughout_tree_iff]

/-- Resources are read from an object exactly if every name is a key, every value is read as effects
and no two names are spellings of one key; then there is one entry for each member, and no other.
Hence an enforcer of a document decides by what the document writes. -/
theorem decidesBy_written :
    (∀ members : JsonObject,
      ((∃ resources, (Wire.decode (.object members : Json) : Except Mismatch Resources) =
          .ok resources) ↔
        (∀ m ∈ members, (∃ key, ResourceKey.parse m.1 = .ok key) ∧
          ∃ e, (Wire.decode m.2 : Except Mismatch Effects) = .ok e) ∧
        members.Pairwise fun m m' => ∀ key, ResourceKey.parse m.1 = .ok key →
          ResourceKey.parse m'.1 ≠ .ok key) ∧
      ∀ resources : Resources, Wire.decode (.object members : Json) = .ok resources →
        resources.size = members.length ∧
          ∀ key e, resources.get? key = some e ↔
            ∃ m ∈ members, ResourceKey.parse m.1 = .ok key ∧ Wire.decode m.2 = .ok e) ∧
    ∀ (document : Json) (e : Enforcer), document.LabelsOnce → ofDocument document = .ok e →
      e.DecidesBy document.Grants := by
  constructor
  · intro members
    have hread : ∀ resources : Resources, Wire.decode (.object members : Json) = .ok resources ↔
        Decoder.Collects ResourceKey.parse Wire.decode members resources := by
      intro resources
      refine (Decoder.uniqueDict_eq_ok_iff _ _ _).trans ?_
      simp only [Json.object.injEq, exists_eq_left']
    refine ⟨?_, fun resources h => ?_⟩
    · simp only [hread]
      exact Decoder.exists_collects_iff
    · have hcollects := (hread resources).mp h
      exact ⟨hcollects.size_eq, hcollects.get?_eq_some_iff⟩
  · intro document e hlabels h
    unfold ofDocument at h
    split at h
    · rename_i policy hpolicy
      cases h
      have hgrants := Policy.grantsByLongestPrefix_decoded_iff hpolicy hlabels
      have hdecides := decidesBy_build (fun _ => true) policy
      simp only [hgrants] at hdecides
      exact hdecides
    · cases h

/-- Reading is revoked on the whole thing and granted on its attributes, in a spelling that is not
the normal one. -/
def lampDocument : Json :=
  .object [
    ("entries", .single "user" (.object [
      ("resources", .object [
        ("thing:/", .single "revoke" (.ofStrings ["READ"])),
        ("thing:attributes//", .single "grant" (.ofStrings ["READ"]))]),
      ("subjects", .single "nginx:user" (.single "type" (.string "generated")))])),
    ("policyId", .string "org.example:lamp")]

/-- The same key in two spellings. -/
def twoSpellings : JsonObject :=
  [("thing:/attributes", .single "revoke" (.ofStrings ["READ"])),
    ("thing:attributes/", .single "grant" (.ofStrings ["READ"]))]

/-- The grant counts in spite of its spelling, and two spellings of one key are refused. -/
theorem decidesBy_written_lampDocument :
    lampDocument.LabelsOnce ∧
    (∃ e, ofDocument lampDocument = .ok e ∧
      e.hasPermission (.single ⟨"nginx:user", by decide⟩) (.thing (.ofSegments ["attributes"]))
        .read = true ∧
      lampDocument.Grants ⟨"nginx:user", by decide⟩ (.thing (.ofSegments ["attributes"])) .read) ∧
    ¬ ∃ resources, (Wire.decode (.object twoSpellings : Json) : Except Mismatch Resources) =
      .ok resources := by
  have hlabels : lampDocument.LabelsOnce := by
    intro entries hentries
    cases hentries
    simp
  refine ⟨hlabels, ?_, ?_⟩
  · have hread : ((ofDocument lampDocument).toOption.any fun e =>
        e.hasPermission (.single ⟨"nginx:user", by decide⟩)
          (.thing (.ofSegments ["attributes"])) .read) = true := by decide
    obtain ⟨e, he, hgranted⟩ := (Option.any_eq_true _ _).mp hread
    have hdocument : ofDocument lampDocument = .ok e := by
      cases hresult : ofDocument lampDocument with
      | error failure =>
        rw [hresult] at he
        cases he
      | ok e' =>
        rw [hresult] at he
        cases he
        rfl
    refine ⟨e, hdocument, hgranted, ?_⟩
    have hdecides := decidesBy_written.2 lampDocument e hlabels hdocument
    obtain ⟨-, hholds⟩ := (hdecides.hasPermission_iff _ _ _).mp hgranted
    obtain ⟨id, hid, hgrants⟩ := hholds .read (by decide)
    have huser : id = ⟨"nginx:user", by decide⟩ := by simpa [Caller.single] using hid
    exact huser ▸ hgrants
  · rw [(decidesBy_written.1 twoSpellings).1]
    rintro ⟨-, hdifferent⟩
    have hsame := (List.pairwise_cons.mp hdifferent).1 _ List.mem_cons_self
      (.thing (.ofSegments ["attributes"])) (by decide)
    exact hsame (by decide)

end Enforcer

end GuardedThings
