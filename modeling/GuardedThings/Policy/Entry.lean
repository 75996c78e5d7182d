import GuardedThings.Permission
import GuardedThings.ResourceKey
import GuardedThings.Subject

/-!
# Policy entries

An entry has a label and names subjects and the resources that are granted or
revoked to them. Resource keys are normalised when they are read, so two
spellings of one key in a document are refused instead of one replacing the
other; subject ids are treated alike.
-/

set_option autoImplicit false

namespace GuardedThings

namespace Label

/-- Why a text is not a label; none if it is one. -/
def flaw? (text : String) : Option LabelFlaw :=
  if text = "" then some .empty
  else if 256 < text.utf8ByteSize then some .tooLong
  else if text.toList.any (fun c => c = '/' || Text.isControl c) then some .malformed
  else none

end Label

/-- The name of an entry within its policy. -/
structure Label where
  text : String
  wellFormed : Label.flaw? text = none
deriving DecidableEq

namespace Label

instance : Key Label where
  names l := [l.text]
  names_injective {a b} h := by
    obtain ⟨_, _⟩ := a
    obtain ⟨_, _⟩ := b
    simp only [List.cons.injEq, and_true] at h
    cases h
    rfl

/-- Reads a label. -/
def parse (raw : String) : Except Failure Label :=
  match h : flaw? raw with
  | none => .ok ⟨raw, h⟩
  | some flaw => .error (.labelInvalid raw flaw)

/-- The text of a label is read back as the label. -/
theorem parse_text (l : Label) : parse l.text = .ok l := by
  obtain ⟨text, h⟩ := l
  unfold parse
  split
  · rfl
  · rename_i h'
    simp [h] at h'

instance : Wire Label := ⟨fun l => .string l.text, Decoder.parsed Label.parse⟩

end Label

/-- Writes a dictionary as an object, its members sorted by the texts of the keys. -/
def Dict.toJson {κ α : Type} [Key κ] (textOf : κ → String) (encode : α → Json) (d : Dict κ α) :
    Json :=
  .object (d.toList.foldl (fun ms (k, a) => Assoc.insert (textOf k) (encode a) ms) [])

/-- The subjects of an entry. -/
abbrev Subjects := Dict SubjectId Subject

namespace Subjects

instance : Wire Subjects where
  encode := Dict.toJson (·.text) Wire.encode
  decode := Decoder.uniqueDict "subject id" (·.text) SubjectId.parse Wire.decode

/-- The subjects that still count at `now`. -/
def withoutExpired (s : Subjects) (now : Timestamp) : Subjects :=
  s.filter fun _ subject => !subject.isExpired now

end Subjects

/-- What an entry grants and revokes, by resource. -/
abbrev Resources := Dict ResourceKey Effects

instance : Wire Resources where
  encode := Dict.toJson (·.text) Wire.encode
  decode := Decoder.uniqueDict "resource key" (·.text) ResourceKey.parse Wire.decode

/-- An entry without its label. -/
structure EntryBody where
  subjects : Subjects
  resources : Resources
deriving DecidableEq

namespace EntryBody

/-- The body without subjects and resources. -/
def empty : EntryBody := ⟨.empty, .empty⟩

/-- The fields of a body. -/
def fields {σ : Type} [Source σ] : Fields σ EntryBody :=
  ((Fields.defaulted "subjects" .empty Wire.decode).and
    (Fields.defaulted "resources" .empty Wire.decode)).map
    fun (subjects, resources) => ⟨subjects, resources⟩

instance : Wire EntryBody where
  encode b := Json.ofFields
    [("resources", some (Wire.encode b.resources)), ("subjects", some (Wire.encode b.subjects))]
  decode := fields.decode

end EntryBody

/-- A labelled bundle of subjects and resources. -/
structure Entry where
  label : Label
  body : EntryBody
deriving DecidableEq

namespace Entry

/-- The subjects of an entry. -/
def subjects (e : Entry) : Subjects := e.body.subjects

/-- The resources of an entry. -/
def resources (e : Entry) : Resources := e.body.resources

/-- The fields of an entry. -/
def fields {σ : Type} [Source σ] : Fields σ Entry :=
  ((Fields.required "label" Wire.decode).and EntryBody.fields).map
    fun (label, body) => ⟨label, body⟩

instance : Wire Entry where
  encode e := Json.ofFields
    [("label", some (Wire.encode e.label)), ("resources", some (Wire.encode e.resources)),
      ("subjects", some (Wire.encode e.subjects))]
  decode := fields.decode

end Entry

end GuardedThings
