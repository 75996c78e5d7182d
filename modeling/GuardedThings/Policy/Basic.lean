import GuardedThings.Bookkeeping
import GuardedThings.Policy.Entry

/-!
# Policies

A policy is a set of entries under distinct labels, with the bookkeeping of a
stored entity. Entries are stored by label, so an entry and the label it is
found under cannot disagree, and their order carries no meaning.
-/

set_option autoImplicit false

namespace GuardedThings

/-- An access-control policy. -/
structure Policy where
  id : PolicyId
  book : Bookkeeping
  entries : Dict Label EntryBody
deriving DecidableEq

namespace Policy

/-- The active policy without entries. -/
def new (id : PolicyId) : Policy := ⟨id, .fresh, .empty⟩

/-- The entries, by ascending label. -/
def entryList (p : Policy) : List Entry := p.entries.toList.map fun (label, body) => ⟨label, body⟩

/-- The labels, ascending. -/
def labels (p : Policy) : List Label := p.entries.keys

/-- The entry with the given label. -/
def entry? (p : Policy) (label : Label) : Option Entry :=
  (p.entries.get? label).map fun body => ⟨label, body⟩

/-- The subject of an entry. -/
def subject? (p : Policy) (label : Label) (id : SubjectId) : Option Subject :=
  (p.entries.get? label).bind fun body => body.subjects.get? id

/-- What an entry grants and revokes on a resource. -/
def resource? (p : Policy) (label : Label) (key : ResourceKey) : Option Effects :=
  (p.entries.get? label).bind fun body => body.resources.get? key

/-- What an entry that names the subject grants and revokes on exactly this resource. -/
def effects? (p : Policy) (label : Label) (id : SubjectId) (key : ResourceKey) : Option Effects :=
  (p.entries.get? label).bind fun body =>
    if body.subjects.contains id then body.resources.get? key else none

/-- The dictionary of the entries; the first label that occurs again is reported. -/
def index : Dict Label EntryBody → List Entry → Except Failure (Dict Label EntryBody)
  | indexed, [] => .ok indexed
  | indexed, entry :: rest =>
    if indexed.contains entry.label then .error (.duplicateLabel entry.label.text)
    else index (indexed.insert entry.label entry.body) rest

/-- The policy of the given entries, whose labels must differ. -/
def ofEntries (id : PolicyId) (entries : List Entry) : Except Failure Policy :=
  return { new id with entries := ← index .empty entries }

/-- The policy with exactly the given entries, whose labels must differ. -/
def setEntries (p : Policy) (entries : List Entry) : Except Failure Policy :=
  return { p with entries := ← index .empty entries }

/-- The policy with an entry added or replaced. -/
def setEntry (p : Policy) (entry : Entry) : Policy :=
  { p with entries := p.entries.insert entry.label entry.body }

/-- The policy without an entry. -/
def removeEntry (p : Policy) (label : Label) : Policy :=
  { p with entries := p.entries.erase label }

/-- The policy with an entry changed; a missing entry counts as empty. -/
def updateEntry (p : Policy) (label : Label) (f : EntryBody → EntryBody) : Policy :=
  { p with entries := p.entries.insert label (f ((p.entries.get? label).getD .empty)) }

/-- The policy with an entry changed, if it is there. -/
def updateExisting (p : Policy) (label : Label) (f : EntryBody → EntryBody) : Policy :=
  match p.entries.get? label with
  | some body => { p with entries := p.entries.insert label (f body) }
  | none => p

/-- The policy with the subjects of an entry set. -/
def setSubjects (p : Policy) (label : Label) (subjects : Subjects) : Policy :=
  p.updateEntry label fun body => { body with subjects }

/-- The policy with a subject of an entry set. -/
def setSubject (p : Policy) (label : Label) (id : SubjectId) (subject : Subject) : Policy :=
  p.updateEntry label fun body => { body with subjects := body.subjects.insert id subject }

/-- The policy without a subject of an entry. -/
def removeSubject (p : Policy) (label : Label) (id : SubjectId) : Policy :=
  p.updateExisting label fun body => { body with subjects := body.subjects.erase id }

/-- The policy with the resources of an entry set. -/
def setResources (p : Policy) (label : Label) (resources : Resources) : Policy :=
  p.updateEntry label fun body => { body with resources }

/-- The policy with a resource of an entry set. -/
def setResource (p : Policy) (label : Label) (key : ResourceKey) (effects : Effects) : Policy :=
  p.updateEntry label fun body => { body with resources := body.resources.insert key effects }

/-- The policy without a resource of an entry. -/
def removeResource (p : Policy) (label : Label) (key : ResourceKey) : Policy :=
  p.updateExisting label fun body => { body with resources := body.resources.erase key }

/-- The policy without the subjects that are expired at `now`. -/
def removeExpired (p : Policy) (now : Timestamp) : Policy :=
  { p with
    entries := p.entries.mapValues fun _ body =>
      { body with subjects := body.subjects.withoutExpired now } }

/-- Whether the policy was deleted. -/
def isDeleted (p : Policy) : Bool := p.book.lifecycle.isDeleted

/-- The entries as the member of a document. -/
def entriesJson (p : Policy) : Json := p.entries.toJson (·.text) Wire.encode

/-- The fields of a policy document. -/
def fields {σ : Type} [Source σ] : Fields σ Policy :=
  ((Fields.required "policyId" Wire.decode).and <|
    Bookkeeping.fields.and
      (Fields.defaulted "entries" .empty (Decoder.dict Label.parse Wire.decode))).map
    fun (id, book, entries) => ⟨id, book, entries⟩

instance : Wire Policy where
  encode p := Json.ofFields
    (p.book.members ++ [("entries", some p.entriesJson), ("policyId", some (Wire.encode p.id))])
  decode := fields.decode

/-- The policy document. -/
def toJson (p : Policy) : Json := Wire.encode p

end Policy

end GuardedThings
