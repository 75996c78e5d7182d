import GuardedThings.Aggregate.Evolution
import GuardedThings.Policy.Part

/-!
# Events of policies

What can happen to a policy, how it is named in the journal, and what it makes
of the policy. Events on a subject or a resource of a missing entry create the
entry, so that replaying them does not depend on how entries came to be.
-/

set_option autoImplicit false

namespace GuardedThings

/-- A change of a policy. -/
inductive PolicyChange where
  | created (policy : Policy)
  | replaced (policy : Policy)
  | groupReplaced (group : PolicyGroup)
  | written (how : Placement) (piece : PolicyPiece)
  | removed (item : PolicyItem)
deriving DecidableEq

namespace PolicyPiece

variable {σ α : Type} [Source σ]

/-- The fields of an entry to be written. -/
def entryFields (make : PolicyPiece → α) : Fields σ α :=
  (Fields.required "entry" Wire.decode).map fun e => make (.entry e)

/-- The fields of a subject to be written. -/
def subjectFields (make : PolicyPiece → α) : Fields σ α :=
  ((Fields.required "label" Wire.decode).and <|
    (Fields.required "subjectId" Wire.decode).and (Fields.required "subject" Wire.decode)).map
    fun (l, id, s) => make (.subject l id s)

/-- The fields of a resource to be written. -/
def resourceFields (make : PolicyPiece → α) : Fields σ α :=
  ((Fields.required "label" Wire.decode).and <|
    (Fields.required "resourceKey" Wire.decode).and
      (Fields.required "resource" Wire.decode)).map
    fun (l, key, e) => make (.resource l key e)

/-- The fields of a piece. -/
def payload : PolicyPiece → Json
  | entry e => .ofFields [("entry", some (Wire.encode e))]
  | subject l id s => .ofFields
    [("label", some (Wire.encode l)), ("subject", some (Wire.encode s)),
      ("subjectId", some (Wire.encode id))]
  | resource l key e => .ofFields
    [("label", some (Wire.encode l)), ("resource", some (Wire.encode e)),
      ("resourceKey", some (Wire.encode key))]

end PolicyPiece

namespace PolicyGroup

variable {σ α : Type} [Source σ]

/-- The fields of a list of entries. -/
def entriesFields (make : PolicyGroup → α) : Fields σ α :=
  (Fields.required "entries" (Decoder.list Wire.decode)).map fun es => make (.entries es)

/-- The fields of the subjects of an entry. -/
def subjectsFields (make : PolicyGroup → α) : Fields σ α :=
  ((Fields.required "label" Wire.decode).and (Fields.required "subjects" Wire.decode)).map
    fun (l, s) => make (.subjects l s)

/-- The fields of the resources of an entry. -/
def resourcesFields (make : PolicyGroup → α) : Fields σ α :=
  ((Fields.required "label" Wire.decode).and (Fields.required "resources" Wire.decode)).map
    fun (l, r) => make (.resources l r)

/-- The fields of a group. -/
def payload : PolicyGroup → Json
  | entries es => .ofFields [("entries", some (.array (es.map Wire.encode)))]
  | subjects l s => .ofFields
    [("label", some (Wire.encode l)), ("subjects", some (Wire.encode s))]
  | resources l r => .ofFields
    [("label", some (Wire.encode l)), ("resources", some (Wire.encode r))]

end PolicyGroup

namespace PolicyItem

variable {σ α : Type} [Source σ]

/-- The fields of the label of an entry. -/
def entryFields (make : Label → α) : Fields σ α :=
  (Fields.required "label" Wire.decode).map make

/-- The fields of the address of a subject. -/
def subjectFields (make : Label → SubjectId → α) : Fields σ α :=
  ((Fields.required "label" Wire.decode).and (Fields.required "subjectId" Wire.decode)).map
    fun (l, id) => make l id

/-- The fields of the address of a resource. -/
def resourceFields (make : Label → ResourceKey → α) : Fields σ α :=
  ((Fields.required "label" Wire.decode).and (Fields.required "resourceKey" Wire.decode)).map
    fun (l, key) => make l key

/-- The fields of an item. -/
def payload : PolicyItem → Json
  | whole => .object []
  | entry l => .ofFields [("label", some (Wire.encode l))]
  | subject l id => .ofFields
    [("label", some (Wire.encode l)), ("subjectId", some (Wire.encode id))]
  | resource l key => .ofFields
    [("label", some (Wire.encode l)), ("resourceKey", some (Wire.encode key))]

end PolicyItem

namespace PolicyChange

/-- The name of a change. -/
def name : PolicyChange → String
  | created _ => "policyCreated"
  | replaced _ => "policyModified"
  | groupReplaced (.entries _) => "policyEntriesModified"
  | groupReplaced (.subjects ..) => "subjectsModified"
  | groupReplaced (.resources ..) => "resourcesModified"
  | written .created (.entry _) => "policyEntryCreated"
  | written .modified (.entry _) => "policyEntryModified"
  | written .created (.subject ..) => "subjectCreated"
  | written .modified (.subject ..) => "subjectModified"
  | written .created (.resource ..) => "resourceCreated"
  | written .modified (.resource ..) => "resourceModified"
  | removed .whole => "policyDeleted"
  | removed (.entry _) => "policyEntryDeleted"
  | removed (.subject ..) => "subjectDeleted"
  | removed (.resource ..) => "resourceDeleted"

/-- The fields of a change. -/
def payload : PolicyChange → Json
  | created p | replaced p => .ofFields [("policy", some p.toJson)]
  | groupReplaced group => group.payload
  | written _ piece => piece.payload
  | removed item => item.payload

/-- How changes are decoded, by name. -/
def table {σ : Type} [Source σ] : List (String × VariantBody σ PolicyChange) :=
  [("policyCreated", .fields ((Fields.required "policy" Wire.decode).map created)),
    ("policyModified", .fields ((Fields.required "policy" Wire.decode).map replaced)),
    ("policyDeleted", .fields (.nothing (removed .whole))),
    ("policyEntriesModified", .fields (PolicyGroup.entriesFields groupReplaced)),
    ("policyEntryCreated", .fields (PolicyPiece.entryFields (written .created))),
    ("policyEntryModified", .fields (PolicyPiece.entryFields (written .modified))),
    ("policyEntryDeleted", .fields (PolicyItem.entryFields fun l => removed (.entry l))),
    ("subjectsModified", .fields (PolicyGroup.subjectsFields groupReplaced)),
    ("subjectCreated", .fields (PolicyPiece.subjectFields (written .created))),
    ("subjectModified", .fields (PolicyPiece.subjectFields (written .modified))),
    ("subjectDeleted", .fields (PolicyItem.subjectFields fun l id => removed (.subject l id))),
    ("resourcesModified", .fields (PolicyGroup.resourcesFields groupReplaced)),
    ("resourceCreated", .fields (PolicyPiece.resourceFields (written .created))),
    ("resourceModified", .fields (PolicyPiece.resourceFields (written .modified))),
    ("resourceDeleted",
      .fields (PolicyItem.resourceFields fun l key => removed (.resource l key)))]

/-- Whether a change brings a policy to life. -/
def isCreation : PolicyChange → Bool
  | created _ => true
  | _ => false

instance : Change PolicyChange where
  aggregate := "policy"
  space := "policies.events"
  name := name
  isCreation := isCreation
  payload := payload
  table := table

instance : Wire PolicyChange := ⟨Change.encode, Change.decode⟩

end PolicyChange

namespace Policy

/-- The policy with its lifecycle set. -/
def withLifecycle (p : Policy) (l : Lifecycle) : Policy :=
  { p with book := { p.book with lifecycle := l } }

/-- The policy a creation event brings to life. -/
def ofCreation (e : Event .policy PolicyChange) : Except Failure Policy :=
  match e.change with
  | .created p => .ok (p.withLifecycle .active)
  | _ => .error (Aggregate.notApplicable e .notCreation)

/-- The replacement of a policy: active, and as old as the policy it replaces. -/
def replaceBy (p replacement : Policy) : Policy :=
  { replacement with
    book := { replacement.book with
      lifecycle := .active
      created := p.book.created.or replacement.book.created } }

/-- The policy after any event but a creation. -/
def after (e : Event .policy PolicyChange) (p : Policy) : Except Failure Policy :=
  match e.change with
  | .created _ => .error (Aggregate.notApplicable e .policyExists)
  | .replaced replacement => .ok (p.replaceBy replacement)
  | .groupReplaced group => group.put p
  | .written _ piece => .ok (piece.put p)
  | .removed item => .ok (item.removeFrom p)

instance : Aggregate Policy .policy PolicyChange where
  id := Policy.id
  book := Policy.book
  withBook p book := { p with book }
  toJson := Policy.toJson
  create := ofCreation
  modify := after

end Policy

end GuardedThings
