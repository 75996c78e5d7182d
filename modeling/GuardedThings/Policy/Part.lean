import GuardedThings.Policy.Basic

/-!
# Parts of a policy

What requests and events on policies are about: the whole policy, its entries,
one entry, and the subjects and resources of an entry, all of them or one. Each
part has a place in the policy document and a resource that protects it. A
failure to reach or change a part names it.
-/

set_option autoImplicit false

namespace GuardedThings

/-- Whether something that is put in place is new there. -/
inductive Placement where
  | created
  | modified
deriving DecidableEq

/-- Something put in place: new, unless there was something before. -/
def Placement.of (existed : Bool) : Placement := if existed then .modified else .created

/-- A part of a policy. -/
inductive PolicyPart where
  | whole
  | entries
  | entry (label : Label)
  | subjects (label : Label)
  | subject (label : Label) (id : SubjectId)
  | resources (label : Label)
  | resource (label : Label) (key : ResourceKey)
deriving DecidableEq

namespace PolicyPart

/-- The label of the entry the part belongs to. -/
def label? : PolicyPart → Option Label
  | whole | entries => none
  | entry l | subjects l | subject l _ | resources l | resource l _ => some l

/-- The content of the part in a policy. -/
def get? (p : Policy) : PolicyPart → Option Json
  | whole => some p.toJson
  | entries => some p.entriesJson
  | entry l => (p.entries.get? l).map Wire.encode
  | subjects l => (p.entries.get? l).map fun body => Wire.encode body.subjects
  | subject l id => (p.subject? l id).map Wire.encode
  | resources l => (p.entries.get? l).map fun body => Wire.encode body.resources
  | resource l key => (p.resource? l key).map Wire.encode

/-- The pointer to the entries in a policy document. -/
def entriesPointer : Pointer := .ofSegments ["entries"]

/-- The place of the part in the policy document. -/
def place : PolicyPart → Pointer
  | whole => .root
  | entries => entriesPointer
  | entry l => entriesPointer.append l.text
  | subjects l => (entriesPointer.append l.text).append "subjects"
  | subject l id => ((entriesPointer.append l.text).append "subjects").append id.text
  | resources l => (entriesPointer.append l.text).append "resources"
  | resource l key => ((entriesPointer.append l.text).append "resources").append key.text

/-- The path of the resource that protects the part: a resource of the policy stands under its type
and then under the segments of its own path. -/
def resourcePath : PolicyPart → Pointer
  | resource l key =>
    (((entriesPointer.append l.text).append "resources").append (key.type ++ ":")).join key.path
  | part => part.place

/-- The resource that protects the part. -/
def resourceKey (part : PolicyPart) : ResourceKey := .policy part.resourcePath

/-- The failure to find the part, or to be allowed to see it. -/
def notAccessible (id : PolicyId) : PolicyPart → Failure
  | whole | entries => .policyNotAccessible id.text
  | entry l | subjects l | resources l => .entryNotAccessible id.text l.text
  | subject l subjectId => .subjectNotAccessible id.text l.text subjectId.text
  | resource l key => .resourceNotAccessible id.text l.text key.text

/-- The failure to be allowed to change the part. -/
def notModifiable (id : PolicyId) : PolicyPart → Failure
  | whole | entries => .policyNotModifiable id.text
  | entry l => .entryNotModifiable id.text l.text
  | subjects l => .subjectsNotModifiable id.text l.text
  | subject l subjectId => .subjectNotModifiable id.text l.text subjectId.text
  | resources l => .resourcesNotModifiable id.text l.text
  | resource l key => .resourceNotModifiable id.text l.text key.text

end PolicyPart

/-- A part of a policy that can come and go, and is written as one. -/
inductive PolicyPiece where
  | entry (entry : Entry)
  | subject (label : Label) (id : SubjectId) (subject : Subject)
  | resource (label : Label) (key : ResourceKey) (effects : Effects)
deriving DecidableEq

namespace PolicyPiece

/-- The part that the piece is written to. -/
def part : PolicyPiece → PolicyPart
  | entry e => .entry e.label
  | subject l id _ => .subject l id
  | resource l key _ => .resource l key

/-- The content of the piece. -/
def toJson : PolicyPiece → Json
  | entry e => Wire.encode e.body
  | subject _ _ s => Wire.encode s
  | resource _ _ e => Wire.encode e

/-- The policy with the piece put in place. -/
def put (p : Policy) : PolicyPiece → Policy
  | entry e => p.setEntry e
  | subject l id s => p.setSubject l id s
  | resource l key e => p.setResource l key e

end PolicyPiece

/-- A collection in a policy that is replaced as one. -/
inductive PolicyGroup where
  | entries (entries : List Entry)
  | subjects (label : Label) (subjects : Subjects)
  | resources (label : Label) (resources : Resources)
deriving DecidableEq

namespace PolicyGroup

/-- The part that the collection replaces. -/
def part : PolicyGroup → PolicyPart
  | entries _ => .entries
  | subjects l _ => .subjects l
  | resources l _ => .resources l

/-- The policy with the collection replaced. -/
def put (p : Policy) : PolicyGroup → Except Failure Policy
  | entries es => p.setEntries es
  | subjects l s => .ok (p.setSubjects l s)
  | resources l r => .ok (p.setResources l r)

end PolicyGroup

/-- A part of a policy that can be removed. -/
inductive PolicyItem where
  | whole
  | entry (label : Label)
  | subject (label : Label) (id : SubjectId)
  | resource (label : Label) (key : ResourceKey)
deriving DecidableEq

namespace PolicyItem

/-- The part that is removed. -/
def part : PolicyItem → PolicyPart
  | whole => .whole
  | entry l => .entry l
  | subject l id => .subject l id
  | resource l key => .resource l key

/-- The policy after the removal; a policy as a whole stays as a deleted one. -/
def removeFrom (p : Policy) : PolicyItem → Policy
  | whole => { p with book := { p.book with lifecycle := .deleted } }
  | entry l => p.removeEntry l
  | subject l id => p.removeSubject l id
  | resource l key => p.removeResource l key

end PolicyItem

end GuardedThings
