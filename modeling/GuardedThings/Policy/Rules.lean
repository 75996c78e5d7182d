import GuardedThings.Aggregate.Execution
import GuardedThings.Policy.Request

/-!
# Rules of policies

How requests to policies are decided. A policy that is stored fits the size
limit, has only subjects that are not yet expired, with rounded expiries, and
keeps an administrator; a request that would break this is refused. A piece
that is new where it is put is answered with its content.
-/

set_option autoImplicit false

namespace GuardedThings.PolicyRules

/-- The tag of a part of a policy: the revision for the whole, the content for the rest. -/
def tag (r : PolicyRequest) (p : Policy) : Option EntityTag :=
  match r.part with
  | .whole => some (.ofRevision p.book.revision)
  | part => (part.get? p).map .ofContent

/-- What a request is decided with. -/
structure Setting where
  config : PolicyConfig
  now : Timestamp
  /-- The revision of the next event. -/
  revision : Revision
  command : PolicyCommand

namespace Setting

variable (s : Setting)

/-- The id of the addressed policy. -/
def id : PolicyId := s.command.entityId

/-- A response to the command. -/
def response (status : Status) (entity : Option Json) : Response :=
  { entityId := s.id.text
    type := s.command.request.responseType
    status
    entity
    headers := s.command.headers.forResponse }

/-- The outcome of a query. -/
def answer (entity : Json) : Outcome .policy PolicyChange :=
  .query (s.response .ok (some entity))

/-- The outcome of a change whose response has no content. -/
def changed (c : PolicyChange) : Outcome .policy PolicyChange :=
  .mutation (s.command.event s.revision s.now c) (s.response .noContent none) false false

/-- Checks the size of a document. -/
def checkSize (document : Json) : Except Failure Unit :=
  s.config.sizeLimit.check document s.command.headers

/-- Checks the size of a policy with new content in a part. -/
def checkSizeWith (p : Policy) (part : PolicyPart) (content : Json) : Except Failure Unit :=
  s.checkSize (part.place.set p.toJson content)

/-- Checks that a policy keeps an administrator. -/
def checkAdministration (p : Policy) (failure : String → Failure) : Except Failure Unit :=
  if s.config.adminRule.isMet p then .ok () else .error (failure s.config.adminRule.complaint)

/-- The failure of a change that would leave the policy without administrator. -/
def wouldBeInvalid (reason : String) : Failure := .policyModificationInvalid s.id.text reason

/-- The failure of a change to an entry that would leave the policy without administrator. -/
def entryWouldBeInvalid (l : Label) (reason : String) : Failure :=
  .entryInvalid s.id.text l.text reason

/-- The subject with its expiry rounded up; it must not be expired already. -/
def adjustSubject (id : SubjectId) (subject : Subject) : Except Failure Subject :=
  match subject.expiry with
  | none => .ok subject
  | some expiry =>
    let expiry := expiry.roundUp s.config.expiryGranularity
    if expiry.reached s.now then .error (.subjectExpiryInvalid id.text expiry)
    else .ok { subject with expiry := some expiry }

/-- The subjects with their expiries rounded up. -/
def adjustSubjects (subjects : Subjects) : Except Failure Subjects :=
  subjects.mapValuesM s.adjustSubject

/-- The entry with the expiries of its subjects rounded up. -/
def adjustEntry (e : Entry) : Except Failure Entry :=
  return { e with body := { e.body with subjects := ← s.adjustSubjects e.subjects } }

/-- The proposed policy as it would be stored. -/
def adjustPolicy (proposed : Policy) : Except Failure Policy := do
  if proposed.id ≠ s.id then .error (.entityIdMismatch s.id.text proposed.id.text)
  else
    let entries ← proposed.entryList.mapM s.adjustEntry
    return (← proposed.setEntries entries).withLifecycle .active

/-- Checks a proposed policy and gives it as it would be stored. -/
def acceptPolicy (proposed : Policy) (failure : String → Failure) : Except Failure Policy := do
  let p ← s.adjustPolicy proposed
  s.checkSize p.toJson
  s.checkAdministration p failure
  return p

/-- Creates a policy. -/
def create (proposed : Policy) : Except Failure (Outcome .policy PolicyChange) := do
  let p ← s.acceptPolicy proposed (.policyInvalid s.id.text)
  let stored := { p with book := { p.book with revision := s.revision } }
  return .mutation (s.command.event s.revision s.now (.created p))
    (s.response .created (some stored.toJson)) true false

/-- Replaces a policy. -/
def replace (proposed : Policy) : Except Failure (Outcome .policy PolicyChange) :=
  return s.changed (.replaced (← s.acceptPolicy proposed s.wouldBeInvalid))

/-- The body of an entry that has to be there. -/
def existingEntry (p : Policy) (l : Label) : Except Failure EntryBody :=
  match p.entries.get? l with
  | some body => .ok body
  | none => .error (.entryNotAccessible s.id.text l.text)

/-- Replaces a collection. -/
def replaceGroup (p : Policy) : PolicyGroup → Except Failure (Outcome .policy PolicyChange)
  | .entries es => do
    let es ← es.mapM s.adjustEntry
    let next ← p.setEntries es
    s.checkSizeWith p .entries next.entriesJson
    s.checkAdministration next s.wouldBeInvalid
    return s.changed (.groupReplaced (.entries es))
  | .subjects l subjects => do
    let _ ← s.existingEntry p l
    let subjects ← s.adjustSubjects subjects
    s.checkSizeWith p (.subjects l) (Wire.encode subjects)
    s.checkAdministration (p.setSubjects l subjects) (s.entryWouldBeInvalid l)
    return s.changed (.groupReplaced (.subjects l subjects))
  | .resources l resources => do
    let _ ← s.existingEntry p l
    s.checkSizeWith p (.resources l) (Wire.encode resources)
    s.checkAdministration (p.setResources l resources) (s.entryWouldBeInvalid l)
    return s.changed (.groupReplaced (.resources l resources))

/-- The outcome of putting a piece in place, given whether something was there. -/
def put (existed : Bool) (piece : PolicyPiece) : Outcome .policy PolicyChange :=
  let response :=
    if existed then s.response .noContent none else s.response .created (some piece.toJson)
  .mutation (s.command.event s.revision s.now (.written (.of existed) piece)) response false false

/-- Puts a piece in place. -/
def write (p : Policy) : PolicyPiece → Except Failure (Outcome .policy PolicyChange)
  | .entry e => do
    let e ← s.adjustEntry e
    s.checkSizeWith p (.entry e.label) (Wire.encode e.body)
    s.checkAdministration (p.setEntry e) (s.entryWouldBeInvalid e.label)
    return s.put (p.entries.contains e.label) (.entry e)
  | .subject l id subject => do
    let body ← s.existingEntry p l
    s.checkSizeWith p (.subject l id) (Wire.encode subject)
    let subject ← s.adjustSubject id subject
    s.checkAdministration (p.setSubject l id subject) (s.entryWouldBeInvalid l)
    return s.put (body.subjects.contains id) (.subject l id subject)
  | .resource l key effects => do
    let body ← s.existingEntry p l
    s.checkSizeWith p (.resource l key) (Wire.encode effects)
    s.checkAdministration (p.setResource l key effects) (s.entryWouldBeInvalid l)
    return s.put (body.resources.contains key) (.resource l key effects)

/-- Removes an item. -/
def remove (p : Policy) : PolicyItem → Except Failure (Outcome .policy PolicyChange)
  | .whole =>
    return .mutation (s.command.event s.revision s.now (.removed .whole))
      (s.response .noContent none) false true
  | .entry l => do
    let _ ← s.existingEntry p l
    s.checkAdministration (p.removeEntry l) s.wouldBeInvalid
    return s.changed (.removed (.entry l))
  | .subject l id => do
    let body ← s.existingEntry p l
    if !body.subjects.contains id then
      .error (.subjectNotAccessible s.id.text l.text id.text)
    else
      s.checkAdministration (p.removeSubject l id) (s.entryWouldBeInvalid l)
      return s.changed (.removed (.subject l id))
  | .resource l key => do
    let body ← s.existingEntry p l
    if !body.resources.contains key then
      .error (.resourceNotAccessible s.id.text l.text key.text)
    else
      s.checkAdministration (p.removeResource l key) (s.entryWouldBeInvalid l)
      return s.changed (.removed (.resource l key))

/-- Answers a query; a part is missing together with its entry. -/
def retrieve (p : Policy) (part : PolicyPart) : Except Failure (Outcome .policy PolicyChange) := do
  if let some l := part.label? then
    let _ ← s.existingEntry p l
  match part.get? p with
  | some content => return s.answer content
  | none => .error (part.notAccessible s.id)

/-- Decides a request to an active policy. -/
def onExisting (p : Policy) : Except Failure (Outcome .policy PolicyChange) :=
  match s.command.request with
  | .create _ => .error (.policyConflict s.id.text)
  | .replace proposed => s.replace proposed
  | .replaceGroup group => s.replaceGroup p group
  | .write piece => s.write p piece
  | .remove item => s.remove p item
  | .retrieve part => s.retrieve p part

/-- Decides a request to a policy that does not exist or was deleted. -/
def onMissing : Except Failure (Outcome .policy PolicyChange) :=
  match s.command.request with
  | .create proposed | .replace proposed => s.create proposed
  | _ => .error (.policyNotAccessible s.id.text)

end Setting

/-- What a command does to a policy. -/
def decide (config : PolicyConfig) (now : Timestamp) (policy : Option Policy)
    (revision : Revision) (c : PolicyCommand) : Outcome .policy PolicyChange :=
  let s : Setting := ⟨config, now, revision, c⟩
  let result :=
    match Aggregate.active? policy with
    | some p => s.onExisting p
    | none => s.onMissing
  match result with
  | .ok outcome => outcome
  | .error failure => .failed failure

end GuardedThings.PolicyRules

namespace GuardedThings

/-- The rules of policies. -/
def policyRules (config : PolicyConfig) :
    CommandRules Policy .policy PolicyChange PolicyRequest where
  decide := PolicyRules.decide config
  tag := PolicyRules.tag
  isQuery := PolicyRequest.isQuery
  responseType := PolicyRequest.responseType

end GuardedThings
