import GuardedThings.Access.Tree
import GuardedThings.Policy.Basic

/-!
# Enforcers

An enforcer answers questions about the permissions of one policy at one
revision. It indexes the subjects of the policy, all of them or only those that
count, and keeps an access tree for each of them and each resource type.

A request for several permissions is granted when each of them is granted to
some subject of the caller; a request for none is denied.
-/

set_option autoImplicit false

namespace GuardedThings

/-- The access trees of one subject, by resource type. -/
abbrev AccessIndex := Dict String AccessTree

/-- The decisions of one policy at one revision. -/
structure Enforcer where
  policyId : PolicyId
  revision : Revision
  subjects : Dict SubjectId AccessIndex
  /-- The earliest expiry of an indexed subject. -/
  expiresAt : Option Timestamp

namespace AccessIndex

/-- The index with the effects on a resource added. -/
def addResource (index : AccessIndex) (key : ResourceKey) (e : Effects) : AccessIndex :=
  index.insert key.type (((index.get? key.type).getD .empty).insert key.path.segments e)

/-- The index with the resources of an entry added. -/
def addResources (index : AccessIndex) (resources : Resources) : AccessIndex :=
  resources.toList.foldl (fun index (key, e) => index.addResource key e) index

/-- Whether `question`, asked of the tree of the key's type, is answered with yes. -/
def ask (index : AccessIndex) (question : AccessTree → Permission → List String → Bool)
    (key : ResourceKey) (p : Permission) : Bool :=
  match index.get? key.type with
  | some tree => question tree p key.path.segments
  | none => false

end AccessIndex

namespace Enforcer

/-- The index with the subjects of an entry that count added. -/
def addEntry (counts : Subject → Bool) (subjects : Dict SubjectId AccessIndex)
    (body : EntryBody) : Dict SubjectId AccessIndex :=
  body.subjects.toList.foldl (fun subjects (id, subject) =>
    if counts subject then
      subjects.insert id (((subjects.get? id).getD .empty).addResources body.resources)
    else subjects) subjects

/-- The expiries of the subjects of a policy that count. -/
def expiries (counts : Subject → Bool) (policy : Policy) : List Timestamp :=
  policy.entries.values.flatMap fun body =>
    (body.subjects.values.filter counts).filterMap (·.expiry)

/-- The earliest of several points in time. -/
def earliest? : List Timestamp → Option Timestamp
  | [] => none
  | t :: rest => some (rest.foldl Timestamp.earlier t)

/-- The enforcer of a policy that indexes the subjects that count. -/
def build (counts : Subject → Bool) (policy : Policy) : Enforcer where
  policyId := policy.id
  revision := policy.book.revision
  subjects := policy.entries.values.foldl (addEntry counts) .empty
  expiresAt := earliest? (expiries counts policy)

/-- The enforcer of all subjects. -/
def ofPolicy (policy : Policy) : Enforcer := build (fun _ => true) policy

/-- The enforcer of the subjects that are not expired at `now`. -/
def asOf (policy : Policy) (now : Timestamp) : Enforcer := ofPolicy (policy.removeExpired now)

/-- The enforcer of the subjects that never expire. -/
def permanentOnly (policy : Policy) : Enforcer := build Subject.isPermanent policy

/-- The enforcer of a policy document. -/
def ofDocument (document : Json) : Except Failure Enforcer :=
  match (Wire.decode document : Except Mismatch Policy) with
  | .ok policy => .ok (ofPolicy policy)
  | .error mismatch => .error (.policyStructureInvalid mismatch.message)

/-- Whether an indexed subject is expired at `now`. -/
def isStale (e : Enforcer) (now : Timestamp) : Bool :=
  match e.expiresAt with
  | none => false
  | some expiry => expiry.reached now

/-- The indexes of the caller's subjects. -/
def indexes (e : Enforcer) (caller : Caller) : List AccessIndex :=
  caller.ids.toList.filterMap e.subjects.get?

/-- Whether each permission is granted to some subject of the caller, in the sense of `question`. -/
def decide (e : Enforcer) (question : AccessTree → Permission → List String → Bool)
    (caller : Caller) (key : ResourceKey) (permissions : Permissions) : Bool :=
  !permissions.isEmpty &&
    permissions.toList.all fun p => (e.indexes caller).any fun index => index.ask question key p

/-- The subjects to which all permissions are granted, in the sense of `question`. -/
def subjectsWhere (e : Enforcer) (question : AccessTree → Permission → List String → Bool)
    (key : ResourceKey) (permissions : Permissions) : KeySet SubjectId :=
  if permissions.isEmpty then .empty
  else ⟨(e.subjects.filter fun _ index =>
    permissions.toList.all fun p => index.ask question key p).mapValues fun _ _ => ()⟩

/-- Whether the caller holds all permissions on the resource. -/
def hasPermission (e : Enforcer) : Caller → ResourceKey → Permissions → Bool :=
  e.decide AccessTree.grants

/-- Whether the caller holds all permissions on the resource or somewhere below it. -/
def hasPermissionAtOrBelow (e : Enforcer) : Caller → ResourceKey → Permissions → Bool :=
  e.decide AccessTree.grantsAtOrBelow

/-- Whether the caller holds all permissions on the resource and everything below it. -/
def hasUnrestrictedPermission (e : Enforcer) : Caller → ResourceKey → Permissions → Bool :=
  e.decide AccessTree.grantsThroughout

/-- The subjects that hold all permissions on the resource. -/
def subjectsWith (e : Enforcer) : ResourceKey → Permissions → KeySet SubjectId :=
  e.subjectsWhere AccessTree.grants

/-- The subjects that hold all permissions on the resource or somewhere below it. -/
def subjectsWithPartial (e : Enforcer) : ResourceKey → Permissions → KeySet SubjectId :=
  e.subjectsWhere AccessTree.grantsAtOrBelow

/-- The subjects that hold all permissions on the resource and everything below it. -/
def subjectsWithUnrestricted (e : Enforcer) : ResourceKey → Permissions → KeySet SubjectId :=
  e.subjectsWhere AccessTree.grantsThroughout

end Enforcer

end GuardedThings
