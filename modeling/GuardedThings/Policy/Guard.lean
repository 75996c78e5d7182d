import GuardedThings.Access.Cache
import GuardedThings.Access.View
import GuardedThings.Policy.Request

/-!
# Guard of policies

A policy guards itself: a command needs permissions on the resource of the
part it addresses, write access to all of it for changes and read access to
some of it for queries. A policy that does not exist can only be created, by a
caller to whom it grants write access to all of itself. What a query answers
is cut down to what the caller may read.
-/

set_option autoImplicit false

namespace GuardedThings

/-- Whether an enforcer lets a caller through to a resource. -/
def Enforcer.permits (e : Enforcer) (isQuery : Bool) (caller : Caller) (key : ResourceKey) : Bool :=
  if isQuery then e.hasPermissionAtOrBelow caller key .read
  else e.hasUnrestrictedPermission caller key .write

namespace PolicyGuard

/-- The failure of a command that is not allowed. -/
def denial (c : PolicyCommand) : Failure :=
  if c.request.isQuery then c.request.part.notAccessible c.entityId
  else c.request.part.notModifiable c.entityId

/-- The policy that a request proposes for the place of one that does not exist. -/
def proposed? : PolicyRequest → Option Policy
  | .create p | .replace p => some p
  | _ => none

/-- The enforcer of the addressed policy, and the cache afterwards. -/
def enforcer? (cache : EnforcerCache) (policy : Option Policy) (now : Timestamp) :
    Option Enforcer × EnforcerCache :=
  match policy with
  | some p => cache.getOrBuild p now
  | none => (none, cache)

/-- Whether a caller may give a command, and the cache afterwards. -/
def authorize (cache : EnforcerCache) (c : PolicyCommand) (policy : Option Policy)
    (caller : Caller) (now : Timestamp) : Except Failure Unit × EnforcerCache :=
  let (found, cache) := enforcer? cache policy now
  let enforcer := found.or ((proposed? c.request).map fun p => Enforcer.asOf p now)
  let verdict :=
    match enforcer with
    | none => .error (.policyNotAccessible c.entityId.text)
    | some e =>
      if e.permits c.request.isQuery caller c.request.part.resourceKey then .ok ()
      else .error (denial c)
  (verdict, cache)

/-- The response as the caller may see it, and the cache afterwards. -/
def filter (cache : EnforcerCache) (c : PolicyCommand) (r : Response) (policy : Policy)
    (caller : Caller) (now : Timestamp) : Response × EnforcerCache :=
  match r.entity with
  | none => (r, cache)
  | some entity =>
    let (enforcer, cache) := cache.getOrBuild policy now
    let view := enforcer.bind fun e =>
      e.viewAt? c.request.part.resourceKey entity caller .read
    ({ r with entity := view }, cache)

end PolicyGuard

end GuardedThings
