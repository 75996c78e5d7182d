import GuardedThings.Policy.Guard
import GuardedThings.Thing.Request

/-!
# Guard of things

A thing is guarded by the policy it names: a command needs permissions on the
resource of the part it addresses, write access to all of it for changes and
read access to some of it for queries. Without a usable policy nothing is
allowed. What a query answers is cut down to what the caller may read; a thing
of which anything is left keeps its id.
-/

set_option autoImplicit false

namespace GuardedThings.ThingGuard

/-- The failure of a command that is not allowed. -/
def denial (c : ThingCommand) : Failure :=
  if c.request.isQuery then c.request.part.notAccessible c.entityId
  else c.request.part.notModifiable c.entityId

/-- Whether a caller may give a command, and the cache afterwards. -/
def authorize (cache : EnforcerCache) (c : ThingCommand) (policy : Option Policy)
    (caller : Caller) (now : Timestamp) : Except Failure Unit × EnforcerCache :=
  let (enforcer, cache) := PolicyGuard.enforcer? cache policy now
  if enforcer.any fun e => e.permits c.request.isQuery caller c.request.part.resourceKey then
    (.ok (), cache)
  else (.error (denial c), cache)

/-- The view with the id of the thing put back, if it is one of a whole thing. -/
def keepId (c : ThingCommand) (view : Json) : Json :=
  match c.request, view with
  | .retrieve .whole, .object members =>
    .object (Assoc.insert "thingId" (Wire.encode c.entityId) members)
  | _, _ => view

/-- The response as the caller may see it, and the cache afterwards. -/
def filter (cache : EnforcerCache) (c : ThingCommand) (r : Response) (policy : Policy)
    (caller : Caller) (now : Timestamp) : Response × EnforcerCache :=
  match r.entity with
  | none => (r, cache)
  | some entity =>
    let (enforcer, cache) := cache.getOrBuild policy now
    let view := enforcer.bind fun e =>
      e.viewAt? c.request.part.resourceKey entity caller .read
    ({ r with entity := view.map (keepId c) }, cache)

end GuardedThings.ThingGuard
