import GuardedThings.Json.Basic

/-!
# Paths into JSON values

A path is a list of member names. Reading goes through objects only. Writing
creates the objects on the way and puts an object in place of any other value;
removing changes nothing unless the whole path is there.
-/

set_option autoImplicit false

namespace GuardedThings.Json

/-- The value at a path. -/
def getPath? (v : Json) : List String → Option Json
  | [] => some v
  | name :: rest => (v.member? name).bind fun child => child.getPath? rest

/-- The value with `new` at a path. -/
def setPath (v : Json) : List String → Json → Json
  | [], new => new
  | name :: rest, new =>
    let members := v.membersOrEmpty
    let child := (Assoc.get? name members).getD .null
    .object (Assoc.insert name (child.setPath rest new) members)

/-- The value at a path and the value without it; the empty path is never removed. -/
def removePath? (v : Json) : List String → Option (Json × Json)
  | [] => none
  | [name] => do
    let members ← v.members?
    let removed ← Assoc.get? name members
    return (removed, .object (Assoc.erase name members))
  | name :: rest => do
    let members ← v.members?
    let (removed, child) ← (← Assoc.get? name members).removePath? rest
    return (removed, .object (Assoc.insert name child members))

end GuardedThings.Json
