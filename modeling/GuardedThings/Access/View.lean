import GuardedThings.Access.Enforcer

/-!
# Views

A view of a document keeps what a caller may see of it. Every field is a
resource; values that are no objects, and empty objects, are kept when the
caller holds the permissions on them, other objects when something in them is.
-/

set_option autoImplicit false

namespace GuardedThings

mutual

/-- The part of a value, found at `here`, of which something is allowed to be seen. -/
def Json.visible? (allowed : Pointer → Bool) (here : Pointer) : Json → Option Json
  | .object members =>
    match members with
    | [] => if allowed here then some (.object []) else none
    | _ :: _ =>
      match Json.visibleMembers allowed here members with
      | [] => none
      | kept => some (.object kept)
  | v => if allowed here then some v else none

/-- The visible parts of the members of an object found at `here`. -/
def Json.visibleMembers (allowed : Pointer → Bool) (here : Pointer) :
    List (String × Json) → List (String × Json)
  | [] => []
  | (name, value) :: rest =>
    match value.visible? allowed (here.append name) with
    | some kept => (name, kept) :: Json.visibleMembers allowed here rest
    | none => Json.visibleMembers allowed here rest

end

namespace Enforcer

/-- Whether the caller holds the permissions on a path of resources of the given type. -/
def allows (e : Enforcer) (type : String) (caller : Caller) (permissions : Permissions)
    (path : Pointer) : Bool :=
  match ResourceKey.make type path with
  | .ok key => e.hasPermission caller key permissions
  | .error _ => false

/-- The view of a value that is found at `key`; none if nothing of it is visible. -/
def viewAt? (e : Enforcer) (key : ResourceKey) (value : Json) (caller : Caller)
    (permissions : Permissions) : Option Json :=
  value.visible? (e.allows key.type caller permissions) key.path

/-- The view of a whole document; the empty object if nothing of it is visible. -/
def view (e : Enforcer) (type : String) (document : Json) (caller : Caller)
    (permissions : Permissions) : Json :=
  (document.visible? (e.allows type caller permissions) .root).getD (.object [])

end Enforcer

end GuardedThings
