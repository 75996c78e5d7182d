import GuardedThings.KeySet
import GuardedThings.Wire.Basic

/-!
# Permissions

A permission is a non-empty word; a set of permissions is listed in ascending
order. What an entry says about a resource is a set it grants and a set it
revokes.
-/

set_option autoImplicit false

namespace GuardedThings

namespace Permission

/-- Whether a text is a permission: not empty, no white space, no control characters. -/
def isWord (text : String) : Bool :=
  text ≠ "" && !text.toList.any fun c => Text.isBlank c || Text.isControl c

end Permission

/-- The name of something that may be done to a resource. -/
structure Permission where
  name : String
  wellFormed : Permission.isWord name = true
deriving DecidableEq

namespace Permission

instance : Key Permission where
  names p := [p.name]
  names_injective {a b} h := by
    obtain ⟨_, _⟩ := a
    obtain ⟨_, _⟩ := b
    simp only [List.cons.injEq, and_true] at h
    cases h
    rfl

/-- The permission to read a resource. -/
def read : Permission := ⟨"READ", by decide⟩

/-- The permission to modify a resource. -/
def write : Permission := ⟨"WRITE", by decide⟩

/-- Reads a permission. -/
def parse (raw : String) : Except Failure Permission :=
  if h : isWord raw = true then .ok ⟨raw, h⟩ else .error (.permissionInvalid raw)

/-- The name of a permission is read back as the permission. -/
theorem parse_name (p : Permission) : parse p.name = .ok p := by
  obtain ⟨name, h⟩ := p
  simp [parse, h]

end Permission

/-- A set of permissions. -/
abbrev Permissions := KeySet Permission

namespace Permissions

/-- The set of the named permissions; the first malformed name is reported. -/
def parse (raw : List String) : Except Failure Permissions :=
  return KeySet.ofList (← raw.mapM Permission.parse)

/-- The permission to read. -/
def read : Permissions := .singleton .read

/-- The permission to modify. -/
def write : Permissions := .singleton .write

/-- The names, ascending. -/
def names (ps : Permissions) : List String := ps.toList.map (·.name)

/-- The names between brackets. -/
def text (ps : Permissions) : String := "[" ++ ", ".intercalate ps.names ++ "]"

instance : Wire Permissions where
  encode ps := .ofStrings ps.names
  decode s := do
    match parse (← Decoder.list Decoder.string s) with
    | .ok ps => .ok ps
    | .error failure => .error (.refused failure)

end Permissions

/-- What an entry grants and revokes on a resource; where both name a permission, the revoke
wins. -/
structure Effects where
  grant : Permissions
  revoke : Permissions
deriving DecidableEq

namespace Effects

/-- Nothing granted and nothing revoked. -/
def empty : Effects := ⟨.empty, .empty⟩

/-- Whether nothing is granted and nothing revoked. -/
def isEmpty (e : Effects) : Bool := e.grant.isEmpty && e.revoke.isEmpty

/-- The fields of effects. -/
def fields {σ : Type} [Source σ] : Fields σ Effects :=
  ((Fields.defaulted "grant" .empty Wire.decode).and
    (Fields.defaulted "revoke" .empty Wire.decode)).map fun (grant, revoke) => ⟨grant, revoke⟩

instance : Wire Effects where
  encode e := Json.ofFields
    [("grant", some (Wire.encode e.grant)), ("revoke", some (Wire.encode e.revoke))]
  decode := fields.decode

end Effects

end GuardedThings
