import GuardedThings.Wire.Basic

/-!
# Resource keys

A resource key is a type, a non-empty word of lower-case letters, digits,
underscores and hyphens, and a path. It is written as the type, a colon and
the path; reading it tolerates every spelling of the path that pointers do.
Keys are ordered by type and then segment by segment.
-/

set_option autoImplicit false

namespace GuardedThings

namespace ResourceKey

/-- Whether a character may stand in a resource type. -/
def isTypeChar (c : Char) : Bool := Text.isLowerLetter c || c.isDigit || c = '_' || c = '-'

/-- Whether a text is a resource type. -/
def isType (text : String) : Bool := text ≠ "" && text.toList.all isTypeChar

end ResourceKey

/-- The address of a protected resource. -/
structure ResourceKey where
  type : String
  path : Pointer
  wellFormed : ResourceKey.isType type = true
deriving DecidableEq

namespace ResourceKey

instance : Key ResourceKey where
  names k := k.type :: k.path.segments
  names_injective {a b} h := by
    obtain ⟨_, ⟨_, _⟩, _⟩ := a
    obtain ⟨_, ⟨_, _⟩, _⟩ := b
    simp only [List.cons.injEq] at h
    obtain ⟨h, h'⟩ := h
    cases h
    cases h'
    rfl

/-- The text of a key. -/
def text (k : ResourceKey) : String := k.type ++ ":" ++ k.path.text

/-- The key of the given parts. -/
def make (type : String) (path : Pointer) : Except Failure ResourceKey :=
  if h : isType type = true then .ok ⟨type, path, h⟩
  else .error (.resourceKeyInvalid (type ++ ":" ++ path.text) .badType)

/-- Reads a key. -/
def parse (raw : String) : Except Failure ResourceKey :=
  match Text.cut ':' raw.toList with
  | none => .error (.resourceKeyInvalid raw .noColon)
  | some (before, after) =>
    match Pointer.ofChars? after with
    | none => .error (.resourceKeyInvalid raw (.badPath (String.ofList after)))
    | some path =>
      if h : isType (String.ofList before) = true then .ok ⟨String.ofList before, path, h⟩
      else .error (.resourceKeyInvalid raw .badType)

/-- The key of a resource that belongs to a thing. -/
def thing (path : Pointer) : ResourceKey := ⟨"thing", path, by decide⟩

/-- The key of a resource that belongs to a policy. -/
def policy (path : Pointer) : ResourceKey := ⟨"policy", path, by decide⟩

/-- The key one segment deeper; an empty segment adds nothing. -/
def child (k : ResourceKey) (segment : String) : ResourceKey :=
  { k with path := k.path.append segment }

instance : Wire ResourceKey := ⟨fun k => .string k.text, Decoder.parsed ResourceKey.parse⟩

end ResourceKey

end GuardedThings
