import GuardedThings.Failure
import GuardedThings.Text.Basic

/-!
# Entity ids

An entity id is a namespace and a name with a colon between them, at most 256
bytes long. The namespace is empty or a dot-separated sequence of identifiers;
the name is not empty and holds no slash, since ids occur in resource paths.
-/

set_option autoImplicit false

namespace GuardedThings

/-- The kinds of entities that have ids. -/
inductive EntityKind where
  | policy
  | thing
deriving DecidableEq

namespace EntityId

/-- Whether a character may stand in a namespace segment after the first one. -/
def isWordChar (c : Char) : Bool := c.isAlphanum || c = '_'

/-- Whether a namespace segment is an identifier. -/
def isIdentifier : List Char → Bool
  | [] => false
  | c :: rest => (c.isAlpha || c = '_') && rest.all isWordChar

/-- Why a text is not an entity id; none if it is one. -/
def flaw? (text : String) : Option EntityIdFlaw :=
  if 256 < text.utf8ByteSize then some .tooLong
  else
    match Text.cut ':' text.toList with
    | none => some .noColon
    | some (space, name) =>
      if !space.isEmpty && !(Text.split '.' space).all isIdentifier then some .namespaceMalformed
      else if name.isEmpty then some .nameEmpty
      else if name.any (fun c => c = '/' || Text.isControl c) then some .nameMalformed
      else none

end EntityId

/-- The id of an entity of the given kind. -/
structure EntityId (kind : EntityKind) where
  text : String
  wellFormed : EntityId.flaw? text = none
deriving DecidableEq

/-- The id of a policy. -/
abbrev PolicyId := EntityId .policy

/-- The id of a thing. -/
abbrev ThingId := EntityId .thing

namespace EntityId

variable {kind : EntityKind}

/-- Reads an entity id. -/
def parse (raw : String) : Except Failure (EntityId kind) :=
  match h : flaw? raw with
  | none => .ok ⟨raw, h⟩
  | some flaw => .error (.entityIdInvalid raw flaw)

/-- The part before the first colon. -/
def namespaceText (id : EntityId kind) : String :=
  match Text.cut ':' id.text.toList with
  | some (space, _) => String.ofList space
  | none => ""

/-- The part after the first colon. -/
def nameText (id : EntityId kind) : String :=
  match Text.cut ':' id.text.toList with
  | some (_, name) => String.ofList name
  | none => ""

/-- The policy id with the same text. -/
def toPolicyId (id : ThingId) : PolicyId := ⟨id.text, id.wellFormed⟩

/-- The text of an id is read back as the id. -/
theorem parse_text (id : EntityId kind) : parse id.text = .ok id := by
  obtain ⟨text, h⟩ := id
  unfold parse
  split
  · rfl
  · rename_i h'
    simp [h] at h'

end EntityId

end GuardedThings
