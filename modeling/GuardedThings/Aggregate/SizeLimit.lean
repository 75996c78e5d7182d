import GuardedThings.Headers

/-!
# Size limits

The size of an entity is the size of its compact text plus that of the
metadata a command attaches to its event. A modification is measured on the
document with the proposed value put in place.
-/

set_option autoImplicit false

namespace GuardedThings

/-- The largest size allowed to entities of a kind. -/
structure SizeLimit where
  kind : EntityKind
  maxBytes : Nat
deriving DecidableEq

namespace SizeLimit

/-- The size of a document together with the metadata in the headers. -/
def measure (document : Json) (headers : Headers) : Nat :=
  document.byteSize +
    match headers.metadata with
    | some metadata => metadata.byteSize
    | none => 0

/-- The failure of an entity that is too large. -/
def exceeded (limit : SizeLimit) (actual : Nat) : Failure :=
  match limit.kind with
  | .policy => .policyTooLarge actual limit.maxBytes
  | .thing => .thingTooLarge actual limit.maxBytes

/-- Checks a document, given the headers of the command. -/
def check (limit : SizeLimit) (document : Json) (headers : Headers) : Except Failure Unit :=
  let actual := measure document headers
  if actual ≤ limit.maxBytes then .ok () else .error (limit.exceeded actual)

end SizeLimit

end GuardedThings
