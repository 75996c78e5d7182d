import GuardedThings.Wire.Basic

/-!
# Bookkeeping of stored entities

What every stored entity records about itself: its lifecycle, its revision and
the times of its creation and its last modification. In documents the fields
are named with a leading underscore.
-/

set_option autoImplicit false

namespace GuardedThings

/-- What a stored entity records about itself. -/
structure Bookkeeping where
  lifecycle : Lifecycle := .active
  revision : Revision := .initial
  created : Option Timestamp := none
  modified : Option Timestamp := none
deriving DecidableEq

namespace Bookkeeping

/-- The bookkeeping of an active entity that has seen no event. -/
def fresh : Bookkeeping := {}

/-- The fields of the bookkeeping in a document. -/
def fields {σ : Type} [Source σ] : Fields σ Bookkeeping :=
  ((Fields.defaulted "_lifecycle" .active Wire.decode).and <|
    (Fields.defaulted "_revision" .initial Wire.decode).and <|
    (Fields.optional "_created" Wire.decode).and (Fields.optional "_modified" Wire.decode)).map
    fun (lifecycle, revision, created, modified) => { lifecycle, revision, created, modified }

/-- The members of a document that hold the bookkeeping, ascending. -/
def members (b : Bookkeeping) : List (String × Option Json) :=
  [("_created", b.created.map Wire.encode), ("_lifecycle", some (Wire.encode b.lifecycle)),
    ("_modified", b.modified.map Wire.encode), ("_revision", some (Wire.encode b.revision))]

end Bookkeeping

end GuardedThings
