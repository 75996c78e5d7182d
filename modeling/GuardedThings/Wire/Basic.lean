import GuardedThings.EntityId
import GuardedThings.Pointer
import GuardedThings.Wire.Fields

/-!
# Wire forms

A type with a wire form has an encoding as JSON and a decoder for it. This
module gives the forms of texts, numbers, plain JSON and the small types every
document uses.
-/

set_option autoImplicit false

namespace GuardedThings

/-- A type whose values travel as JSON. -/
class Wire (α : Type) where
  /-- Writes a value. -/
  encode : α → Json
  /-- Reads a value. -/
  decode : {σ : Type} → [Source σ] → Decoder σ α

instance : Wire String := ⟨.string, Decoder.string⟩

instance : Wire UInt64 := ⟨.ofWord, Decoder.word⟩

instance : Wire Json := ⟨id, Decoder.json⟩

instance : Wire JsonObject := ⟨.object, Decoder.jsonObject⟩

instance : Wire Revision := ⟨fun r => .ofWord r.number, fun s => return ⟨← Decoder.word s⟩⟩

instance : Wire Timestamp := ⟨fun t => .ofWord t.millis, fun s => return ⟨← Decoder.word s⟩⟩

instance : Wire Lifecycle where
  encode l := .string l.name
  decode := VariantBody.decode [("ACTIVE", .bare .active), ("DELETED", .bare .deleted)]

instance : Wire Status where
  encode s := .ofNat s.code
  decode s := do
    let code ← Decoder.natBelow UInt16.size s
    match Status.ofCode? code with
    | some status => .ok status
    | none => .error (.unsupportedStatus code)

instance : Wire Pointer := ⟨fun p => .string p.text, Decoder.parsed Pointer.parse⟩

instance (kind : EntityKind) : Wire (EntityId kind) :=
  ⟨fun id => .string id.text, Decoder.parsed EntityId.parse⟩

end GuardedThings
