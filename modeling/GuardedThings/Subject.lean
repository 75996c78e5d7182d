import GuardedThings.KeySet
import GuardedThings.Wire.Basic

/-!
# Subjects

A subject id names an authenticated principal, usually as issuer and subject
with a colon between them. A subject of a policy entry has a type, which is for
people only, and may expire. A caller presents a set of subject ids.
-/

set_option autoImplicit false

namespace GuardedThings

namespace SubjectId

/-- Why a text is not a subject id; none if it is one. -/
def flaw? (text : String) : Option SubjectIdFlaw :=
  if text = "" then some .empty
  else if 256 < text.utf8ByteSize then some .tooLong
  else if text.toList.any Text.isControl then some .malformed
  else none

end SubjectId

/-- The id of an authenticated principal. -/
structure SubjectId where
  text : String
  wellFormed : SubjectId.flaw? text = none
deriving DecidableEq

namespace SubjectId

instance : Key SubjectId where
  names id := [id.text]
  names_injective {a b} h := by
    obtain ⟨_, _⟩ := a
    obtain ⟨_, _⟩ := b
    simp only [List.cons.injEq, and_true] at h
    cases h
    rfl

/-- Reads a subject id. -/
def parse (raw : String) : Except Failure SubjectId :=
  match h : flaw? raw with
  | none => .ok ⟨raw, h⟩
  | some flaw => .error (.subjectIdInvalid raw flaw)

/-- The text of a subject id is read back as the id. -/
theorem parse_text (id : SubjectId) : parse id.text = .ok id := by
  obtain ⟨text, h⟩ := id
  unfold parse
  split
  · rfl
  · rename_i h'
    simp [h] at h'

/-- The part before the first colon, if there is one. -/
def issuer? (id : SubjectId) : Option String :=
  (Text.cut ':' id.text.toList).map fun (issuer, _) => String.ofList issuer

instance : Wire SubjectId := ⟨fun id => .string id.text, Decoder.parsed SubjectId.parse⟩

end SubjectId

/-- A subject of a policy entry. -/
structure Subject where
  /-- The type of the subject; no decision depends on it. -/
  type : String
  /-- The point in time from which on the subject no longer counts. -/
  expiry : Option Timestamp
deriving DecidableEq

namespace Subject

/-- Whether the subject never expires. -/
def isPermanent (s : Subject) : Bool := s.expiry.isNone

/-- Whether the subject no longer counts at `now`. -/
def isExpired (s : Subject) (now : Timestamp) : Bool :=
  match s.expiry with
  | none => false
  | some expiry => expiry.reached now

/-- The fields of a subject. -/
def fields {σ : Type} [Source σ] : Fields σ Subject :=
  ((Fields.required "type" Wire.decode).and (Fields.optional "expiry" Wire.decode)).map
    fun (type, expiry) => ⟨type, expiry⟩

instance : Wire Subject where
  encode s := Json.ofFields [("expiry", s.expiry.map Wire.encode), ("type", some (.string s.type))]
  decode := fields.decode

end Subject

/-- The set of subject ids a caller presents. -/
structure Caller where
  ids : KeySet SubjectId
deriving DecidableEq

namespace Caller

/-- The caller with the given ids. -/
def ofIds (ids : List SubjectId) : Caller := ⟨.ofList ids⟩

/-- The caller with a single id. -/
def single (id : SubjectId) : Caller := ⟨.singleton id⟩

/-- Reads the ids of a caller; the first malformed one is reported. -/
def parse (raw : List String) : Except Failure Caller := return ofIds (← raw.mapM SubjectId.parse)

instance : Wire Caller where
  encode c := .array (c.ids.toList.map Wire.encode)
  decode s := return ofIds (← Decoder.list Wire.decode s)

end Caller

end GuardedThings
