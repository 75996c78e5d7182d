import GuardedThings.Wire.Source

/-!
# Records and variants on the wire

`Fields` describes the fields of a record: their names, how each is decoded,
and what stands for an absent one. A record is written as an object; it may
also be read from an array of its fields in order.

Fields are decoded in the order of the object, and the first that fails is
reported; a missing one is noticed at the end. Unknown fields are passed over.

A variant is written as its bare name, or as an object whose single member is
named for it and holds its fields.
-/

set_option autoImplicit false

namespace GuardedThings

/-- How the fields of a record are decoded. -/
structure Fields (σ α : Type) where
  /-- The fields decoded so far. -/
  State : Type
  /-- No field was decoded yet. -/
  start : State
  /-- Decodes one member; none if no field has its name. -/
  take : State → String → σ → Option (Except Mismatch State)
  /-- The record, once all members are decoded. -/
  finish : State → Except Mismatch α
  /-- Decodes the record from the items of an array, whose end may be missing, and gives the items
  left over. -/
  listed : (closed : Bool) → List σ → Except Mismatch (α × List σ)

namespace Fields

variable {σ α β γ : Type}

/-- A field that stands for `absent` where it is missing. -/
def field (name : String) (absent : Except Mismatch α) (tooShort : Except Mismatch α)
    (decode : Decoder σ α) : Fields σ α where
  State := Option α
  start := none
  take state key value :=
    if key = name then
      some <| match state with
        | some _ => .error (.duplicateField name)
        | none => some <$> decode value
    else none
  finish
    | some a => .ok a
    | none => absent
  listed closed
    | [] => if closed then return (← tooShort, []) else .error .notJson
    | value :: rest => return (← decode value, rest)

/-- A field that must be there. -/
def required (name : String) (decode : Decoder σ α) : Fields σ α :=
  field name (.error (.missingField name)) (.error .invalidLength) decode

/-- A field with a default. -/
def defaulted (name : String) (default : α) (decode : Decoder σ α) : Fields σ α :=
  field name (.ok default) (.ok default) decode

/-- A field that may be missing or null. -/
def optional [Source σ] (name : String) (decode : Decoder σ α) : Fields σ (Option α) :=
  defaulted name none (Decoder.option decode)

/-- No field at all. -/
def nothing (a : α) : Fields σ α where
  State := Unit
  start := ()
  take _ _ _ := none
  finish _ := .ok a
  listed _ items := .ok (a, items)

/-- The fields of both. -/
def and (f : Fields σ α) (g : Fields σ β) : Fields σ (α × β) where
  State := f.State × g.State
  start := (f.start, g.start)
  take state key value :=
    match f.take state.1 key value with
    | some result => some (return (← result, state.2))
    | none => (g.take state.2 key value).map fun result => return (state.1, ← result)
  finish state := return (← f.finish state.1, ← g.finish state.2)
  listed closed items := do
    let (a, items) ← f.listed closed items
    let (b, items) ← g.listed closed items
    return ((a, b), items)

/-- The record made from the fields. -/
def map (f : Fields σ α) (make : α → β) : Fields σ β where
  State := f.State
  start := f.start
  take := f.take
  finish state := return make (← f.finish state)
  listed closed items := do
    let (a, items) ← f.listed closed items
    return (make a, items)

variable [Source σ]

/-- Decodes the members of an object in order. -/
def decodeMembers (f : Fields σ α) (state : f.State) : List (String × σ) → Except Mismatch f.State
  | [] => .ok state
  | (key, value) :: rest =>
    match f.take state key value with
    | some result => do f.decodeMembers (← result) rest
    | none => do
      Source.skip value
      f.decodeMembers state rest

/-- Decodes a record from an object. -/
def decodeObject (f : Fields σ α) (members : List (String × σ)) (closed : Bool) :
    Except Mismatch α := do
  let state ← f.decodeMembers f.start members
  Decoder.requireClosed closed
  f.finish state

/-- Decodes a record from an array of its fields. -/
def decodeArray (f : Fields σ α) (items : List σ) (closed : Bool) : Except Mismatch α := do
  let (a, rest) ← f.listed closed items
  if !rest.isEmpty then .error (Decoder.surplus σ .invalidLength)
  else
    Decoder.requireClosed closed
    return a

/-- Decodes a record. -/
def decode (f : Fields σ α) : Decoder σ α := fun s =>
  match Source.shape s with
  | .object members closed => f.decodeObject members closed
  | .array items closed => f.decodeArray items closed
  | .unreadable => .error .notJson
  | _ => .error .invalidType

end Fields

/-- What a variant carries on the wire. -/
inductive VariantBody (σ α : Type) where
  /-- Nothing: the variant is a bare name. -/
  | bare (value : α)
  /-- Fields. -/
  | fields (f : Fields σ α)

namespace VariantBody

variable {σ α : Type}

/-- The body of the variant with the given name. -/
def find? (name : String) : List (String × VariantBody σ α) → Option (VariantBody σ α)
  | [] => none
  | (name', body) :: rest => if name' = name then some body else find? name rest

variable [Source σ]

/-- Decodes the body of a variant. -/
def decodeBody (body : VariantBody σ α) : Decoder σ α := fun s =>
  match body with
  | .bare value =>
    match Source.shape s with
    | .null => .ok value
    | .unreadable => .error .notJson
    | _ => .error .invalidType
  | .fields f =>
    match Source.shape s with
    | .object members closed => f.decodeObject members closed
    | .array items closed =>
      if Source.streamed σ then f.decodeArray items closed else .error .invalidType
    | .unreadable => .error .notJson
    | _ => .error .invalidType

/-- Decodes a named variant with its body. -/
def decodeNamed (table : List (String × VariantBody σ α)) (name : String) : Decoder σ α := fun s =>
  match find? name table with
  | some body => body.decodeBody s
  | none => .error (.unknownVariant name)

/-- Decodes one of the variants of a table. -/
def decode (table : List (String × VariantBody σ α)) : Decoder σ α := fun s =>
  match Source.shape s with
  | .string name =>
    match find? name table with
    | some (.bare value) => .ok value
    | some (.fields _) => .error .invalidType
    | none => .error (.unknownVariant name)
  | .object [] _ => .error (Decoder.surplus σ .invalidValue)
  | .object [(name, body)] closed => do
    let value ← decodeNamed table name body
    Decoder.requireClosed closed
    return value
  | .object ((name, body) :: _) _ => do
    if Source.streamed σ then
      let _ ← decodeNamed table name body
      .error .notJson
    else .error .invalidValue
  | .unreadable => .error .notJson
  | _ => .error (Decoder.surplus σ .invalidType)

end VariantBody

end GuardedThings
