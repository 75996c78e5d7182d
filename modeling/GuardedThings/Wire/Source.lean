import GuardedThings.Failure
import GuardedThings.Json.Draft

/-!
# What is decoded

Values are decoded from a `Source`: from JSON at hand, or from the draft of a
text that is read while it is decoded. Both show the same shapes; they differ
in what they call a container with too many parts. At hand that is a wrong
value. In a text the decoder stops where it has what it wants, so what
follows is no JSON for it. `Source.streamed` tells the two apart.
-/

set_option autoImplicit false

namespace GuardedThings

/-- Why a JSON value is not the value that was asked for. -/
inductive Mismatch where
  /-- The kind of JSON value is wrong. -/
  | invalidType
  /-- The number is out of range, or an object has not exactly one member. -/
  | invalidValue
  /-- An array has the wrong number of items. -/
  | invalidLength
  | unknownVariant (name : String)
  | missingField (name : String)
  | duplicateField (name : String)
  /-- Two members of an object have the same key once it is read. -/
  | duplicateKey (what key : String)
  | unsupportedStatus (code : Nat)
  /-- The value is not acceptable in the domain. -/
  | refused (failure : Failure)
  /-- The text is not JSON, or not as far as it was looked at. -/
  | notJson
deriving DecidableEq

/-- The wording of a mismatch. -/
def Mismatch.message : Mismatch → String
  | invalidType => "invalid type"
  | invalidValue => "invalid value"
  | invalidLength => "invalid length"
  | unknownVariant name => s!"unknown variant `{name}`"
  | missingField name => s!"missing field `{name}`"
  | duplicateField name => s!"duplicate field `{name}`"
  | duplicateKey what key => s!"duplicate {what} '{key}'"
  | unsupportedStatus code => "unsupported status code " ++ toString code
  | refused failure => failure.message
  | notJson => "the text is not JSON"

/-- The outermost layer of a value; `closed` tells whether the end of a container was found. -/
inductive Shape (σ : Type) where
  | unreadable
  | null
  | bool (value : Bool)
  | integer (value : Int)
  | float (value : Binary64)
  | string (value : String)
  | array (items : List σ) (closed : Bool)
  | object (members : List (String × σ)) (closed : Bool)

/-- A representation of JSON values that can be decoded. -/
class Source (σ : Type) where
  /-- The outermost layer. -/
  shape : σ → Shape σ
  /-- The whole value. -/
  toJson : σ → Except Mismatch Json
  /-- Passes over a value that nobody asked for. -/
  skip : σ → Except Mismatch Unit
  /-- Whether decoding goes along with the reading of a text. -/
  streamed : Bool

instance : Source Json where
  shape
    | .null => .null
    | .bool b => .bool b
    | .integer n => .integer n
    | .float x => .float x
    | .string s => .string s
    | .array items => .array items true
    | .object members => .object members true
  toJson := .ok
  skip _ := .ok ()
  streamed := false

namespace Draft

/-- The members up to the first one whose name is unreadable, and whether there is none such. -/
def readableMembers : List (Option String × Draft) → List (String × Draft) × Bool
  | [] => ([], true)
  | (none, _) :: _ => ([], false)
  | (some name, value) :: rest =>
    let (members, all) := readableMembers rest
    ((name, value) :: members, all)

end Draft

instance : Source Draft where
  shape
    | .unreadable _ => .unreadable
    | .null => .null
    | .bool b => .bool b
    | .integer n => .integer n
    | .float x => .float x
    | .string s => .string s
    | .array items closed => .array items closed
    | .object members closed =>
      let (readable, all) := Draft.readableMembers members
      .object readable (all && closed)
  toJson d :=
    match d.toJson? with
    | some v => .ok v
    | none => .error .notJson
  skip d := if d.isSkippable then .ok () else .error .notJson
  streamed := true

/-- A way to make an `α` out of a source. -/
abbrev Decoder (σ α : Type) := σ → Except Mismatch α

namespace Decoder

variable {σ α β : Type} [Source σ]

/-- What is reported where too many parts follow: `other`, or a fault of the text. -/
def surplus (σ : Type) [Source σ] (other : Mismatch) : Mismatch :=
  if Source.streamed σ then .notJson else other

/-- Fails unless the end of a container was found. -/
def requireClosed (closed : Bool) : Except Mismatch Unit :=
  if closed then .ok () else .error .notJson

/-- Decodes a string. -/
def string : Decoder σ String := fun s =>
  match Source.shape s with
  | .string text => .ok text
  | .unreadable => .error .notJson
  | _ => .error .invalidType

/-- Decodes an integer below `bound`. -/
def natBelow (bound : Nat) : Decoder σ Nat := fun s =>
  match Source.shape s with
  | .integer n => if 0 ≤ n ∧ n < bound then .ok n.toNat else .error .invalidValue
  | .unreadable => .error .notJson
  | _ => .error .invalidType

/-- Decodes a 64-bit word. -/
def word : Decoder σ UInt64 := fun s => return (← natBelow UInt64.size s).toUInt64

/-- Decodes any JSON value. -/
def json : Decoder σ Json := Source.toJson

/-- Decodes a JSON object. -/
def jsonObject : Decoder σ JsonObject := fun s =>
  match Source.shape s with
  | .object _ _ => do
    match ← Source.toJson s with
    | .object members => .ok members
    | _ => .error .invalidType
  | .unreadable => .error .notJson
  | _ => .error .invalidType

/-- Decodes null as nothing and everything else with `decode`. -/
def option (decode : Decoder σ α) : Decoder σ (Option α) := fun s =>
  match Source.shape s with
  | .null => .ok none
  | _ => return some (← decode s)

/-- Decodes an array item by item. -/
def list (decode : Decoder σ α) : Decoder σ (List α) := fun s =>
  match Source.shape s with
  | .array items closed => do
    let values ← items.mapM decode
    requireClosed closed
    return values
  | .unreadable => .error .notJson
  | _ => .error .invalidType

/-- Decodes a string and reads it as a value of the domain. -/
def parsed (parse : String → Except Failure α) : Decoder σ α := fun s => do
  match parse (← string s) with
  | .ok a => .ok a
  | .error failure => .error (.refused failure)

/-- Decodes the members of an object one by one: its name, its value, then `add`. -/
def members {κ : Type} (parse : String → Except Failure κ) (decode : Decoder σ α)
    (add : β → κ → α → Except Mismatch β) : β → List (String × σ) → Except Mismatch β
  | collected, [] => .ok collected
  | collected, (name, value) :: rest =>
    match parse name with
    | .error failure => .error (.refused failure)
    | .ok key => do
      let a ← decode value
      members parse decode add (← add collected key a) rest

/-- Decodes an object as a dictionary; of several values for one key the last is stored. -/
def dict {κ : Type} [Key κ] [DecidableEq κ] (parse : String → Except Failure κ)
    (decode : Decoder σ α) : Decoder σ (Dict κ α) := fun s =>
  match Source.shape s with
  | .object ms closed => do
    let d ← members parse decode (fun d key a => .ok (d.insert key a)) Dict.empty ms
    requireClosed closed
    return d
  | .unreadable => .error .notJson
  | _ => .error .invalidType

/-- Decodes an object as a dictionary; two values for one key are refused. -/
def uniqueDict {κ : Type} [Key κ] [DecidableEq κ] (what : String) (textOf : κ → String)
    (parse : String → Except Failure κ) (decode : Decoder σ α) : Decoder σ (Dict κ α) := fun s =>
  match Source.shape s with
  | .object ms closed => do
    let add (d : Dict κ α) (key : κ) (a : α) : Except Mismatch (Dict κ α) :=
      if d.contains key then .error (.duplicateKey what (textOf key)) else .ok (d.insert key a)
    let d ← members parse decode add Dict.empty ms
    requireClosed closed
    return d
  | .unreadable => .error .notJson
  | _ => .error .invalidType

end Decoder

end GuardedThings
