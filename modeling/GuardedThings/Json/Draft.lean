import GuardedThings.Json.Basic

/-!
# JSON as read

A `Draft` is the tree of a JSON text before it is known whether the text is
JSON: members stand in the order of the text, repeated names are kept, and the
place where the text breaks off is marked. Decoding a draft front to back
therefore meets a wrong value before a fault behind it, and a fault before a
wrong value behind it.

Some values can only be skipped: a number beyond the greatest finite one, a
string with half a surrogate pair, a container nested too deeply.
-/

set_option autoImplicit false

namespace GuardedThings

/-- A JSON text as far as it could be read. -/
inductive Draft where
  /-- No value; it may be skipped where no value is wanted. -/
  | unreadable (skippable : Bool)
  | null
  | bool (value : Bool)
  | integer (value : Int)
  | float (value : Binary64)
  | string (value : String)
  /-- The items that were read, and whether the closing bracket was. -/
  | array (items : List Draft) (closed : Bool)
  /-- The members that were read (a name may be unreadable), and whether the closing brace was. -/
  | object (members : List (Option String × Draft)) (closed : Bool)

namespace Draft

instance : Inhabited Draft := ⟨.null⟩

mutual

/-- Whether the value is complete, so that it can be passed over. -/
def isSkippable : Draft → Bool
  | .unreadable skippable => skippable
  | .array items closed => closed && areSkippable items
  | .object members closed => closed && membersSkippable members
  | _ => true

/-- Whether all items are complete. -/
def areSkippable : List Draft → Bool
  | [] => true
  | item :: rest => item.isSkippable && areSkippable rest

/-- Whether all members are complete. -/
def membersSkippable : List (Option String × Draft) → Bool
  | [] => true
  | (_, value) :: rest => value.isSkippable && membersSkippable rest

end

mutual

/-- The value that was read, if all of it was; of repeated members the last one counts. -/
def toJson? : Draft → Option Json
  | .unreadable _ => none
  | .null => some .null
  | .bool b => some (.bool b)
  | .integer n => some (.integer n)
  | .float x => some (.float x)
  | .string s => some (.string s)
  | .array items closed => if closed then (itemsToJson? items).map .array else none
  | .object members closed => if closed then (membersToJson? [] members).map .object else none

/-- The values of the items. -/
def itemsToJson? : List Draft → Option (List Json)
  | [] => some []
  | item :: rest => do
    let value ← item.toJson?
    return value :: (← itemsToJson? rest)

/-- Adds the members to those collected so far. -/
def membersToJson? (collected : JsonObject) :
    List (Option String × Draft) → Option JsonObject
  | [] => some collected
  | (none, _) :: _ => none
  | (some name, value) :: rest => do
    membersToJson? (Assoc.insert name (← value.toJson?) collected) rest

end

end Draft

end GuardedThings
