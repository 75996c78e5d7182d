import GuardedThings.Json.Basic

/-!
# Agreement of JSON values

Two values agree when they hold the same numbers, texts and structure. `0.0`
and `-0.0` are one number, so they agree, although they are written
differently. `1` and `1.0` are values of different kinds and do not agree.
-/

set_option autoImplicit false

namespace GuardedThings.Json

mutual

/-- The value with the signs of all zeros dropped. -/
def withoutZeroSigns : Json → Json
  | .null => .null
  | .bool b => .bool b
  | .integer n => .integer n
  | .float x => .float x.withoutZeroSign
  | .string s => .string s
  | .array items => .array (itemsWithoutZeroSigns items)
  | .object members => .object (membersWithoutZeroSigns members)

/-- The items with the signs of all zeros dropped. -/
def itemsWithoutZeroSigns : List Json → List Json
  | [] => []
  | item :: rest => item.withoutZeroSigns :: itemsWithoutZeroSigns rest

/-- The members with the signs of all zeros dropped. -/
def membersWithoutZeroSigns : List (String × Json) → List (String × Json)
  | [] => []
  | (name, value) :: rest => (name, value.withoutZeroSigns) :: membersWithoutZeroSigns rest

end

/-- Whether two values differ at most in the signs of zeros. -/
def agrees (a b : Json) : Bool := a.withoutZeroSigns = b.withoutZeroSigns

end GuardedThings.Json
