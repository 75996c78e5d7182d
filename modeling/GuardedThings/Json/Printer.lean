import GuardedThings.Json.Basic
import GuardedThings.Binary64.Shortest

/-!
# Compact JSON text

Members in the order of the list, no blanks, and only the escapes JSON asks
for: a quote, a backslash and the characters below U+0020. Sizes are counted in
the UTF-8 bytes of this text, and content tags are hashes of it.

`write v rest` is the text of `v` followed by `rest`.
-/

set_option autoImplicit false

namespace GuardedThings.Json

/-- The lower-case hexadecimal digit of a number below sixteen. -/
def hexDigit (n : Nat) : Char := Nat.digitChar (n % 16)

/-- The decimal digits of an integer, after a sign if it is negative. -/
def integerText (n : Int) : List Char :=
  if n < 0 then '-' :: Nat.toDigits 10 n.natAbs else Nat.toDigits 10 n.natAbs

/-- The escaped form of a character inside a string. -/
def escapeChar (c : Char) : List Char :=
  if c = '"' then ['\\', '"']
  else if c = '\\' then ['\\', '\\']
  else if c = '\x08' then ['\\', 'b']
  else if c = '\x0c' then ['\\', 'f']
  else if c = '\n' then ['\\', 'n']
  else if c = '\x0d' then ['\\', 'r']
  else if c = '\t' then ['\\', 't']
  else if c.toNat < 0x20 then
    ['\\', 'u', '0', '0', hexDigit (c.toNat / 16), hexDigit c.toNat]
  else [c]

/-- Writes a string between quotes. -/
def writeString (s : String) (rest : List Char) : List Char :=
  '"' :: s.toList.foldr (fun c text => escapeChar c ++ text) ('"' :: rest)

mutual

/-- Writes a value. -/
def write : Json → List Char → List Char
  | .null, rest => 'n' :: 'u' :: 'l' :: 'l' :: rest
  | .bool true, rest => 't' :: 'r' :: 'u' :: 'e' :: rest
  | .bool false, rest => 'f' :: 'a' :: 'l' :: 's' :: 'e' :: rest
  | .integer n, rest => integerText n ++ rest
  | .float x, rest => x.text.toList ++ rest
  | .string s, rest => writeString s rest
  | .array items, rest => '[' :: writeItems items (']' :: rest)
  | .object members, rest => '\x7b' :: writeMembers members ('\x7d' :: rest)

/-- Writes the items of an array with commas between them. -/
def writeItems : List Json → List Char → List Char
  | [], rest => rest
  | [item], rest => write item rest
  | item :: more, rest => write item (',' :: writeItems more rest)

/-- Writes the members of an object with commas between them. -/
def writeMembers : List (String × Json) → List Char → List Char
  | [], rest => rest
  | [(name, value)], rest => writeString name (':' :: write value rest)
  | (name, value) :: more, rest =>
    writeString name (':' :: write value (',' :: writeMembers more rest))

end

/-- The compact text of a value. -/
def compact (v : Json) : String := String.ofList (v.write [])

/-- The size of a value: the UTF-8 bytes of its compact text. -/
def byteSize (v : Json) : Nat := v.compact.utf8ByteSize

end GuardedThings.Json
