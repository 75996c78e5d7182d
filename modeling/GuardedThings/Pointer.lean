import GuardedThings.Failure
import GuardedThings.Json.Path
import GuardedThings.Text.Basic

/-!
# JSON pointers

A pointer is a list of non-empty segments. Its text puts a slash before each
segment and writes `~` as `~0` and `/` as `~1` inside one; the root is `/`.
Reading a text tolerates a missing leading slash and drops empty segments.
-/

set_option autoImplicit false

namespace GuardedThings

/-- A path of field names into a JSON document. -/
structure Pointer where
  /-- The field names, from the root down. -/
  segments : List String
  /-- No field name is empty. -/
  noEmpty : "" ∉ segments
deriving DecidableEq

namespace Pointer

instance : Key Pointer where
  names := segments
  names_injective {a b} h := by
    obtain ⟨_, _⟩ := a
    obtain ⟨_, _⟩ := b
    cases h
    rfl

/-- The pointer to the whole document. -/
def root : Pointer := ⟨[], by simp⟩

/-- The pointer of the non-empty segments among the given ones. -/
def ofSegments (segments : List String) : Pointer :=
  ⟨segments.filter (· ≠ ""), by simp⟩

/-- The text of a segment with its escapes undone; every `~` needs a `0` or a `1` behind it. -/
def unescape : List Char → Option (List Char)
  | [] => some []
  | '~' :: '0' :: rest => (unescape rest).map ('~' :: ·)
  | '~' :: '1' :: rest => (unescape rest).map ('/' :: ·)
  | '~' :: _ => none
  | c :: rest => (unescape rest).map (c :: ·)

/-- The text of a segment with `~` and `/` escaped. -/
def escape : List Char → List Char
  | [] => []
  | c :: rest =>
    if c = '~' then '~' :: '0' :: escape rest
    else if c = '/' then '~' :: '1' :: escape rest
    else c :: escape rest

/-- The pointer written by a text, unless an escape in it is malformed. -/
def ofChars? (cs : List Char) : Option Pointer := do
  let pieces := (Text.split '/' cs).filter (fun piece => !piece.isEmpty)
  return ofSegments ((← pieces.mapM unescape).map String.ofList)

/-- Reads a pointer. -/
def parse (raw : String) : Except Failure Pointer :=
  match ofChars? raw.toList with
  | some p => .ok p
  | none => .error (.pointerInvalid raw .badEscape)

/-- The characters of a pointer's text. -/
def chars (p : Pointer) : List Char :=
  if p.segments = [] then ['/']
  else p.segments.flatMap fun segment => '/' :: escape segment.toList

/-- The text of a pointer. -/
def text (p : Pointer) : String := String.ofList p.chars

/-- Whether the pointer addresses the whole document. -/
def isRoot (p : Pointer) : Bool := p.segments.isEmpty

/-- The number of segments. -/
def level (p : Pointer) : Nat := p.segments.length

/-- The pointer one field deeper; an empty name adds nothing. -/
def append (p : Pointer) (segment : String) : Pointer :=
  if h : segment = "" then p
  else ⟨p.segments ++ [segment], by simpa [p.noEmpty] using fun e => h e⟩

/-- The pointer `q` taken from where `p` points. -/
def join (p q : Pointer) : Pointer :=
  ⟨p.segments ++ q.segments, by simp [p.noEmpty, q.noEmpty]⟩

/-- The pointer without its last segment. -/
def parent? (p : Pointer) : Option Pointer :=
  if p.segments = [] then none
  else some ⟨p.segments.dropLast, fun h => p.noEmpty ((List.dropLast_sublist _).mem h)⟩

/-- The last segment. -/
def last? (p : Pointer) : Option String := p.segments.getLast?

/-- Whether `q` is an ancestor of `p` or `p` itself. -/
def startsWith (p q : Pointer) : Bool := q.segments.isPrefixOf p.segments

/-- The value a pointer addresses. -/
def get? (p : Pointer) (document : Json) : Option Json := document.getPath? p.segments

/-- The document with the addressed value set. -/
def set (p : Pointer) (document value : Json) : Json := document.setPath p.segments value

/-- The addressed value and the document without it. -/
def remove? (p : Pointer) (document : Json) : Option (Json × Json) :=
  document.removePath? p.segments

end Pointer

end GuardedThings
