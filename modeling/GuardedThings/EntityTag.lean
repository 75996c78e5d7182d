import GuardedThings.Digest.Sha256
import GuardedThings.Json.Printer
import GuardedThings.Wire.Basic

/-!
# Entity tags and matchers

A tag names a version of an entity: a whole entity by its revision, a part of
one by a hash of its content. Tags are written between quotes, weak ones after
`W/`; reading tolerates blanks around a tag and missing quotes. A list of
matchers, separated by commas, is the value of a conditional header.
-/

set_option autoImplicit false

namespace GuardedThings

namespace EntityTag

/-- Whether a text can stand between the quotes of a tag. -/
def isValue (value : String) : Bool := value ≠ "" && !value.toList.contains '"'

end EntityTag

/-- The name of a version of an entity. -/
structure EntityTag where
  weak : Bool
  value : String
  wellFormed : EntityTag.isValue value = true
deriving DecidableEq

namespace EntityTag

/-- A strong tag whose value is the given characters, none of them a quote. -/
def strong (c : Char) (rest : List Char) (h : '"' ∉ c :: rest) : EntityTag :=
  ⟨false, String.ofList (c :: rest), by
    have hne : String.ofList (c :: rest) ≠ "" := fun e => by
      have := congrArg String.toList e
      simp at this
    simp only [isValue, String.toList_ofList, Bool.and_eq_true, Bool.not_eq_true',
      decide_eq_true_eq, ne_eq]
    exact ⟨hne, by simpa using h⟩⟩

/-- The tag of a whole entity at a revision. -/
def ofRevision (r : Revision) : EntityTag :=
  strong 'r' ('e' :: 'v' :: ':' :: Nat.toDigits 10 r.number.toNat) (by
    intro h
    simp only [List.mem_cons] at h
    rcases h with h | h | h | h | h
    · exact absurd h (by decide)
    · exact absurd h (by decide)
    · exact absurd h (by decide)
    · exact absurd h (by decide)
    · exact absurd (Nat.isDigit_of_mem_toDigits (by decide) (by decide) h) (by decide))

/-- Two hexadecimal digits of a byte. -/
def hexByte (b : UInt8) : List Char := [Json.hexDigit (b.toNat / 16), Json.hexDigit b.toNat]

/-- A hexadecimal digit never ends the opaque text of a tag. -/
theorem hexDigit_ne_quote (n : Nat) : Json.hexDigit n ≠ '"' := by
  have : ∀ m : Fin 16, Nat.digitChar m.val ≠ '"' := by decide
  exact this ⟨n % 16, Nat.mod_lt _ (by decide)⟩

/-- The first eight bytes of the digest of a value's compact text, in hexadecimal. -/
def contentHash (v : Json) : List Char :=
  (Sha256.firstBytes (Sha256.digest v.compact.toUTF8.data)).flatMap hexByte

/-- The tag of a part of an entity with the given content. -/
def ofContent (v : Json) : EntityTag :=
  strong 'h' ('a' :: 's' :: 'h' :: ':' :: contentHash v) (by
    intro h
    simp only [List.mem_cons, contentHash, List.mem_flatMap, hexByte, List.not_mem_nil,
      or_false] at h
    rcases h with h | h | h | h | h | ⟨b, -, h | h⟩
    · exact absurd h (by decide)
    · exact absurd h (by decide)
    · exact absurd h (by decide)
    · exact absurd h (by decide)
    · exact absurd h (by decide)
    · exact hexDigit_ne_quote _ h.symm
    · exact hexDigit_ne_quote _ h.symm)

/-- The text between two quotes, or the whole text if it is not quoted. -/
def unquote : List Char → List Char
  | '"' :: rest => if rest.getLast? = some '"' then rest.dropLast else '"' :: rest
  | cs => cs

/-- Takes the mark of a weak tag off. -/
def splitWeak : List Char → Bool × List Char
  | 'W' :: '/' :: rest => (true, rest)
  | cs => (false, cs)

/-- The tag written by a text. -/
def ofChars? (cs : List Char) : Option EntityTag :=
  let (weak, rest) := splitWeak (Text.trim cs)
  let value := String.ofList (unquote rest)
  if h : isValue value = true then some ⟨weak, value, h⟩ else none

/-- Reads a tag. -/
def parse (raw : String) : Except Failure EntityTag :=
  match ofChars? raw.toList with
  | some tag => .ok tag
  | none => .error (.headerInvalid "etag" raw)

/-- The characters of a tag's text. -/
def chars (tag : EntityTag) : List Char :=
  let quoted := '"' :: tag.value.toList ++ ['"']
  if tag.weak then 'W' :: '/' :: quoted else quoted

/-- The text of a tag. -/
def text (tag : EntityTag) : String := String.ofList tag.chars

/-- Strong comparison: neither tag is weak, and their values are equal. -/
def strongMatches (a b : EntityTag) : Bool := !a.weak && !b.weak && a.value = b.value

/-- Weak comparison: the values are equal. -/
def weakMatches (a b : EntityTag) : Bool := a.value = b.value

instance : Wire EntityTag := ⟨fun tag => .string tag.text, Decoder.parsed EntityTag.parse⟩

end EntityTag

/-- One element of a conditional header. -/
inductive TagMatcher where
  /-- Matches every existing entity. -/
  | any
  | tag (tag : EntityTag)
deriving DecidableEq

namespace TagMatcher

/-- The characters of a matcher's text. -/
def chars : TagMatcher → List Char
  | any => ['*']
  | tag t => t.chars

/-- Whether the matcher can stand in a comma-separated list. -/
def isListable : TagMatcher → Bool
  | any => true
  | tag t => !t.value.toList.contains ','

/-- Reads one element of a list that has no blanks around it; it holds no comma. -/
def ofChars? (cs : List Char) : Option TagMatcher :=
  if cs = ['*'] then some any else (EntityTag.ofChars? cs).map tag

end TagMatcher

/-- The value of a conditional header. -/
structure TagMatchers where
  /-- The elements; there is at least one. -/
  toList : List TagMatcher
  nonempty : toList ≠ []
  listable : toList.all TagMatcher.isListable = true
deriving DecidableEq

namespace TagMatchers

/-- Reads the elements of a list in order; the first that is no tag is reported. -/
def elements : List (List Char) → Except Failure (List TagMatcher)
  | [] => .ok []
  | piece :: rest =>
    match TagMatcher.ofChars? piece with
    | some matcher => return matcher :: (← elements rest)
    | none => .error (.headerInvalid "etag" (String.ofList piece))

/-- Reads the value of a conditional header. -/
def parse (raw : String) : Except Failure TagMatchers := do
  let pieces := ((Text.split ',' raw.toList).map Text.trim).filter fun piece => !piece.isEmpty
  let matchers ← elements pieces
  if h : matchers ≠ [] ∧ matchers.all TagMatcher.isListable = true then
    return ⟨matchers, h.1, h.2⟩
  else .error (.headerInvalid "if-match" raw)

/-- The text of a conditional header. -/
def text (ms : TagMatchers) : String :=
  String.ofList (Text.join [','] (ms.toList.map TagMatcher.chars))

/-- Whether the entity exists and some element matches its tag strongly. -/
def matchStrongly (ms : TagMatchers) (current : Option EntityTag) : Bool :=
  match current with
  | none => false
  | some tag => ms.toList.any fun
    | .any => true
    | .tag t => t.strongMatches tag

/-- Whether the entity exists and some element matches its tag weakly. -/
def matchWeakly (ms : TagMatchers) (current : Option EntityTag) : Bool :=
  match current with
  | none => false
  | some tag => ms.toList.any fun
    | .any => true
    | .tag t => t.weakMatches tag

instance : Wire TagMatchers := ⟨fun ms => .string ms.text, Decoder.parsed TagMatchers.parse⟩

end TagMatchers

end GuardedThings
