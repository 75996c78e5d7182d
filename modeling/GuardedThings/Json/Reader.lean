import GuardedThings.Json.Draft

/-!
# Reading JSON text

`Draft.ofChars` reads one value from the front of a text; what cannot be read
is marked in the draft. The grammar is that of JSON: blanks are space, tab,
line feed and carriage return, numbers have no leading zeros or plus sign,
strings hold no unescaped control characters. Containers may be nested 127
deep.

Integers from `-2 ^ 63` to `2 ^ 64 - 1` are kept as integers; every other
number, and `-0`, is a floating-point number. Of its digits as many are kept
as fit 64 bits; further integer digits only raise the power of ten, further
decimals are ignored.
-/

set_option autoImplicit false

namespace GuardedThings.Draft

/-- The blanks of JSON. -/
def isSpace (c : Char) : Bool := c = ' ' || c = '\t' || c = '\n' || c = '\x0d'

/-- The text from its first non-blank character on. -/
def skipSpace (cs : List Char) : List Char := cs.dropWhile isSpace

/-- The value of a hexadecimal digit. -/
def hexValue? (c : Char) : Option Nat :=
  if '0' ≤ c ∧ c ≤ '9' then some (c.toNat - '0'.toNat)
  else if 'a' ≤ c ∧ c ≤ 'f' then some (c.toNat - 'a'.toNat + 10)
  else if 'A' ≤ c ∧ c ≤ 'F' then some (c.toNat - 'A'.toNat + 10)
  else none

/-- The number written by four hexadecimal digits. -/
def hexUnit? (a b c d : Char) : Option Nat := do
  return (((← hexValue? a) * 16 + (← hexValue? b)) * 16 + (← hexValue? c)) * 16 + (← hexValue? d)

/-- The character a one-letter escape stands for. -/
def simpleEscape? (c : Char) : Option Char :=
  if c = '"' ∨ c = '\\' ∨ c = '/' then some c
  else if c = 'b' then some '\x08'
  else if c = 'f' then some '\x0c'
  else if c = 'n' then some '\n'
  else if c = 'r' then some '\x0d'
  else if c = 't' then some '\t'
  else none

/-- Whether a 16-bit unit is the first half of a surrogate pair. -/
def isHighHalf (n : Nat) : Bool := 0xd800 ≤ n && n ≤ 0xdbff

/-- Whether a 16-bit unit is the second half of a surrogate pair. -/
def isLowHalf (n : Nat) : Bool := 0xdc00 ≤ n && n ≤ 0xdfff

/-- The second half of a surrogate pair, if the text starts with one. -/
def lowHalf? : List Char → Option (Nat × List Char)
  | '\\' :: 'u' :: a :: b :: c :: d :: rest => do
    let n ← hexUnit? a b c d
    if isLowHalf n then some (n, rest) else none
  | _ => none

/-- The character written by a 16-bit escape and what follows; none for half a pair. -/
def unitEscape (n : Nat) (rest : List Char) : Option Char × List Char :=
  if isLowHalf n then (none, rest)
  else if isHighHalf n then
    match lowHalf? rest with
    | some (low, rest') => (some (Char.ofNat (0x10000 + (n - 0xd800) * 0x400 + (low - 0xdc00))), rest')
    | none => (none, rest)
  else (some (Char.ofNat n), rest)

/-- Reads what follows a backslash. -/
def escape? : List Char → Option (Option Char × List Char)
  | [] => none
  | 'u' :: a :: b :: c :: d :: rest => (hexUnit? a b c d).map fun n => unitEscape n rest
  | c :: rest => (simpleEscape? c).map fun e => (some e, rest)

/-- Reading the second half of a surrogate pair consumes characters. -/
theorem length_lowHalf? {cs rest : List Char} {n : Nat} (h : lowHalf? cs = some (n, rest)) :
    rest.length < cs.length := by
  unfold lowHalf? at h
  split at h
  · simp only [Option.bind_eq_bind, Option.bind_eq_some_iff] at h
    obtain ⟨m, -, h⟩ := h
    split at h
    · simp only [Option.some.injEq, Prod.mk.injEq] at h
      obtain ⟨-, rfl⟩ := h
      simp only [List.length_cons]
      omega
    · simp at h
  · simp at h

/-- An escaped code unit leaves no more than the text behind it. -/
theorem length_unitEscape (n : Nat) (rest : List Char) :
    (unitEscape n rest).2.length ≤ rest.length := by
  unfold unitEscape
  split
  · simp
  · split
    · split
      · rename_i h
        have := length_lowHalf? h
        simp only
        omega
      · simp
    · simp

/-- Reading an escape consumes characters. -/
theorem length_escape? {cs rest : List Char} {e : Option Char} (h : escape? cs = some (e, rest)) :
    rest.length < cs.length := by
  unfold escape? at h
  split at h
  · simp at h
  · rename_i rest'
    simp only [Option.map_eq_some_iff] at h
    obtain ⟨n, -, h⟩ := h
    have := length_unitEscape n rest'
    rw [h] at this
    simp only [List.length_cons] at this ⊢
    omega
  · simp only [Option.map_eq_some_iff, Prod.mk.injEq] at h
    obtain ⟨_, -, -, rfl⟩ := h
    simp

/-- Reads a string after its opening quote: its text, if all of it is readable, and what follows
the closing quote. `kept` holds the characters read so far, last first. -/
def stringBody (kept : List Char) (readable : Bool) (cs : List Char) :
    Option (Option String × List Char) :=
  match cs with
  | [] => none
  | c :: rest =>
    if c = '"' then some (if readable then some (String.ofList kept.reverse) else none, rest)
    else if c = '\\' then
      match _h : escape? rest with
      | none => none
      | some (some e, rest') => stringBody (e :: kept) readable rest'
      | some (none, rest') => stringBody kept false rest'
    else if c.toNat < 0x20 then none
    else stringBody (c :: kept) readable rest
termination_by cs.length
decreasing_by
  all_goals simp only [List.length_cons]
  · have := length_escape? _h
    omega
  · have := length_escape? _h
    omega
  · omega

/-- A number before its value is computed. -/
structure Numeral where
  negative : Bool
  integerDigits : List Char
  /-- The digits after the point, if there is one. -/
  decimals : Option (List Char)
  /-- The exponent, if there is one. -/
  exponent : Option Int

/-- Splits the digits off the front of a text. -/
def digits (cs : List Char) : List Char × List Char :=
  (cs.takeWhile Char.isDigit, cs.dropWhile Char.isDigit)

/-- Appends decimal digits to a number. -/
def appendDigits (n : Nat) (cs : List Char) : Nat :=
  cs.foldl (fun n c => 10 * n + (c.toNat - '0'.toNat)) n

/-- Reads the decimals after a point; a point needs at least one. -/
def decimals? : List Char → Option (Option (List Char) × List Char)
  | '.' :: rest =>
    match digits rest with
    | ([], _) => none
    | (ds, rest') => some (some ds, rest')
  | cs => some (none, cs)

/-- Reads the digits of an exponent; it needs at least one. -/
def exponentDigits? (negative : Bool) (cs : List Char) : Option (Option Int × List Char) :=
  match digits cs with
  | ([], _) => none
  | (ds, rest) =>
    let n : Int := appendDigits 0 ds
    some (some (if negative then -n else n), rest)

/-- Reads an exponent, if there is one. -/
def exponent? : List Char → Option (Option Int × List Char)
  | c :: rest =>
    if c = 'e' ∨ c = 'E' then
      match rest with
      | '-' :: rest' => exponentDigits? true rest'
      | '+' :: rest' => exponentDigits? false rest'
      | _ => exponentDigits? false rest
    else some (none, c :: rest)
  | [] => some (none, [])

/-- Reads a number after its sign. -/
def unsigned? (negative : Bool) (cs : List Char) : Option (Numeral × List Char) :=
  match digits cs with
  | ([], _) => none
  | ('0' :: _ :: _, _) => none
  | (ds, rest) => do
    let (decimals, rest) ← decimals? rest
    let (exponent, rest) ← exponent? rest
    return (⟨negative, ds, decimals, exponent⟩, rest)

/-- Reads a number. -/
def numeral? : List Char → Option (Numeral × List Char)
  | '-' :: rest => unsigned? true rest
  | cs => unsigned? false cs

/-- Appends digits as long as the number stays below `2 ^ 64`; also gives the digits left over. -/
def absorb (n : Nat) : List Char → Nat × List Char
  | [] => (n, [])
  | c :: rest =>
    let n' := 10 * n + (c.toNat - '0'.toNat)
    if n' < UInt64.size then absorb n' rest else (n, c :: rest)

/-- The floating-point value of a number, unless it is too large. -/
def Numeral.toFloat? (x : Numeral) : Option Binary64 :=
  let (upper, dropped) := absorb 0 x.integerDigits
  let fraction := x.decimals.getD []
  let (significand, ignored) := absorb upper fraction
  let shift : Int := dropped.length - (fraction.length - ignored.length : Nat)
  Binary64.ofDecimal x.negative significand (shift + x.exponent.getD 0)

/-- The value of a number. -/
def ofNumeral (x : Numeral) : Draft :=
  let n := appendDigits 0 x.integerDigits
  let whole := x.decimals.isNone && x.exponent.isNone
  if whole && !x.negative && n < UInt64.size then .integer n
  else if whole && x.negative && 0 < n && n ≤ UInt64.size / 2 then .integer (-n)
  else match x.toFloat? with
    | some value => .float value
    | none => .unreadable true

/-- The marker of a fault in the text; nothing behind it is looked at. -/
def fault : Draft × List Char := (.unreadable false, [])

/-- Reads one of the three words of JSON. -/
def ofWord (cs : List Char) : Draft × List Char :=
  match cs with
  | 'n' :: 'u' :: 'l' :: 'l' :: rest => (.null, rest)
  | 't' :: 'r' :: 'u' :: 'e' :: rest => (.bool true, rest)
  | 'f' :: 'a' :: 'l' :: 's' :: 'e' :: rest => (.bool false, rest)
  | _ => fault

/-- A container at the innermost level allowed can only be skipped. -/
def limited (depth : Nat) (container : Draft) : Draft :=
  if depth = 0 then .unreadable container.isSkippable else container

mutual

/-- Reads a value; `depth` further levels may be opened. -/
def ofCharsAt (fuel depth : Nat) (cs : List Char) : Draft × List Char :=
  match fuel with
  | 0 => fault
  | fuel + 1 =>
    match skipSpace cs with
    | [] => fault
    | c :: rest =>
      if c = '"' then
        match stringBody [] true rest with
        | some (some s, rest') => (.string s, rest')
        | some (none, rest') => (.unreadable true, rest')
        | none => fault
      else if c = '[' then
        let (items, closed, rest') :=
          match skipSpace rest with
          | ']' :: rest' => ([], true, rest')
          | _ => itemsAt fuel (depth - 1) [] rest
        (limited depth (.array items closed), rest')
      else if c = '\x7b' then
        let (members, closed, rest') :=
          match skipSpace rest with
          | '\x7d' :: rest' => ([], true, rest')
          | _ => membersAt fuel (depth - 1) [] rest
        (limited depth (.object members closed), rest')
      else if c = '-' ∨ c.isDigit then
        match numeral? (c :: rest) with
        | some (x, rest') => (ofNumeral x, rest')
        | none => fault
      else ofWord (c :: rest)

/-- Reads items up to the closing bracket; `done` holds the items read so far, last first. -/
def itemsAt (fuel depth : Nat) (done : List Draft) (cs : List Char) :
    List Draft × Bool × List Char :=
  match fuel with
  | 0 => (done.reverse, false, [])
  | fuel + 1 =>
    let (item, rest) := ofCharsAt fuel depth cs
    let done := item :: done
    match skipSpace rest with
    | ']' :: rest' => (done.reverse, true, rest')
    | ',' :: rest' =>
      match skipSpace rest' with
      | ']' :: _ => (done.reverse, false, [])
      | _ => itemsAt fuel depth done rest'
    | _ => (done.reverse, false, [])

/-- Reads members up to the closing brace; `done` holds the members read so far, last first. A
name that is no string is a fault of the text. -/
def membersAt (fuel depth : Nat) (done : List (Option String × Draft)) (cs : List Char) :
    List (Option String × Draft) × Bool × List Char :=
  match fuel with
  | 0 => (done.reverse, false, [])
  | fuel + 1 =>
    match skipSpace cs with
    | '"' :: rest =>
      match stringBody [] true rest with
      | none => (((none, .unreadable false) :: done).reverse, false, [])
      | some (name, rest) =>
        match skipSpace rest with
        | ':' :: rest =>
          let (value, rest) := ofCharsAt fuel depth rest
          let done := (name, value) :: done
          match skipSpace rest with
          | '\x7d' :: rest' => (done.reverse, true, rest')
          | ',' :: rest' => membersAt fuel depth done rest'
          | _ => (done.reverse, false, [])
        | _ => (((name, .unreadable false) :: done).reverse, false, [])
    | _ => (done.reverse, false, [])

end

/-- Reads one value from the front of a text; every step of the reader uses up a character. -/
def ofChars (cs : List Char) : Draft × List Char := ofCharsAt (2 * cs.length + 2) 127 cs

/-- Reads a text that should hold one value, and whether nothing but blanks follows it. -/
def ofText (text : String) : Draft × Bool :=
  let (draft, rest) := ofChars text.toList
  (draft, (skipSpace rest).isEmpty)

end GuardedThings.Draft

namespace GuardedThings

/-- The value written by a text, if it is JSON. -/
def Json.ofText? (text : String) : Option Json :=
  match Draft.ofText text with
  | (draft, true) => draft.toJson?
  | (_, false) => none

end GuardedThings
