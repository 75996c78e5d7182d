import GuardedThings.Json.Printer
import GuardedThings.Proofs.Json.Tidy
import Mathlib.Data.Nat.Digits.Defs

/-!
# Sizes of JSON values

The text of a value does not depend on what follows it (`Json.write_append`), so
sizes add up. An object takes one byte, and for each of its members the sizes of
the name and of the value and two bytes more (`Json.byteSize_object`); only an
object without members, which takes two bytes, falls out of the rule.

So an object does not shrink when one of its values grows, and does not grow
when a member is dropped. For edits along paths this means: the size of the
edited value grows with the value that is written (`Json.byteSize_setPath_mono`),
and a removal does not make a tidy value larger (`Json.byteSize_of_removePath?`).
-/

set_option autoImplicit false

namespace GuardedThings

/-! ## Texts -/

namespace Text

/-- The UTF-8 bytes that characters take. -/
def byteSize (cs : List Char) : Nat := (cs.map Char.utf8Size).sum

/-- The bytes of two texts add up. -/
theorem byteSize_append (cs ds : List Char) : byteSize (cs ++ ds) = byteSize cs + byteSize ds := by
  unfold byteSize
  rw [List.map_append, List.sum_append]

/-- The bytes of a text are those of its first character and of the rest. -/
theorem byteSize_cons (c : Char) (cs : List Char) :
    byteSize (c :: cs) = c.utf8Size + byteSize cs := by
  unfold byteSize
  rw [List.map_cons, List.sum_cons]

/-- The size of a string is the sum over its characters. -/
theorem utf8ByteSize_ofList (cs : List Char) : (String.ofList cs).utf8ByteSize = byteSize cs := by
  have hsize : cs.utf8Encode.size = byteSize cs := by
    induction cs with
    | nil => rfl
    | cons c cs ih =>
      rw [List.utf8Encode_cons, ByteArray.size_append, ih, byteSize_cons, List.utf8Encode_singleton,
        List.size_toByteArray, String.length_utf8EncodeChar]
  show (String.ofList cs).toByteArray.size = _
  rw [String.toByteArray_ofList, hsize]

/-- A number is written with one byte for each digit. -/
theorem byteSize_toDigits (n : Nat) : byteSize (Nat.toDigits 10 n) = (Nat.toDigits 10 n).length := by
  have hdigits : ∀ c ∈ Nat.toDigits 10 n, c.isDigit = true := fun c hc =>
    Nat.isDigit_of_mem_toDigits (by decide) (by decide) hc
  generalize Nat.toDigits 10 n = cs at hdigits
  induction cs with
  | nil => rfl
  | cons c cs ih =>
    have hc : c.utf8Size = 1 := by
      have hdigit := hdigits c List.mem_cons_self
      simp only [Char.isDigit, Bool.and_eq_true, decide_eq_true_eq] at hdigit
      rw [Char.utf8Size_eq_one_iff]
      exact UInt32.le_trans hdigit.2 (by decide)
    rw [byteSize_cons, hc, ih fun d hd => hdigits d (List.mem_cons_of_mem _ hd), List.length_cons,
      Nat.add_comm]

end Text

namespace Json

/-- A string is written in front of what follows. -/
theorem writeString_append (s : String) (rest : List Char) :
    writeString s rest = writeString s [] ++ rest := by
  have hfold : ∀ (cs tail : List Char),
      cs.foldr (fun c text => escapeChar c ++ text) (tail ++ rest) =
        cs.foldr (fun c text => escapeChar c ++ text) tail ++ rest := by
    intro cs tail
    induction cs with
    | nil => rfl
    | cons c cs ih => rw [List.foldr_cons, List.foldr_cons, ih, List.append_assoc]
  unfold writeString
  rw [List.cons_append, ← hfold]
  rfl

/-- A comma stands between two items. -/
theorem writeItems_cons_cons (item next : Json) (more : List Json) (rest : List Char) :
    writeItems (item :: next :: more) rest = item.write (',' :: writeItems (next :: more) rest) := by
  rw [writeItems]
  exact List.cons_ne_nil _ _

/-- A comma stands between two members, a colon inside each. -/
theorem writeMembers_cons_cons (name : String) (value : Json) (next : String × Json)
    (more : JsonObject) (rest : List Char) :
    writeMembers ((name, value) :: next :: more) rest =
      writeString name (':' :: value.write (',' :: writeMembers (next :: more) rest)) := by
  rw [writeMembers]
  exact List.cons_ne_nil _ _

mutual

/-- The text of a value does not depend on what follows. -/
theorem write_append : (v : Json) → (rest : List Char) → v.write rest = v.write [] ++ rest
  | .null, _ | .bool true, _ | .bool false, _ => by simp [write]
  | .integer _, _ | .float _, _ => by simp [write]
  | .string s, rest => by
    rw [write, write, writeString_append]
  | .array items, rest => by
    rw [write, write, writeItems_append items (']' :: rest), writeItems_append items [']']]
    simp
  | .object members, rest => by
    rw [write, write, writeMembers_append members ('\x7d' :: rest),
      writeMembers_append members ['\x7d']]
    simp

/-- The items of an array are written in front of what follows. -/
theorem writeItems_append :
    (items : List Json) → (rest : List Char) → writeItems items rest = writeItems items [] ++ rest
  | [], _ => rfl
  | [item], rest => by rw [writeItems, writeItems, write_append item rest]
  | item :: next :: more, rest => by
    rw [writeItems_cons_cons, writeItems_cons_cons, writeItems_append (next :: more) rest,
      write_append item (',' :: (_ ++ rest)), write_append item (',' :: writeItems _ [])]
    simp

/-- The members of an object are written in front of what follows. -/
theorem writeMembers_append :
    (members : JsonObject) → (rest : List Char) →
      writeMembers members rest = writeMembers members [] ++ rest
  | [], _ => rfl
  | [(name, value)], rest => by
    rw [writeMembers, writeMembers, writeString_append name (':' :: value.write rest),
      writeString_append name (':' :: value.write []), write_append value rest]
    simp
  | (name, value) :: next :: more, rest => by
    rw [writeMembers_cons_cons, writeMembers_cons_cons, writeMembers_append (next :: more) rest,
      write_append value (',' :: (_ ++ rest)), write_append value (',' :: writeMembers _ []),
      writeString_append name (':' :: (_ ++ ',' :: (_ ++ rest))),
      writeString_append name (':' :: (_ ++ ',' :: writeMembers _ []))]
    simp

end

/-! ## Sizes of values -/

/-- The size of a value is the number of bytes of its text. -/
theorem byteSize_eq (v : Json) : v.byteSize = Text.byteSize (v.write []) :=
  Text.utf8ByteSize_ofList _

/-- The bytes that the name of a member takes. -/
def nameSize (name : String) : Nat := Text.byteSize (writeString name [])

/-- The bytes that members take, with a colon in each and a comma after each. -/
def membersSize (members : JsonObject) : Nat :=
  (members.map fun (name, value) => nameSize name + value.byteSize + 2).sum

/-- A member takes its name, its value, a colon and a comma. -/
theorem membersSize_cons (name : String) (value : Json) (members : JsonObject) :
    membersSize ((name, value) :: members) =
      nameSize name + value.byteSize + 2 + membersSize members := by
  unfold membersSize
  rw [List.map_cons, List.sum_cons]

/-- The sizes of members add up. -/
theorem membersSize_append (front back : JsonObject) :
    membersSize (front ++ back) = membersSize front + membersSize back := by
  unfold membersSize
  rw [List.map_append, List.sum_append]

/-- The bytes that a field of a record takes: none if it is absent. -/
def fieldSize (name : String) : Option Json → Nat
  | none => 0
  | some value => nameSize name + value.byteSize + 2

/-- A field adds its size if it is there, and otherwise nothing. -/
theorem membersSize_present_cons (name : String) (value : Option Json)
    (rest : List (String × Option Json)) :
    membersSize (present ((name, value) :: rest)) =
      fieldSize name value + membersSize (present rest) := by
  rw [present_cons]
  cases value with
  | none => exact (Nat.zero_add _).symm
  | some value => exact membersSize_cons name value _

/-- There is one comma less than there are members. -/
theorem byteSize_writeMembers (member : String × Json) (members : JsonObject) :
    Text.byteSize (writeMembers (member :: members) []) + 1 = membersSize (member :: members) := by
  induction members generalizing member with
  | nil =>
    obtain ⟨name, value⟩ := member
    have htext : writeMembers [(name, value)] [] = writeString name [] ++ ':' :: value.write [] := by
      rw [writeMembers, writeString_append]
    have hcolon : Char.utf8Size ':' = 1 := rfl
    have hempty : membersSize [] = 0 := rfl
    rw [htext, membersSize_cons, Text.byteSize_append, Text.byteSize_cons, ← byteSize_eq, nameSize,
      hcolon, hempty]
    omega
  | cons next members ih =>
    obtain ⟨name, value⟩ := member
    have htext : writeMembers ((name, value) :: next :: members) [] =
        writeString name [] ++
          ':' :: (value.write [] ++ ',' :: writeMembers (next :: members) []) := by
      rw [writeMembers_cons_cons, write_append value (',' :: _), writeString_append]
    have hcolon : Char.utf8Size ':' = 1 := rfl
    have hcomma : Char.utf8Size ',' = 1 := rfl
    have hrest := ih next
    rw [htext, membersSize_cons, Text.byteSize_append, Text.byteSize_cons, Text.byteSize_append,
      Text.byteSize_cons, ← byteSize_eq, nameSize, hcolon, hcomma]
    omega

/-- An object takes a byte more than its members, and at least two. -/
theorem byteSize_object (members : JsonObject) :
    (object members).byteSize = 1 + max 1 (membersSize members) := by
  have htext : (object members).write [] = '\x7b' :: (writeMembers members [] ++ ['\x7d']) := by
    rw [write, writeMembers_append]
  have hopen : Char.utf8Size '\x7b' = 1 := rfl
  have hclose : Text.byteSize ['\x7d'] = 1 := rfl
  rw [byteSize_eq, htext, Text.byteSize_cons, Text.byteSize_append, hopen, hclose]
  cases members with
  | nil => rfl
  | cons member members =>
    rw [byteSize_writeMembers, Nat.max_eq_right]
    rw [← byteSize_writeMembers]
    exact Nat.le_add_left 1 _

/-- Objects compare in size as their members do. -/
theorem byteSize_object_mono {members members' : JsonObject}
    (h : membersSize members ≤ membersSize members') :
    (object members).byteSize ≤ (object members').byteSize := by
  rw [byteSize_object, byteSize_object]
  omega

/-- A word takes from one to twenty digits. -/
theorem byteSize_ofWord (n : UInt64) : 1 ≤ (ofWord n).byteSize ∧ (ofWord n).byteSize ≤ 20 := by
  have htext : (ofWord n).write [] = Nat.toDigits 10 n.toNat := by
    show integerText (n.toNat : Int) ++ [] = _
    unfold integerText
    rw [if_neg (Int.not_lt.mpr (Int.natCast_nonneg _)), List.append_nil, Int.natAbs_natCast]
  have hword : n.toNat < 10 ^ 20 := Nat.lt_trans n.toNat_lt (by decide)
  rw [byteSize_eq, htext, Text.byteSize_toDigits]
  exact ⟨Nat.length_toDigits_pos, Nat.toDigits_length 10 n.toNat 20 (by decide) hword⟩

/-! ## Edits -/

/-- Erasing a member makes the members no larger. -/
theorem membersSize_erase (name : String) (members : JsonObject) :
    membersSize (Assoc.erase name members) ≤ membersSize members := by
  induction members with
  | nil => exact Nat.le_refl _
  | cons member members ih =>
    obtain ⟨name', value⟩ := member
    unfold Assoc.erase at ih ⊢
    rw [List.filter_cons, membersSize_cons]
    split
    · rw [membersSize_cons]
      omega
    · omega

/-- Inserted values compare in size as the members they make. -/
theorem membersSize_insert_mono {new new' : Json} (h : new.byteSize ≤ new'.byteSize) (name : String)
    (members : JsonObject) :
    membersSize (Assoc.insert name new members) ≤ membersSize (Assoc.insert name new' members) := by
  induction members with
  | nil =>
    simp only [Assoc.insert, membersSize_cons]
    omega
  | cons member members ih =>
    obtain ⟨name', value⟩ := member
    by_cases hlt : Key.Before name name'
    · simp only [Assoc.insert, hlt, if_true, membersSize_cons]
      omega
    · by_cases heq : name' = name
      · subst heq
        simp only [Assoc.insert, hlt, if_false, if_true, membersSize_cons]
        omega
      · simp only [Assoc.insert, hlt, heq, if_false, membersSize_cons]
        omega

/-- The larger the value that is written, the larger the result. -/
theorem byteSize_setPath_mono {new new' : Json} (h : new.byteSize ≤ new'.byteSize)
    (path : List String) (v : Json) :
    (v.setPath path new).byteSize ≤ (v.setPath path new').byteSize := by
  induction path generalizing v with
  | nil => exact h
  | cons name path ih =>
    rw [setPath_cons, setPath_cons]
    exact byteSize_object_mono (membersSize_insert_mono (ih _) name _)

/-- A removal does not make a tidy value larger. -/
theorem byteSize_of_removePath? {v removed rest : Json} {path : List String} (htidy : v.Tidy)
    (h : v.removePath? path = some (removed, rest)) : rest.byteSize ≤ v.byteSize := by
  obtain ⟨front, name, rfl⟩ : ∃ front name, path = front ++ [name] := by
    refine ⟨path.dropLast, path.getLast ?_, (List.dropLast_concat_getLast _).symm⟩
    rintro rfl
    cases h
  rw [removePath?_append v front (List.cons_ne_nil _ _)] at h
  obtain ⟨inside, hinside, h⟩ := Option.bind_eq_some_iff.mp h
  obtain ⟨⟨removed', left⟩, hleft, heq⟩ := Option.map_eq_some_iff.mp h
  cases heq
  rw [removePath?_singleton] at hleft
  obtain ⟨members, hmembers, hleft⟩ := Option.bind_eq_some_iff.mp hleft
  obtain ⟨_, -, heq⟩ := Option.map_eq_some_iff.mp hleft
  cases heq
  have hobject : inside = .object members := by
    cases inside with
    | object members' =>
      cases hmembers
      rfl
    | null | bool _ | integer _ | float _ | string _ | array _ => cases hmembers
  have hsmaller : (object (Assoc.erase name members)).byteSize ≤ inside.byteSize := by
    rw [hobject]
    exact byteSize_object_mono (membersSize_erase name members)
  calc (v.setPath front (.object (Assoc.erase name members))).byteSize
      ≤ (v.setPath front inside).byteSize := byteSize_setPath_mono hsmaller front v
    _ = v.byteSize := by rw [htidy.setPath_self hinside]

end Json

end GuardedThings
