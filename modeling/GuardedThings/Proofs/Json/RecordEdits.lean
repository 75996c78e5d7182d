import GuardedThings.Proofs.Json.PathEdits
import GuardedThings.Proofs.Wire.Dictionaries

/-!
# Edits of records and dictionaries

A record is written as an object with one member for each field that is present,
a dictionary as an object with one member for each key. To change a field or an
entry is to write or to remove one member of that object.

Two documents of a record that are to agree but for some of its fields are
compared without these members (`Json.without`).
-/

set_option autoImplicit false

namespace GuardedThings

/-! ## Records -/

namespace Json

variable (front back : List (String × Option Json)) {name : String}
  (ascending : (front.map Prod.fst ++ name :: back.map Prod.fst).Pairwise Key.Before)

include ascending

/-- To write a field is to set the member of its name. -/
theorem setPath_ofFields (before : Option Json) (value : Json) :
    ofFields (front ++ (name, some value) :: back) =
      (ofFields (front ++ (name, before) :: back)).setPath [name] value :=
  congrArg object (present_write front back ascending before value)

/-- To leave out a field is to remove the member of its name. -/
theorem removePath?_ofFields (value : Json) :
    (ofFields (front ++ (name, some value) :: back)).removePath? [name] =
      some (value, ofFields (front ++ (name, none) :: back)) := by
  have hget : Assoc.get? name (present (front ++ (name, some value) :: back)) = some value := by
    rw [get?_present_append_cons front back ascending _ none, if_pos rfl]
  rw [removePath?_singleton]
  show (Assoc.get? name (present (front ++ (name, some value) :: back))).map _ = _
  rw [hget, ofFields_eq (front ++ (name, none) :: back),
    present_leaveOut front back ascending (some value)]
  rfl

end Json

/-! ## Dictionaries -/

namespace Dict

variable {κ α : Type} [Key κ] [DecidableEq κ] {textOf : κ → String} {encode : α → Json}
  (hinj : ∀ {k l}, textOf k = textOf l → k = l) (d : Dict κ α) (k : κ)

include hinj

/-- An insertion into a dictionary sets a member of its document. -/
theorem toJson_insert (a : α) :
    (d.insert k a).toJson textOf encode = (d.toJson textOf encode).setPath [textOf k] (encode a) :=
  congrArg Json.object (jsonMembers_insert hinj d k a)

/-- An erasure from a dictionary removes a member of its document. -/
theorem removePath?_toJson {a : α} (h : d.get? k = some a) :
    (d.toJson textOf encode).removePath? [textOf k] =
      some (encode a, (d.erase k).toJson textOf encode) := by
  have hmember : Assoc.get? (textOf k) (d.jsonMembers textOf encode) = some (encode a) := by
    rw [get?_jsonMembers hinj, h]
    rfl
  rw [Json.removePath?_singleton, (d.erase k).toJson_eq, jsonMembers_erase hinj]
  show (Assoc.get? (textOf k) (d.jsonMembers textOf encode)).map _ = _
  rw [hmember]
  rfl

end Dict

/-! ## Documents without some members -/

/-- Named values without those of the given names. -/
def Assoc.without {α : Type} (names : List String) (entries : List (String × α)) :
    List (String × α) :=
  entries.filter fun entry => entry.1 ∉ names

/-- A document without its members of the given names. -/
def Json.without (names : List String) : Json → Json
  | .object members => .object (Assoc.without names members)
  | v => v

namespace Assoc

variable {α : Type} {names : List String}

/-- Leaving names out goes through the entries one by one. -/
theorem without_cons (name : String) (a : α) (rest : List (String × α)) :
    without names ((name, a) :: rest) =
      if name ∈ names then without names rest else (name, a) :: without names rest := by
  unfold without
  by_cases hname : name ∈ names
  · rw [if_pos hname]
    exact List.filter_cons_of_neg (by simpa using hname)
  · rw [if_neg hname]
    exact List.filter_cons_of_pos (by simpa using hname)

/-- Leaving names out leaves what is found under the others. -/
theorem get?_without {name : String} (h : name ∉ names) (entries : List (String × α)) :
    get? name (without names entries) = get? name entries := by
  induction entries with
  | nil => rfl
  | cons entry rest ih =>
    obtain ⟨name', a⟩ := entry
    rw [without_cons, get?_cons]
    by_cases hleft : name' ∈ names
    · have hne : name' ≠ name := fun heq => h (heq ▸ hleft)
      rw [if_pos hleft, if_neg hne, ih]
    · rw [if_neg hleft, get?_cons, ih]

end Assoc

namespace Json

variable {names : List String}

/-- Below the other members nothing is missing. -/
theorem getPath?_without (v : Json) {name : String} (h : name ∉ names) (path : List String) :
    (v.without names).getPath? (name :: path) = v.getPath? (name :: path) := by
  have hmember : (v.without names).member? name = v.member? name := by
    cases v with
    | null | bool _ | integer _ | float _ | string _ | array _ => rfl
    | object members => exact Assoc.get?_without h members
  rw [getPath?_cons, getPath?_cons, hmember]

/-- To leave out members is to leave out the fields of these names. -/
theorem without_ofFields (fields : List (String × Option Json)) :
    (ofFields fields).without names = ofFields (Assoc.without names fields) := by
  show object (Assoc.without names (present fields)) = object (present (Assoc.without names fields))
  congr 1
  induction fields with
  | nil => rfl
  | cons field rest ih =>
    obtain ⟨name, value⟩ := field
    rw [Assoc.without_cons]
    by_cases hname : name ∈ names
    · rw [if_pos hname, ← ih]
      cases value with
      | none => rfl
      | some v =>
        show Assoc.without names ((name, v) :: present rest) = _
        rw [Assoc.without_cons, if_pos hname]
    · rw [if_neg hname]
      cases value with
      | none => exact ih
      | some v =>
        show Assoc.without names ((name, v) :: present rest) = (name, v) :: present _
        rw [Assoc.without_cons, if_neg hname, ih]

/-- Records whose first fields differ in what is left out only cannot be told apart. -/
theorem without_ofFields_congr {front front' : List (String × Option Json)}
    (h : Assoc.without names front = Assoc.without names front')
    (back : List (String × Option Json)) :
    (ofFields (front ++ back)).without names = (ofFields (front' ++ back)).without names := by
  unfold Assoc.without at h
  rw [without_ofFields, without_ofFields]
  unfold Assoc.without
  rw [List.filter_append, List.filter_append, h]

end Json

end GuardedThings
