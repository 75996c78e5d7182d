import GuardedThings.Bookkeeping
import GuardedThings.Proofs.Json.PathEdits
import GuardedThings.Proofs.Wire.Dictionaries

/-!
# Values whose objects are sorted

A property of the members of all objects that paths lead to (`Throughout`) is
checked along the constructors of a value and handed down along paths.

`Tidy` values have their members in ascending order wherever a path leads. They
are the values that reading a text gives, and records and dictionaries are
written as such; edits along paths keep them so (`Tidy.setPath`,
`Tidy.removePath?`). In a tidy value a member stands in the one place where it
would be inserted, so writing back what is there changes nothing
(`Tidy.setPath_self`).
-/

set_option autoImplicit false

namespace GuardedThings

namespace Json

/-! ## Properties of all objects on the way -/

/-- Wherever a path leads, the members of an object there have the property `P`. -/
def Throughout (P : JsonObject → Prop) (v : Json) : Prop :=
  ∀ path members, v.getPath? path = some (.object members) → P members

section Throughout

variable {P : JsonObject → Prop}

/-- What holds of objects holds throughout a value that is none. -/
theorem throughout_of_noObject {v : Json} (h : v.members? = none) : v.Throughout P := by
  intro path members hpath
  cases path with
  | nil =>
    cases hpath
    cases h
  | cons name path =>
    rw [getPath?_cons, member?, h] at hpath
    cases hpath

/-- What holds of an object and throughout its members holds throughout it. -/
theorem throughout_object {members : JsonObject} (here : P members)
    (deeper : ∀ name value, (name, value) ∈ members → value.Throughout P) :
    (object members).Throughout P := by
  intro path members' hpath
  cases path with
  | nil =>
    cases hpath
    exact here
  | cons name path =>
    obtain ⟨value, hvalue, hpath⟩ := Option.bind_eq_some_iff.mp hpath
    exact deeper name value (Assoc.mem_of_get? hvalue) path members' hpath

/-- What holds throughout an object holds of it. -/
theorem Throughout.here {members : JsonObject} (h : (object members).Throughout P) : P members :=
  h [] members rfl

/-- What holds throughout a value holds throughout its members. -/
theorem Throughout.member {v child : Json} {name : String} (h : v.Throughout P)
    (hchild : v.member? name = some child) : child.Throughout P := by
  intro path members hpath
  refine h (name :: path) members ?_
  rw [getPath?_cons, hchild]
  exact hpath

/-- What holds throughout a value holds throughout all that paths lead to. -/
theorem Throughout.getPath? {v inside : Json} {path : List String} (h : v.Throughout P)
    (hinside : v.getPath? path = some inside) : inside.Throughout P := by
  intro rest members hrest
  refine h (path ++ rest) members ?_
  rw [getPath?_append, hinside]
  exact hrest

end Throughout

/-! ## Tidy values -/

/-- Wherever a path leads, the members of an object there ascend by name. -/
def Tidy (v : Json) : Prop := v.Throughout Assoc.Sorted

/-- A value that is no object is tidy. -/
theorem tidy_of_noObject {v : Json} (h : v.members? = none) : v.Tidy := throughout_of_noObject h

/-- An object is tidy if its members ascend and their values are tidy. -/
theorem tidy_object {members : JsonObject} (sorted : Assoc.Sorted members)
    (deeper : ∀ name value, (name, value) ∈ members → value.Tidy) : (object members).Tidy :=
  throughout_object sorted deeper

/-- An object of ascending fields is tidy if their values are. -/
theorem tidy_ofFields {fields : List (String × Option Json)}
    (ascending : (fields.map Prod.fst).Pairwise Key.Before)
    (deeper : ∀ name value, (name, some value) ∈ fields → value.Tidy) : (ofFields fields).Tidy := by
  refine tidy_object (sorted_present ascending) fun name value hmem => ?_
  exact deeper name value ((mem_present_iff fields name value).mp hmem)

namespace Tidy

/-- The members of a tidy object ascend. -/
theorem sorted {members : JsonObject} (h : (object members).Tidy) : Assoc.Sorted members :=
  Throughout.here h

/-- The members of a tidy value are tidy. -/
theorem member {v child : Json} {name : String} (h : v.Tidy)
    (hchild : v.member? name = some child) : child.Tidy :=
  Throughout.member h hchild

/-- What a path leads to in a tidy value is tidy. -/
theorem getPath? {v inside : Json} {path : List String} (h : v.Tidy)
    (hinside : v.getPath? path = some inside) : inside.Tidy :=
  Throughout.getPath? h hinside

/-- The value of every member that a tidy object lists is tidy. -/
theorem value {members : JsonObject} (h : (object members).Tidy) {name : String} {value : Json}
    (hmem : (name, value) ∈ members) : value.Tidy :=
  h.member (Assoc.get?_of_mem h.sorted hmem)

/-- The members of a tidy value ascend, also if there are none. -/
theorem sorted_membersOrEmpty {v : Json} (h : v.Tidy) : Assoc.Sorted v.membersOrEmpty := by
  cases v with
  | object members => exact h.sorted
  | null | bool _ | integer _ | float _ | string _ | array _ => exact Assoc.sorted_nil

/-- A member of a tidy value is tidy, also if null stands in for it. -/
theorem member_getD {v : Json} (h : v.Tidy) (name : String) :
    ((v.member? name).getD .null).Tidy := by
  cases hchild : v.member? name with
  | none => exact tidy_of_noObject rfl
  | some child => exact h.member hchild

/-- A tidy value stays tidy when a member is set to a tidy one. -/
theorem insert {v new : Json} (h : v.Tidy) (hnew : new.Tidy) (name : String) :
    (object (Assoc.insert name new v.membersOrEmpty)).Tidy := by
  refine tidy_object (h.sorted_membersOrEmpty.insert name new) fun name' value hmem => ?_
  rcases Assoc.mem_insert hmem with heq | hmem
  · cases heq
    exact hnew
  · cases v with
    | object members => exact h.value hmem
    | null | bool _ | integer _ | float _ | string _ | array _ => cases hmem

/-! ## Edits -/

/-- A tidy value stays tidy when a tidy one is written into it. -/
theorem setPath {v new : Json} (h : v.Tidy) (hnew : new.Tidy) (path : List String) :
    (v.setPath path new).Tidy := by
  induction path generalizing v with
  | nil => exact hnew
  | cons name path ih =>
    rw [setPath_cons]
    exact h.insert (ih (h.member_getD name)) name

/-- What a removal leaves of a tidy value is tidy. -/
theorem removePath? {v removed rest : Json} {path : List String} (h : v.Tidy)
    (hremoved : v.removePath? path = some (removed, rest)) : rest.Tidy := by
  induction path generalizing v removed rest with
  | nil => cases hremoved
  | cons name path ih =>
    cases path with
    | nil =>
      rw [removePath?_singleton] at hremoved
      obtain ⟨members, hmembers, hremoved⟩ := Option.bind_eq_some_iff.mp hremoved
      obtain ⟨_, -, heq⟩ := Option.map_eq_some_iff.mp hremoved
      cases heq
      cases v with
      | object members' =>
        cases hmembers
        refine tidy_object (h.sorted.erase name) fun name' value hmem => ?_
        exact h.value (List.mem_filter.mp hmem).1
      | null | bool _ | integer _ | float _ | string _ | array _ => cases hmembers
    | cons next path =>
      rw [removePath?_cons _ _ (List.cons_ne_nil _ _)] at hremoved
      obtain ⟨members, hmembers, hremoved⟩ := Option.bind_eq_some_iff.mp hremoved
      obtain ⟨child, hchild, hremoved⟩ := Option.bind_eq_some_iff.mp hremoved
      obtain ⟨⟨removed', left⟩, hleft, heq⟩ := Option.map_eq_some_iff.mp hremoved
      cases heq
      cases v with
      | object members' =>
        cases hmembers
        exact h.insert (ih (h.member hchild) hleft) name
      | null | bool _ | integer _ | float _ | string _ | array _ => cases hmembers

/-- A member that is written where it stands already changes nothing. -/
theorem insert_self {α : Type} {members : List (String × α)} (h : Assoc.Sorted members)
    {name : String} {a : α} (ha : Assoc.get? name members = some a) :
    Assoc.insert name a members = members := by
  refine (h.insert name a).ext h fun name' => ?_
  by_cases hname : name' = name
  · rw [hname, Assoc.get?_insert_self, ha]
  · rw [Assoc.get?_insert_of_ne hname]

/-- To write back what is there changes nothing. -/
theorem setPath_self {v w : Json} {path : List String} (h : v.Tidy)
    (hw : v.getPath? path = some w) : v.setPath path w = v := by
  induction path generalizing v with
  | nil => exact (Option.some.inj hw).symm
  | cons name path ih =>
    rw [getPath?_cons] at hw
    obtain ⟨child, hchild, hw⟩ := Option.bind_eq_some_iff.mp hw
    rw [setPath_cons, hchild, Option.getD_some, ih (h.member hchild) hw]
    cases v with
    | object members => exact congrArg object (insert_self h.sorted hchild)
    | null | bool _ | integer _ | float _ | string _ | array _ => cases hchild

end Tidy

end Json

/-- A dictionary of values that are written tidily is written as a tidy value. -/
theorem Dict.tidy_toJson {κ α : Type} [Key κ] {textOf : κ → String}
    {encode : α → Json} (d : Dict κ α) (hvalues : ∀ a, (encode a).Tidy)
    (hinj : ∀ {k l}, textOf k = textOf l → k = l) : (d.toJson textOf encode).Tidy := by
  obtain ⟨entries, hentries, -⟩ := d.jsonMembers_eq_map textOf encode hinj
  rw [d.toJson_eq]
  refine Json.tidy_object (d.sorted_jsonMembers textOf encode) fun name value hmem => ?_
  rw [hentries] at hmem
  obtain ⟨⟨k, a⟩, -, heq⟩ := List.mem_map.mp hmem
  cases heq
  exact hvalues a

/-- The fields of bookkeeping hold no objects. -/
theorem Bookkeeping.tidy_members (b : Bookkeeping) {name : String} {value : Json}
    (hmem : (name, some value) ∈ b.members) : value.Tidy := by
  refine Json.tidy_of_noObject ?_
  simp only [members, List.mem_cons, List.not_mem_nil, or_false, Prod.mk.injEq] at hmem
  rcases hmem with ⟨-, htime⟩ | ⟨-, hvalue⟩ | ⟨-, htime⟩ | ⟨-, hvalue⟩
  · obtain ⟨t, -, rfl⟩ := Option.map_eq_some_iff.mp htime.symm
    rfl
  · cases hvalue
    rfl
  · obtain ⟨t, -, rfl⟩ := Option.map_eq_some_iff.mp htime.symm
    rfl
  · cases hvalue
    rfl

end GuardedThings
