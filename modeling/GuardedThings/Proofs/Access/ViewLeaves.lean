import GuardedThings.Access.View

/-!
# Leaves of a view

A leaf of a value is what a view keeps or drops as one: a value that is no
object, or an empty object. `Reaches` follows names from a value to the values
inside it, by membership, so nothing is assumed about the order of members or
about repeated names.

A member survives in a view exactly if something of its value is visible
(`mem_visibleMembers_iff`). By induction on the path, a leaf is found in the
view exactly if it is found in the value and its address is allowed
(`exists_visible?_reaches_iff`). Since every value has some leaf
(`exists_reaches_leaf`), nothing else can be in a view, and there is a view
exactly if some leaf is kept.
-/

set_option autoImplicit false

namespace GuardedThings

namespace Json

/-- Whether a view keeps or drops the value as one. -/
def isLeaf : Json → Bool
  | .object members => members.isEmpty
  | _ => true

/-- The value inside that a sequence of names leads to. -/
inductive Reaches : Json → List String → Json → Prop
  | here (v : Json) : Reaches v [] v
  | member {members : JsonObject} {name : String} {value inside : Json} {path : List String}
      (mem : (name, value) ∈ members) (below : Reaches value path inside) :
      Reaches (.object members) (name :: path) inside

/-- The empty path reaches the document itself. -/
theorem reaches_nil_iff {v inside : Json} : v.Reaches [] inside ↔ inside = v := by
  constructor
  · intro h
    cases h
    rfl
  · rintro rfl
    exact .here _

/-- A path reaches what the rest of it reaches from a member with its first name. -/
theorem reaches_cons_iff {v inside : Json} {name : String} {path : List String} :
    v.Reaches (name :: path) inside ↔
      ∃ members value, v = .object members ∧ (name, value) ∈ members ∧
        value.Reaches path inside := by
  constructor
  · intro h
    cases h with
    | member mem below => exact ⟨_, _, rfl, mem, below⟩
  · rintro ⟨members, value, rfl, mem, below⟩
    exact .member mem below

/-- Paths are followed one after the other. -/
theorem Reaches.append {v w inside : Json} {path rest : List String} (h : v.Reaches path w)
    (h' : w.Reaches rest inside) : v.Reaches (path ++ rest) inside := by
  induction h with
  | here => exact h'
  | member mem _ ih => exact .member mem (ih h')

/-- What is no leaf is an object with members. -/
theorem exists_members_of_not_isLeaf {v : Json} (h : ¬ v.isLeaf = true) :
    ∃ members, v = .object members ∧ members ≠ [] := by
  cases v with
  | object members => exact ⟨members, rfl, fun hnil => h (List.isEmpty_iff.mpr hnil)⟩
  | null | bool _ | integer _ | float _ | string _ | array _ => exact absurd rfl h

/-- Every value has a leaf somewhere inside. -/
theorem exists_reaches_leaf : (v : Json) → ∃ path leaf, v.Reaches path leaf ∧ leaf.isLeaf = true
  | .object ((_, value) :: _) => by
    obtain ⟨path, leaf, hreaches, hleaf⟩ := exists_reaches_leaf value
    exact ⟨_ :: path, leaf, .member List.mem_cons_self hreaches, hleaf⟩
  | .object [] => ⟨[], _, .here _, rfl⟩
  | .null | .bool _ | .integer _ | .float _ | .string _ | .array _ => ⟨[], _, .here _, rfl⟩

/-! ## Visible members -/

variable (allowed : Pointer → Bool)

/-- A leaf is visible iff it is allowed where it stands. -/
theorem visible?_of_isLeaf (here : Pointer) {v : Json} (h : v.isLeaf = true) :
    v.visible? allowed here = if allowed here then some v else none := by
  cases v with
  | object members =>
    rw [isLeaf, List.isEmpty_iff] at h
    subst h
    rw [visible?]
  | null | bool _ | integer _ | float _ | string _ | array _ =>
    rw [visible?]
    exact nofun

/-- An object with members is cut down to its visible members, of which there must be one. -/
theorem visible?_object_eq_some_iff (here : Pointer) {members : JsonObject} (h : members ≠ [])
    (view : Json) :
    (object members).visible? allowed here = some view ↔
      visibleMembers allowed here members ≠ [] ∧
        view = .object (visibleMembers allowed here members) := by
  cases members with
  | nil => exact absurd rfl h
  | cons member rest =>
    rw [visible?]
    cases visibleMembers allowed here (member :: rest) with
    | nil => simp
    | cons kept more => simp [eq_comm]

/-- A member is kept exactly if something of its value is visible. -/
theorem mem_visibleMembers_iff (here : Pointer) (members : JsonObject) (name : String)
    (kept : Json) :
    (name, kept) ∈ visibleMembers allowed here members ↔
      ∃ value, (name, value) ∈ members ∧
        value.visible? allowed (here.append name) = some kept := by
  induction members with
  | nil =>
    rw [visibleMembers]
    simp
  | cons member rest ih =>
    obtain ⟨name', value'⟩ := member
    rw [visibleMembers]
    cases hvisible : value'.visible? allowed (here.append name') with
    | none =>
      simp only [ih]
      constructor
      · rintro ⟨value, hmem, heq⟩
        exact ⟨value, List.mem_cons_of_mem _ hmem, heq⟩
      · rintro ⟨value, hmem, heq⟩
        rcases List.mem_cons.mp hmem with hhead | hmem
        · cases hhead
          rw [hvisible] at heq
          cases heq
        · exact ⟨value, hmem, heq⟩
    | some kept' =>
      simp only [List.mem_cons, ih]
      constructor
      · rintro (hhead | ⟨value, hmem, heq⟩)
        · cases hhead
          exact ⟨value', .inl rfl, hvisible⟩
        · exact ⟨value, .inr hmem, heq⟩
      · rintro ⟨value, hhead | hmem, heq⟩
        · cases hhead
          rw [hvisible] at heq
          cases heq
          exact .inl rfl
        · exact .inr ⟨value, hmem, heq⟩

/-- A view has a member exactly if something of the member of the value is visible. -/
theorem exists_visible?_member_iff (here : Pointer) (v : Json) (name : String) (kept : Json) :
    (∃ members, v.visible? allowed here = some (.object members) ∧ (name, kept) ∈ members) ↔
      ∃ members value, v = .object members ∧ (name, value) ∈ members ∧
        value.visible? allowed (here.append name) = some kept := by
  by_cases hleaf : v.isLeaf = true
  · rw [visible?_of_isLeaf allowed here hleaf]
    constructor
    · rintro ⟨members, heq, hmem⟩
      obtain ⟨-, heq⟩ := Option.ite_none_right_eq_some.mp heq
      cases heq
      rw [isLeaf, List.isEmpty_iff] at hleaf
      subst hleaf
      cases hmem
    · rintro ⟨members, value, rfl, hmem, -⟩
      rw [isLeaf, List.isEmpty_iff] at hleaf
      subst hleaf
      cases hmem
  · obtain ⟨members, rfl, hmembers⟩ := exists_members_of_not_isLeaf hleaf
    simp only [visible?_object_eq_some_iff allowed here hmembers, object.injEq]
    constructor
    · rintro ⟨_, ⟨-, rfl⟩, hmem⟩
      obtain ⟨value, hvalue, hkept⟩ := (mem_visibleMembers_iff allowed here _ _ _).mp hmem
      exact ⟨members, value, rfl, hvalue, hkept⟩
    · rintro ⟨_, value, rfl, hvalue, hkept⟩
      have hmem : (name, kept) ∈ visibleMembers allowed here members :=
        (mem_visibleMembers_iff allowed here members name kept).mpr ⟨value, hvalue, hkept⟩
      exact ⟨_, ⟨List.ne_nil_of_mem hmem, rfl⟩, hmem⟩

/-! ## Leaves of a view -/

/-- A leaf is found in the view exactly if it is found in the value and its address is allowed. -/
theorem exists_visible?_reaches_iff {leaf : Json} (hleaf : leaf.isLeaf = true)
    (path : List String) (here : Pointer) (v : Json) :
    (∃ view, v.visible? allowed here = some view ∧ view.Reaches path leaf) ↔
      v.Reaches path leaf ∧ allowed (path.foldl Pointer.append here) = true := by
  induction path generalizing v here with
  | nil =>
    simp only [reaches_nil_iff, List.foldl_nil]
    by_cases hv : v.isLeaf = true
    · rw [visible?_of_isLeaf allowed here hv]
      simp only [Option.ite_none_right_eq_some, Option.some.injEq]
      constructor
      · rintro ⟨_, ⟨hallowed, rfl⟩, rfl⟩
        exact ⟨rfl, hallowed⟩
      · rintro ⟨rfl, hallowed⟩
        exact ⟨_, ⟨hallowed, rfl⟩, rfl⟩
    · -- What is left of an object with members is an object with members, and so no leaf.
      obtain ⟨members, rfl, hmembers⟩ := exists_members_of_not_isLeaf hv
      constructor
      · rintro ⟨view, hview, rfl⟩
        obtain ⟨hkept, rfl⟩ := (visible?_object_eq_some_iff allowed here hmembers _).mp hview
        exact absurd (List.isEmpty_iff.mp hleaf) hkept
      · rintro ⟨rfl, -⟩
        exact absurd hleaf hv
  | cons name path ih =>
    have hmember := exists_visible?_member_iff allowed here v name
    constructor
    · rintro ⟨view, hview, hreaches⟩
      obtain ⟨kept, w, rfl, hw, hbelow⟩ := reaches_cons_iff.mp hreaches
      obtain ⟨members, value, rfl, hvalue, hvisible⟩ := (hmember w).mp ⟨kept, hview, hw⟩
      obtain ⟨hinside, hallowed⟩ := (ih (here.append name) value).mp ⟨w, hvisible, hbelow⟩
      exact ⟨.member hvalue hinside, hallowed⟩
    · rintro ⟨hreaches, hallowed⟩
      obtain ⟨members, value, rfl, hvalue, hbelow⟩ := reaches_cons_iff.mp hreaches
      obtain ⟨w, hvisible, hinside⟩ := (ih (here.append name) value).mpr ⟨hbelow, hallowed⟩
      obtain ⟨kept, hview, hw⟩ := (hmember w).mpr ⟨members, value, rfl, hvalue, hvisible⟩
      exact ⟨_, hview, .member hw hinside⟩

/-- There is no view exactly if no leaf is allowed to be seen. -/
theorem visible?_eq_none_iff (here : Pointer) (v : Json) :
    v.visible? allowed here = none ↔
      ∀ path leaf, leaf.isLeaf = true → v.Reaches path leaf →
        ¬ allowed (path.foldl Pointer.append here) = true := by
  constructor
  · intro hnone path leaf hleaf hreaches hallowed
    obtain ⟨view, hview, -⟩ :=
      (exists_visible?_reaches_iff allowed hleaf path here v).mpr ⟨hreaches, hallowed⟩
    rw [hnone] at hview
    cases hview
  · intro hdenied
    cases hview : v.visible? allowed here with
    | none => rfl
    | some view =>
      obtain ⟨path, leaf, hreaches, hleaf⟩ := exists_reaches_leaf view
      obtain ⟨hinside, hallowed⟩ :=
        (exists_visible?_reaches_iff allowed hleaf path here v).mp ⟨view, hview, hreaches⟩
      exact absurd hallowed (hdenied path leaf hleaf hinside)

/-- An object of which nothing is visible is gone; one that was empty is still there. -/
example :
    (object [("hidden", object [("inside", integer 1)]), ("shown", object [])]).visible?
      (fun here => here.segments = ["shown"]) .root = some (object [("shown", object [])]) := by
  rfl

end Json

namespace ResourceKey

/-- Descending by names from a key appends them to its path. -/
theorem foldl_child (key : ResourceKey) (path : List String) :
    path.foldl child key = { key with path := path.foldl Pointer.append key.path } := by
  induction path generalizing key with
  | nil => rfl
  | cons name rest ih => exact ih (key.child name)

end ResourceKey

namespace Enforcer

/-- What may be seen at a path is asked by the key with this path. -/
theorem allows_type (e : Enforcer) (key : ResourceKey) (caller : Caller) (ps : Permissions)
    (path : Pointer) :
    e.allows key.type caller ps path = e.hasPermission caller { key with path } ps := by
  unfold allows ResourceKey.make
  rw [dif_pos key.wellFormed]

/-- What a view keeps. A leaf is found in it exactly if it is found in the value and the caller
holds the permissions on its address; whatever else is in the view has such a leaf inside; there is
no view exactly if there is no such leaf; and the view of a whole document is the view at the root
of its type, where the empty object stands for none. -/
theorem view_keeps_permitted_leaves (e : Enforcer) (key : ResourceKey) (value : Json)
    (caller : Caller) (ps : Permissions) :
    let permitted : List String → Prop := fun path =>
      e.hasPermission caller (path.foldl ResourceKey.child key) ps = true
    (∀ (path : List String) (leaf : Json), leaf.isLeaf = true →
      ((∃ view, e.viewAt? key value caller ps = some view ∧ view.Reaches path leaf) ↔
        value.Reaches path leaf ∧ permitted path)) ∧
    (∀ (view inside : Json) (path : List String), e.viewAt? key value caller ps = some view →
      view.Reaches path inside →
        ∃ rest leaf, leaf.isLeaf = true ∧ inside.Reaches rest leaf ∧
          value.Reaches (path ++ rest) leaf ∧ permitted (path ++ rest)) ∧
    (e.viewAt? key value caller ps = none ↔
      ∀ (path : List String) (leaf : Json), leaf.isLeaf = true → value.Reaches path leaf →
        ¬ permitted path) ∧
    e.view key.type value caller ps =
      (e.viewAt? { key with path := .root } value caller ps).getD (.object []) := by
  intro permitted
  have hpermitted : ∀ path, e.allows key.type caller ps (path.foldl Pointer.append key.path) = true ↔
      permitted path := by
    intro path
    rw [allows_type, ← ResourceKey.foldl_child]
  have hleaves : ∀ (path : List String) (leaf : Json), leaf.isLeaf = true →
      ((∃ view, e.viewAt? key value caller ps = some view ∧ view.Reaches path leaf) ↔
        value.Reaches path leaf ∧ permitted path) := by
    intro path leaf hleaf
    rw [← hpermitted]
    exact Json.exists_visible?_reaches_iff _ hleaf path key.path value
  refine ⟨hleaves, ?_, ?_, rfl⟩
  · intro view inside path hview hinside
    obtain ⟨rest, leaf, hreaches, hleaf⟩ := Json.exists_reaches_leaf inside
    have hkept := (hleaves (path ++ rest) leaf hleaf).mp ⟨view, hview, hinside.append hreaches⟩
    exact ⟨rest, leaf, hleaf, hreaches, hkept.1, hkept.2⟩
  · simp only [← hpermitted]
    exact Json.visible?_eq_none_iff _ key.path value

end Enforcer

end GuardedThings
