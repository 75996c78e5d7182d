import GuardedThings.Proofs.Access.ViewLeaves
import GuardedThings.Proofs.Json.Tidy

/-!
# Paths into views

To follow a path into a view is to follow it into the value and to take the view
of what is there (`visible?_bind_getPath?`): a view is made member by member,
and each member is seen from its own address.

A path leads to the first member of a name, while a view keeps every member of
which something is visible. The two agree where no object has two members of the
same name (`Plain`), which holds of every tidy value (`Tidy.plain`).
-/

set_option autoImplicit false

namespace GuardedThings

namespace Json

/-! ## Plain values -/

/-- Wherever a path leads, the members of an object there have different names. -/
def Plain (v : Json) : Prop :=
  ∀ path members, v.getPath? path = some (.object members) → (members.map Prod.fst).Nodup

/-- A tidy document is plain: no object in it has a name twice. -/
theorem Tidy.plain {v : Json} (h : v.Tidy) : v.Plain :=
  fun path members hpath => (h path members hpath).nodup_keys

/-- The names of an object that is plain differ. -/
theorem Plain.nodup {members : JsonObject} (h : (object members).Plain) :
    (members.map Prod.fst).Nodup :=
  h [] members rfl

/-- A member of a plain document is plain. -/
theorem Plain.member {v child : Json} {name : String} (h : v.Plain)
    (hchild : v.member? name = some child) : child.Plain :=
  Throughout.member h hchild

/-- What a path leads to in a plain document is plain. -/
theorem Plain.getPath? {v inside : Json} {path : List String} (h : v.Plain)
    (hinside : v.getPath? path = some inside) : inside.Plain :=
  Throughout.getPath? h hinside

/-! ## Members of views -/

variable (allowed : Pointer → Bool)

/-- Filtering the members of an object adds no names. -/
theorem visibleMembers_names_sublist (here : Pointer) (members : JsonObject) :
    ((visibleMembers allowed here members).map Prod.fst).Sublist (members.map Prod.fst) := by
  induction members with
  | nil =>
    unfold visibleMembers
    exact List.Sublist.refl _
  | cons member rest ih =>
    obtain ⟨name, value⟩ := member
    rw [visibleMembers]
    cases value.visible? allowed (here.append name) with
    | none => exact ih.cons name
    | some kept => exact ih.cons_cons name

/-- What is said under a name is the view of what was said. -/
theorem get?_visibleMembers (here : Pointer) {members : JsonObject}
    (hnodup : (members.map Prod.fst).Nodup) (name : String) :
    Assoc.get? name (visibleMembers allowed here members) =
      (Assoc.get? name members).bind fun value => value.visible? allowed (here.append name) := by
  have hvisible := hnodup.sublist (visibleMembers_names_sublist allowed here members)
  ext kept
  rw [Assoc.get?_eq_some_iff_mem hvisible, mem_visibleMembers_iff, Option.bind_eq_some_iff]
  simp only [Assoc.get?_eq_some_iff_mem hnodup]

/-- A member of the view is the view of the member. -/
theorem visible?_bind_member? (here : Pointer) {v : Json} (h : v.Plain) (name : String) :
    ((v.visible? allowed here).bind fun view => view.member? name) =
      (v.member? name).bind fun child => child.visible? allowed (here.append name) := by
  by_cases hleaf : v.isLeaf = true
  · -- A leaf has no members, and it is kept or dropped as one.
    have hnone : v.member? name = none := by
      cases v with
      | object members =>
        rw [isLeaf, List.isEmpty_iff] at hleaf
        subst hleaf
        rfl
      | null | bool _ | integer _ | float _ | string _ | array _ => rfl
    rw [visible?_of_isLeaf allowed here hleaf, hnone]
    cases allowed here with
    | true => exact hnone
    | false => rfl
  · obtain ⟨members, rfl, hmembers⟩ := exists_members_of_not_isLeaf hleaf
    show _ = (Assoc.get? name members).bind _
    rw [← get?_visibleMembers allowed here h.nodup]
    have hview := visible?_object_eq_some_iff allowed here hmembers
    by_cases hkept : visibleMembers allowed here members = []
    · have hnone : (object members).visible? allowed here = none := by
        refine Option.eq_none_iff_forall_ne_some.mpr fun view heq => ?_
        exact ((hview view).mp heq).1 hkept
      rw [hnone, hkept]
      rfl
    · rw [(hview _).mpr ⟨hkept, rfl⟩]
      rfl

/-- To follow a path into a view is to take the view of what is there. -/
theorem visible?_bind_getPath? (path : List String) (here : Pointer) {v : Json} (h : v.Plain) :
    ((v.visible? allowed here).bind fun view => view.getPath? path) =
      (v.getPath? path).bind fun inside =>
        inside.visible? allowed (path.foldl Pointer.append here) := by
  induction path generalizing v here with
  | nil => exact Option.bind_fun_some _
  | cons name path ih =>
    have hmember := visible?_bind_member? allowed here h name
    simp only [getPath?_cons]
    rw [← Option.bind_assoc, hmember]
    cases hchild : v.member? name with
    | none => rfl
    | some child => exact ih (here.append name) (h.member hchild)

end Json

end GuardedThings
