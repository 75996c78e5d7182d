import GuardedThings.Proofs.Access.ViewPaths

/-!
# Views are determined by their leaves

Two tidy values with the same leaves are the same (`Json.eq_of_leaves`): each
member is there on account of some leaf below it, and there is one member of a
name. A view of a tidy value is tidy (`Json.Tidy.visible?`), so two tidy values
are seen alike exactly if they have the same leaves where looking is allowed
(`Json.visible?_eq_iff`).

For a part of a document, found by a path, the leaves of the part are the leaves
of the document that continue the path (`Json.Tidy.reaches_append_iff`). So
documents that are seen alike as a whole are seen alike at every path that leads
somewhere in both (`Json.visible?_getPath?_eq`).
-/

set_option autoImplicit false

namespace GuardedThings.Json

/-! ## Leaves -/

/-- The values have the same leaves at the allowed addresses. -/
def SameLeaves (allowed : List String → Prop) (v w : Json) : Prop :=
  ∀ path leaf, leaf.isLeaf = true → allowed path → (v.Reaches path leaf ↔ w.Reaches path leaf)

namespace SameLeaves

variable {allowed : List String → Prop} {v w : Json}

/-- Having the same visible leaves is symmetric. -/
theorem symm (h : SameLeaves allowed v w) : SameLeaves allowed w v :=
  fun path leaf hleaf hallowed => (h path leaf hleaf hallowed).symm

/-- A value that is a leaf is told by its leaves. -/
theorem eq_of_isLeaf (h : SameLeaves (fun _ => True) v w) (hv : v.isLeaf = true) : v = w :=
  reaches_nil_iff.mp ((h [] v hv trivial).mp (.here v))

end SameLeaves

/-- In a tidy value the leaves below a path are those of what the path leads to. -/
theorem Tidy.reaches_append_iff {v leaf : Json} (h : v.Tidy) (path rest : List String) :
    v.Reaches (path ++ rest) leaf ↔
      ∃ inside, v.getPath? path = some inside ∧ inside.Reaches rest leaf := by
  induction path generalizing v with
  | nil =>
    constructor
    · exact fun hreaches => ⟨v, rfl, hreaches⟩
    · rintro ⟨inside, heq, hreaches⟩
      cases heq
      exact hreaches
  | cons name path ih =>
    rw [List.cons_append, reaches_cons_iff, getPath?_cons]
    constructor
    · rintro ⟨members, value, rfl, hmem, hreaches⟩
      obtain ⟨inside, hinside, hrest⟩ := (ih (h.value hmem)).mp hreaches
      refine ⟨inside, ?_, hrest⟩
      show (Assoc.get? name members).bind _ = _
      rw [Assoc.get?_of_mem h.sorted hmem]
      exact hinside
    · rintro ⟨inside, hinside, hrest⟩
      obtain ⟨child, hchild, hinside⟩ := Option.bind_eq_some_iff.mp hinside
      obtain ⟨members, hmembers, hget⟩ := Option.bind_eq_some_iff.mp hchild
      refine ⟨members, child, ?_, Assoc.mem_of_get? hget,
        (ih (h.member hchild)).mpr ⟨inside, hinside, hrest⟩⟩
      cases v with
      | object members' =>
        cases hmembers
        rfl
      | null | bool _ | integer _ | float _ | string _ | array _ => cases hmembers

/-- A member of one of two tidy objects with the same leaves has a counterpart with the same leaves
in the other. -/
theorem exists_member_of_sameLeaves {members members' : JsonObject} {name : String} {value : Json}
    (h : SameLeaves (fun _ => True) (object members) (object members'))
    (htidy : (object members).Tidy) (htidy' : (object members').Tidy)
    (hmem : (name, value) ∈ members) :
    ∃ value', (name, value') ∈ members' ∧ SameLeaves (fun _ => True) value value' := by
  obtain ⟨path, leaf, hreaches, hleaf⟩ := exists_reaches_leaf value
  obtain ⟨_, value', heq, hmem', -⟩ := reaches_cons_iff.mp
    ((h (name :: path) leaf hleaf trivial).mp (.member hmem hreaches))
  cases heq
  refine ⟨value', hmem', fun path leaf hleaf _ => ?_⟩
  have hvalue : (object members).getPath? [name] = some value := by
    show (Assoc.get? name members).bind some = _
    rw [Assoc.get?_of_mem htidy.sorted hmem]
    rfl
  have hvalue' : (object members').getPath? [name] = some value' := by
    show (Assoc.get? name members').bind some = _
    rw [Assoc.get?_of_mem htidy'.sorted hmem']
    rfl
  have hsame := h ([name] ++ path) leaf hleaf trivial
  rw [htidy.reaches_append_iff, htidy'.reaches_append_iff, hvalue, hvalue'] at hsame
  simpa using hsame

/-- Tidy values with the same leaves are equal. -/
theorem eq_of_leaves (v w : Json) (hv : v.Tidy) (hw : w.Tidy)
    (h : SameLeaves (fun _ => True) v w) : v = w := by
  by_cases hvleaf : v.isLeaf = true
  · exact h.eq_of_isLeaf hvleaf
  · by_cases hwleaf : w.isLeaf = true
    · exact (h.symm.eq_of_isLeaf hwleaf).symm
    · obtain ⟨members, hmembers, -⟩ := exists_members_of_not_isLeaf hvleaf
      obtain ⟨members', hmembers', -⟩ := exists_members_of_not_isLeaf hwleaf
      rw [hmembers] at hv h ⊢
      rw [hmembers'] at hw h ⊢
      -- Each member of one is found in the other, by recursion on the members of the first.
      have hfound : ∀ name value, (name, value) ∈ members → (name, value) ∈ members' := by
        intro name value hmem
        obtain ⟨value', hmem', hsame⟩ := exists_member_of_sameLeaves h hv hw hmem
        rw [eq_of_leaves value value' (hv.value hmem) (hw.value hmem') hsame]
        exact hmem'
      have hback : ∀ name value', (name, value') ∈ members' → (name, value') ∈ members := by
        intro name value' hmem'
        obtain ⟨value, hmem, -⟩ := exists_member_of_sameLeaves h.symm hw hv hmem'
        have hvalue : value = value' := by
          have hthere := Assoc.get?_of_mem hw.sorted (hfound name value hmem)
          rw [Assoc.get?_of_mem hw.sorted hmem'] at hthere
          exact (Option.some.inj hthere).symm
        rw [← hvalue]
        exact hmem
      refine congrArg object (hv.sorted.ext hw.sorted fun name => ?_)
      ext value
      constructor
      · exact fun hget => Assoc.get?_of_mem hw.sorted (hfound name value (Assoc.mem_of_get? hget))
      · exact fun hget => Assoc.get?_of_mem hv.sorted (hback name value (Assoc.mem_of_get? hget))
termination_by sizeOf v
decreasing_by
  have hlt := List.sizeOf_lt_of_mem hmem
  rw [Prod.mk.sizeOf_spec] at hlt
  rw [hmembers, object.sizeOf_spec]
  omega

/-! ## Views -/

variable {allowed : Pointer → Bool} {here : Pointer}

/-- The members that are left of an object still ascend. -/
theorem sorted_visibleMembers {members : JsonObject} (h : Assoc.Sorted members) :
    Assoc.Sorted (visibleMembers allowed here members) := by
  rw [Assoc.sorted_iff_keys] at h ⊢
  exact h.sublist (visibleMembers_names_sublist allowed here members)

/-- A view of a tidy value is tidy. -/
theorem Tidy.visible? {v view : Json} (h : v.Tidy) (hview : v.visible? allowed here = some view) :
    view.Tidy := by
  intro path kept hkept
  have hinside := visible?_bind_getPath? allowed path here h.plain
  rw [hview, Option.bind_some, hkept] at hinside
  obtain ⟨inside, hget, hvisible⟩ := Option.bind_eq_some_iff.mp hinside.symm
  by_cases hleaf : inside.isLeaf = true
  · rw [visible?_of_isLeaf _ _ hleaf] at hvisible
    obtain ⟨-, heq⟩ := Option.ite_none_right_eq_some.mp hvisible
    cases heq
    exact (h.getPath? hget).sorted
  · obtain ⟨members, rfl, hmembers⟩ := exists_members_of_not_isLeaf hleaf
    obtain ⟨-, heq⟩ := (visible?_object_eq_some_iff _ _ hmembers _).mp hvisible
    cases heq
    exact sorted_visibleMembers (h.getPath? hget).sorted

/-- Tidy values are seen alike exactly if they have the same leaves at the allowed addresses. -/
theorem visible?_eq_iff {v w : Json} (hv : v.Tidy) (hw : w.Tidy) :
    v.visible? allowed here = w.visible? allowed here ↔
      SameLeaves (fun path => allowed (path.foldl Pointer.append here) = true) v w := by
  have hleaves := fun (v : Json) {leaf : Json} (hleaf : leaf.isLeaf = true) path =>
    exists_visible?_reaches_iff allowed hleaf path here v
  constructor
  · intro heq path leaf hleaf hallowed
    have hsame := hleaves v hleaf path
    rw [heq, hleaves w hleaf path] at hsame
    simpa only [hallowed, and_true] using hsame.symm
  · intro h
    have hsees : ∀ {v w : Json} {view : Json}, w.Tidy → v.Tidy →
        SameLeaves (fun path => allowed (path.foldl Pointer.append here) = true) v w →
        v.visible? allowed here = some view → w.visible? allowed here = some view := by
      intro v w view hw hv h hview
      have hkept : ∀ path leaf, leaf.isLeaf = true →
          (view.Reaches path leaf ↔
            ∃ view', w.visible? allowed here = some view' ∧ view'.Reaches path leaf) := by
        intro path leaf hleaf
        have hsame := hleaves v hleaf path
        rw [hview] at hsame
        rw [hleaves w hleaf path]
        simp only [Option.some.injEq, exists_eq_left'] at hsame
        rw [hsame]
        exact and_congr_left fun hallowed => h path leaf hleaf hallowed
      -- Something is seen of the first value, so something is seen of the second.
      obtain ⟨path, leaf, hreaches, hleaf⟩ := exists_reaches_leaf view
      obtain ⟨view', hview', -⟩ := (hkept path leaf hleaf).mp hreaches
      have hsame : SameLeaves (fun _ => True) view view' := by
        intro path leaf hleaf _
        rw [hkept path leaf hleaf, hview']
        simp
      rw [hview', eq_of_leaves view view' (hv.visible? hview) (hw.visible? hview') hsame]
    ext view
    exact ⟨hsees hw hv h, hsees hv hw h.symm⟩

/-- Tidy values that are seen alike are seen alike at a path that leads somewhere in both. -/
theorem visible?_getPath?_eq {v w inside inside' : Json} {path : List String} (hv : v.Tidy)
    (hw : w.Tidy) (h : v.visible? allowed here = w.visible? allowed here)
    (hinside : v.getPath? path = some inside) (hinside' : w.getPath? path = some inside') :
    inside.visible? allowed (path.foldl Pointer.append here) =
      inside'.visible? allowed (path.foldl Pointer.append here) := by
  have hleft := visible?_bind_getPath? allowed path here hv.plain
  have hright := visible?_bind_getPath? allowed path here hw.plain
  rw [hinside] at hleft
  rw [hinside', ← h, hleft] at hright
  exact hright

end GuardedThings.Json
