import GuardedThings.Access.Tree
import Mathlib.Tactic.ByContra
import Mathlib.Tactic.Tauto

/-!
# The content of access trees

An access tree is read here as a map from paths to effects: `effectsAt` walks
down to a path and gives what is stored there, nothing where the tree ends.
Inserting merges into exactly one path (`effectsAt_insert`), so the order of
insertions cannot matter. The walk that inherits effects on its way
(`AccessTree.resolve`) then has a description without any walking: it ends in a
grant iff some path on the way grants the permission and every path on the way
that revokes it is shorter, or the inherited effect is a grant that nothing on
the way revokes (`resolve_granted_iff`).
-/

set_option autoImplicit false

namespace GuardedThings

namespace Effects

/-- The permissions for which the effects include `effect`. -/
def side (e : Effects) : Effect → Permissions
  | .granted => e.grant
  | .revoked => e.revoke

/-- Whether `effect` is among what the effects say about a permission. -/
def gives (e : Effects) (effect : Effect) (p : Permission) : Bool := (e.side effect).contains p

@[simp] theorem gives_empty (effect : Effect) (p : Permission) :
    Effects.empty.gives effect p = false := by
  cases effect <;> rfl

/-- Merged effects say what either of them says. -/
theorem gives_merge (a b : Effects) (effect : Effect) (p : Permission) :
    (a.merge b).gives effect p = (a.gives effect p || b.gives effect p) := by
  cases effect with
  | granted => exact KeySet.contains_union a.grant b.grant p
  | revoked => exact KeySet.contains_union a.revoke b.revoke p

/-- What effects say on top of an inherited effect amounts to a grant iff they do not revoke, and
grant the permission themselves or inherit the grant. -/
theorem or_eq_granted_iff (e : Effects) (p : Permission) (inherited : Option Effect) :
    (e.on? p).or inherited = some .granted ↔
      e.gives .revoked p = false ∧ (e.gives .granted p = true ∨ inherited = some .granted) := by
  unfold on? gives side
  by_cases h : e.revoke.contains p = true
  · simp [h]
  · by_cases h' : e.grant.contains p = true <;> simp [h, h']

end Effects

namespace AccessTree

/-! ## What is stored on a path -/

/-- The tree one segment deeper; empty where there is none. -/
def childAt (t : AccessTree) (segment : String) : AccessTree := (t.child? segment).getD empty

/-- The effects stored on a path; empty where the tree does not reach. -/
def effectsAt (t : AccessTree) : List String → Effects
  | [] => t.effects
  | segment :: rest => (t.childAt segment).effectsAt rest

/-- Whether `effect` is among what the tree stores about a permission on a path. -/
def gives (t : AccessTree) (effect : Effect) (p : Permission) (path : List String) : Bool :=
  (t.effectsAt path).gives effect p

/-- An empty tree stores no effects. -/
theorem effectsAt_empty (path : List String) : empty.effectsAt path = .empty := by
  induction path with
  | nil => rfl
  | cons segment rest ih => exact ih

@[simp] theorem gives_empty (effect : Effect) (p : Permission) (path : List String) :
    empty.gives effect p path = false := by
  rw [gives, effectsAt_empty, Effects.gives_empty]

/-- An insertion goes on in the tree one segment deeper. -/
theorem childAt_insert_self (t : AccessTree) (segment : String) (rest : List String) (e : Effects) :
    (t.insert (segment :: rest) e).childAt segment = (t.childAt segment).insert rest e := by
  have h : (t.insert (segment :: rest) e).child? segment =
      some (((t.child? segment).getD empty).insert rest e) :=
    Assoc.get?_insert_self segment _ t.children
  rw [childAt, h]
  rfl

/-- An insertion keeps the trees it does not go through. -/
theorem childAt_insert_of_ne (t : AccessTree) {segment s : String} (h : s ≠ segment)
    (rest : List String) (e : Effects) :
    (t.insert (segment :: rest) e).childAt s = t.childAt s := by
  have h' : (t.insert (segment :: rest) e).child? s = t.child? s :=
    Assoc.get?_insert_of_ne h _ t.children
  rw [childAt, h', childAt]

/-- Insertion merges the effects into those on the path and leaves all other paths alone. -/
theorem effectsAt_insert (t : AccessTree) (path q : List String) (e : Effects) :
    (t.insert path e).effectsAt q =
      if q = path then (t.effectsAt q).merge e else t.effectsAt q := by
  induction path generalizing t q with
  | nil =>
    cases q with
    | nil => rfl
    | cons s q => rfl
  | cons segment rest ih =>
    cases q with
    | nil => rfl
    | cons s q =>
      rw [effectsAt, effectsAt]
      by_cases hs : s = segment
      · subst hs
        rw [childAt_insert_self, ih]
        simp
      · rw [childAt_insert_of_ne t hs]
        simp [hs]

/-- After an insertion the tree says what it said before, and on the path what the inserted effects
say. -/
theorem gives_insert (t : AccessTree) (path q : List String) (e : Effects) (effect : Effect)
    (p : Permission) :
    (t.insert path e).gives effect p q = true ↔
      t.gives effect p q = true ∨ (path = q ∧ e.gives effect p = true) := by
  unfold gives
  rw [effectsAt_insert]
  by_cases h : q = path
  · subst h
    simp [Effects.gives_merge]
  · have h' : path ≠ q := fun eq => h eq.symm
    simp [h, h']

/-! ## Walking down a path -/

/-- A walk that ends at the root takes its effect, or else the inherited one. -/
theorem resolve_nil (t : AccessTree) (p : Permission) (inherited : Option Effect) :
    t.resolve p inherited [] = ((t.effects.on? p).or inherited, some t) := rfl

/-- A walk goes on in the child, or stops where there is none. -/
theorem resolve_cons (t : AccessTree) (p : Permission) (inherited : Option Effect)
    (segment : String) (rest : List String) :
    t.resolve p inherited (segment :: rest) =
      match t.child? segment with
      | some child => child.resolve p ((t.effects.on? p).or inherited) rest
      | none => ((t.effects.on? p).or inherited, none) := rfl

/-- An empty tree passes on what it inherits. -/
theorem resolve_empty_fst (p : Permission) (inherited : Option Effect) (path : List String) :
    (empty.resolve p inherited path).1 = inherited := by
  cases path with
  | nil => rfl
  | cons segment rest => rfl

/-- The effect a walk ends with, whether or not the tree reaches that far. -/
theorem resolve_cons_fst (t : AccessTree) (p : Permission) (inherited : Option Effect)
    (segment : String) (rest : List String) :
    (t.resolve p inherited (segment :: rest)).1 =
      ((t.childAt segment).resolve p ((t.effects.on? p).or inherited) rest).1 := by
  rw [resolve_cons, childAt]
  cases t.child? segment with
  | none => exact (resolve_empty_fst p _ rest).symm
  | some child => rfl

/-- No path on the way to `path` revokes the permission. -/
def Unrevoked (t : AccessTree) (p : Permission) (path : List String) : Prop :=
  ∀ r, r <+: path → t.gives .revoked p r = false

/-- Some path on the way to `path` grants the permission, and all that revoke it are shorter. -/
def GrantsLast (t : AccessTree) (p : Permission) (path : List String) : Prop :=
  ∃ g, g <+: path ∧ t.gives .granted p g = true ∧
    ∀ r, r <+: path → t.gives .revoked p r = true → r.length < g.length

/-- At the root nothing is revoked unless the root itself revokes. -/
theorem unrevoked_nil (t : AccessTree) (p : Permission) :
    t.Unrevoked p [] ↔ t.gives .revoked p [] = false := by
  simp [Unrevoked]

/-- Further down, the root and the tree one segment deeper count. -/
theorem unrevoked_cons (t : AccessTree) (p : Permission) (segment : String) (rest : List String) :
    t.Unrevoked p (segment :: rest) ↔
      t.gives .revoked p [] = false ∧ (t.childAt segment).Unrevoked p rest := by
  constructor
  · intro h
    refine ⟨h [] (List.nil_prefix), fun r hr => ?_⟩
    exact h (segment :: r) ((List.prefix_cons_inj segment).mpr hr)
  · rintro ⟨hroot, hrest⟩ r hr
    rcases List.prefix_cons_iff.mp hr with rfl | ⟨r', rfl, hr'⟩
    · exact hroot
    · exact hrest r' hr'

/-- At the root a grant is the last word if the root gives it and does not revoke. -/
theorem grantsLast_nil (t : AccessTree) (p : Permission) :
    t.GrantsLast p [] ↔ t.gives .granted p [] = true ∧ t.gives .revoked p [] = false := by
  simp [GrantsLast]

/-- Further down, either a grant below the root lasts, or the one at the root does and nothing
below it revokes. -/
theorem grantsLast_cons (t : AccessTree) (p : Permission) (segment : String)
    (rest : List String) :
    t.GrantsLast p (segment :: rest) ↔
      (t.childAt segment).GrantsLast p rest ∨
        (t.gives .granted p [] = true ∧ t.Unrevoked p (segment :: rest)) := by
  constructor
  · rintro ⟨g, hg, hgrant, hall⟩
    rcases List.prefix_cons_iff.mp hg with rfl | ⟨g', rfl, hg'⟩
    · refine .inr ⟨hgrant, fun r hr => ?_⟩
      by_contra hrev
      have := hall r hr (by simpa using hrev)
      simp at this
    · refine .inl ⟨g', hg', hgrant, fun r hr hrev => ?_⟩
      have := hall (segment :: r) ((List.prefix_cons_inj segment).mpr hr) hrev
      simpa using this
  · rintro (⟨g, hg, hgrant, hall⟩ | ⟨hgrant, hrest⟩)
    · refine ⟨segment :: g, (List.prefix_cons_inj segment).mpr hg, hgrant, fun r hr hrev => ?_⟩
      rcases List.prefix_cons_iff.mp hr with rfl | ⟨r', rfl, hr'⟩
      · simp
      · have := hall r' hr' hrev
        simpa using this
    · refine ⟨[], List.nil_prefix, hgrant, fun r hr hrev => ?_⟩
      rw [hrest r hr] at hrev
      exact absurd hrev Bool.false_ne_true

/-- A walk ends in a grant iff a grant on the way lasts, or the inherited effect is a grant that
nothing on the way revokes. -/
theorem resolve_granted_iff (t : AccessTree) (p : Permission) (inherited : Option Effect)
    (path : List String) :
    (t.resolve p inherited path).1 = some .granted ↔
      t.GrantsLast p path ∨ (inherited = some .granted ∧ t.Unrevoked p path) := by
  induction path generalizing t inherited with
  | nil =>
    rw [resolve_nil, Effects.or_eq_granted_iff, grantsLast_nil, unrevoked_nil]
    show t.gives .revoked p [] = false ∧ (t.gives .granted p [] = true ∨ _) ↔ _
    tauto
  | cons segment rest ih =>
    rw [resolve_cons_fst, ih, Effects.or_eq_granted_iff, grantsLast_cons, unrevoked_cons]
    show _ ∨ (t.gives .revoked p [] = false ∧ (t.gives .granted p [] = true ∨ _)) ∧ _ ↔ _
    tauto

end AccessTree

end GuardedThings
