import GuardedThings.Proofs.Access.LongestPrefix

/-!
# Decisions about a resource and everything below it

Whether a permission is held somewhere at or below a resource, or everywhere,
is a question about all keys below it, of which there are infinitely many. The
tree answers it from the nodes it stores (`AccessTree.grantsAtOrBelow`,
`AccessTree.grantsThroughout`). The answers are right because a walk that goes
on below a stored node only inherits what that node ends with
(`AccessTree.resolve_split`), and where the tree ends nothing changes any more.
The first needs that the children of a node are found under the segments they
are stored under, and the keys it exhibits need non-empty segments; both hold
of every tree that insertion builds (`AccessTree.WellFormed`).
-/

set_option autoImplicit false

namespace GuardedThings

namespace AccessTree

/-! ## Well-formed trees -/

/-- At every node the segments of the children ascend and none of them is empty. -/
inductive WellFormed : AccessTree → Prop where
  | node {effects : Effects} {children : List (String × AccessTree)}
      (sorted : Assoc.Sorted children)
      (named : ∀ entry ∈ children, entry.1 ≠ "")
      (deeper : ∀ entry ∈ children, WellFormed entry.2) :
      WellFormed (.node effects children)

/-- The empty tree has no children that could be wrong. -/
theorem wellFormed_empty : empty.WellFormed := by
  refine .node Assoc.sorted_nil ?_ ?_
  · intro entry h
    cases h
  · intro entry h
    cases h

/-- The children of a well-formed tree are found under their segments. -/
theorem WellFormed.mem_children_iff {t : AccessTree} (h : t.WellFormed) (segment : String)
    (child : AccessTree) : (segment, child) ∈ t.children ↔ t.child? segment = some child := by
  obtain ⟨sorted, _, _⟩ := h
  exact ⟨Assoc.get?_of_mem sorted, Assoc.mem_of_get?⟩

/-- A path through a child of a well-formed tree has no empty segment if none follows. -/
theorem WellFormed.noEmpty_cons {t child : AccessTree} {segment : String} (h : t.WellFormed)
    (hmem : (segment, child) ∈ t.children) {rest : List String} (hrest : "" ∉ rest) :
    "" ∉ segment :: rest := by
  obtain ⟨_, named, _⟩ := h
  rintro (_ | ⟨_, hmem'⟩)
  · exact named _ hmem rfl
  · exact hrest hmem'

/-- The children of a well-formed tree are well formed. -/
theorem WellFormed.child {t child : AccessTree} {segment : String} (h : t.WellFormed)
    (hc : t.child? segment = some child) : child.WellFormed := by
  have hmem := (h.mem_children_iff segment child).mpr hc
  obtain ⟨_, _, deeper⟩ := h
  exact deeper _ hmem

/-- Insertion on a path without empty segments keeps trees well formed. -/
theorem WellFormed.insert {t : AccessTree} (h : t.WellFormed) {path : List String}
    (hpath : "" ∉ path) (e : Effects) : (t.insert path e).WellFormed := by
  induction path generalizing t with
  | nil =>
    obtain ⟨sorted, named, deeper⟩ := h
    exact .node sorted named deeper
  | cons segment rest ih =>
    have hsegment : segment ≠ "" := fun eq => hpath (by simp [eq])
    have hrest : "" ∉ rest := fun hmem => hpath (List.mem_cons_of_mem _ hmem)
    have hchild : ((t.child? segment).getD empty).WellFormed := by
      cases hc : t.child? segment with
      | none => exact wellFormed_empty
      | some child => exact h.child hc
    have hnew := ih hchild hrest
    obtain ⟨sorted, named, deeper⟩ := h
    refine .node (sorted.insert segment _) (fun entry hmem => ?_) (fun entry hmem => ?_)
    · rcases Assoc.mem_insert hmem with rfl | hmem
      · exact hsegment
      · exact named entry hmem
    · rcases Assoc.mem_insert hmem with rfl | hmem
      · exact hnew
      · exact deeper entry hmem

/-- Inserting statements keeps trees well formed. -/
theorem WellFormed.addStatements {t : AccessTree} (h : t.WellFormed) (type : String)
    (statements : List Statement) : (t.addStatements type statements).WellFormed := by
  unfold AccessTree.addStatements
  induction statements generalizing t with
  | nil => exact h
  | cons s rest ih =>
    rw [List.foldl_cons]
    by_cases hs : s.1.type = type
    · rw [if_pos hs]
      exact ih (h.insert s.1.path.noEmpty s.2)
    · rw [if_neg hs]
      exact ih h

/-! ## What is stored below a node -/

/-- Some child grants: at its root, given what it inherits, or further down. -/
theorem someChildGrants_iff (p : Permission) (inherited : Option Effect)
    (children : List (String × AccessTree)) :
    someChildGrants p inherited children = true ↔
      ∃ entry ∈ children, (entry.2.effects.on? p).or inherited = some .granted ∨
        entry.2.grantsBelow p ((entry.2.effects.on? p).or inherited) = true := by
  induction children with
  | nil => simp [someChildGrants]
  | cons entry rest ih =>
    obtain ⟨segment, child⟩ := entry
    rw [someChildGrants]
    simp only [Bool.or_eq_true, decide_eq_true_iff, ih, List.mem_cons, exists_eq_or_imp]

/-- Some child revokes: at its root or further down. -/
theorem someChildRevokes_iff (p : Permission) (children : List (String × AccessTree)) :
    someChildRevokes p children = true ↔
      ∃ entry ∈ children, entry.2.effects.gives .revoked p = true ∨
        entry.2.revokesBelow p = true := by
  induction children with
  | nil => simp [someChildRevokes]
  | cons entry rest ih =>
    obtain ⟨segment, child⟩ := entry
    rw [someChildRevokes]
    simp only [Bool.or_eq_true, ih, List.mem_cons, exists_eq_or_imp]
    rfl

/-- A tree grants at its root or below it iff some walk down from the root ends in a grant. -/
theorem WellFormed.grants_or_grantsBelow_iff {t : AccessTree} (h : t.WellFormed)
    (p : Permission) (inherited : Option Effect) :
    ((t.effects.on? p).or inherited = some .granted ∨
      t.grantsBelow p ((t.effects.on? p).or inherited) = true) ↔
      ∃ rest, "" ∉ rest ∧ (t.resolve p inherited rest).1 = some .granted := by
  induction h generalizing inherited with
  | @node effects children sorted named deeper ih =>
    have hwf : (AccessTree.node effects children).WellFormed := .node sorted named deeper
    rw [grantsBelow, someChildGrants_iff]
    constructor
    · rintro (hroot | ⟨⟨segment, child⟩, hmem, hchild⟩)
      · exact ⟨[], List.not_mem_nil, hroot⟩
      · obtain ⟨rest, hrest, hgrant⟩ := (ih _ hmem _).mp hchild
        refine ⟨segment :: rest, hwf.noEmpty_cons hmem hrest, ?_⟩
        rw [resolve_cons, (hwf.mem_children_iff segment child).mp hmem]
        exact hgrant
    · rintro ⟨rest, hrest, hgrant⟩
      cases rest with
      | nil => exact .inl hgrant
      | cons segment rest =>
        rw [resolve_cons] at hgrant
        cases hc : (AccessTree.node effects children).child? segment with
        | none =>
          rw [hc] at hgrant
          exact .inl hgrant
        | some child =>
          rw [hc] at hgrant
          have hmem := (hwf.mem_children_iff segment child).mpr hc
          have hrest' : "" ∉ rest := fun hmem => hrest (List.mem_cons_of_mem _ hmem)
          exact .inr ⟨(segment, child), hmem, (ih _ hmem _).mpr ⟨rest, hrest', hgrant⟩⟩

/-- A tree grants at its root and revokes nowhere below it iff every walk down from the root ends
in a grant. -/
theorem WellFormed.grants_and_not_revokesBelow_iff {t : AccessTree} (h : t.WellFormed)
    (p : Permission) (inherited : Option Effect) :
    ((t.effects.on? p).or inherited = some .granted ∧ t.revokesBelow p = false) ↔
      ∀ rest, "" ∉ rest → (t.resolve p inherited rest).1 = some .granted := by
  -- What a node inherits varies along a walk, so the induction is for every inherited effect.
  induction h generalizing inherited with
  | @node effects children sorted named deeper ih =>
    have hwf : (AccessTree.node effects children).WellFormed := .node sorted named deeper
    rw [revokesBelow, ← Bool.not_eq_true, someChildRevokes_iff]
    constructor
    · rintro ⟨hroot, hnone⟩ rest hrest
      cases rest with
      | nil => exact hroot
      | cons segment rest =>
        rw [resolve_cons]
        cases hc : (AccessTree.node effects children).child? segment with
        | none => exact hroot
        | some child =>
          have hmem := (hwf.mem_children_iff segment child).mpr hc
          have hrest' : "" ∉ rest := fun hmem => hrest (List.mem_cons_of_mem _ hmem)
          have hgives : child.effects.gives .revoked p = false := by
            by_contra hrev
            exact hnone ⟨_, hmem, .inl (by simpa using hrev)⟩
          have hbelow : child.revokesBelow p = false := by
            by_contra hrev
            exact hnone ⟨_, hmem, .inr (by simpa using hrev)⟩
          refine (ih _ hmem _).mp ⟨?_, hbelow⟩ rest hrest'
          exact (Effects.or_eq_granted_iff _ _ _).mpr ⟨hgives, .inr hroot⟩
    · intro hall
      refine ⟨hall [] List.not_mem_nil, ?_⟩
      rintro ⟨⟨segment, child⟩, hmem, hrev⟩
      have hchild := (hwf.mem_children_iff segment child).mp hmem
      have hgranted := (ih _ hmem _).mpr fun rest hrest => by
        have hwalk := hall (segment :: rest) (hwf.noEmpty_cons hmem hrest)
        rw [resolve_cons, hchild] at hwalk
        exact hwalk
      obtain ⟨heffect, hbelow⟩ := hgranted
      rcases hrev with hrev | hrev
      · rw [((Effects.or_eq_granted_iff _ _ _).mp heffect).1] at hrev
        exact Bool.false_ne_true hrev
      · rw [hbelow] at hrev
        exact Bool.false_ne_true hrev

/-! ## Walking on from a node -/

/-- A walk down a path and further: from the node on the path it goes on with what that node
inherits, and without a node nothing changes any more. -/
theorem WellFormed.resolve_split {t : AccessTree} (h : t.WellFormed) (p : Permission)
    (inherited : Option Effect) (path : List String) :
    match t.resolve p inherited path with
    | (effect, some subtree) =>
      subtree.WellFormed ∧ ∃ passed, effect = (subtree.effects.on? p).or passed ∧
        ∀ rest, (t.resolve p inherited (path ++ rest)).1 = (subtree.resolve p passed rest).1
    | (effect, none) => ∀ rest, (t.resolve p inherited (path ++ rest)).1 = effect := by
  induction path generalizing t inherited with
  | nil => exact ⟨h, inherited, rfl, fun rest => rfl⟩
  | cons segment path ih =>
    simp only [List.cons_append, resolve_cons]
    cases hc : t.child? segment with
    | none => exact fun rest => rfl
    | some child => exact ih (h.child hc) _

/-- A permission is granted on a path or below it iff it is granted on some extension of the
path. -/
theorem WellFormed.grantsAtOrBelow_iff {t : AccessTree} (h : t.WellFormed) (p : Permission)
    (path : List String) :
    t.grantsAtOrBelow p path = true ↔
      ∃ rest, "" ∉ rest ∧ t.grants p (path ++ rest) = true := by
  have hsplit := h.resolve_split p none path
  unfold grantsAtOrBelow grants
  cases hr : t.resolve p none path with
  | mk effect node =>
    rw [hr] at hsplit
    cases node with
    | none =>
      simp only [hsplit]
      exact ⟨fun heffect => ⟨[], List.not_mem_nil, heffect⟩, fun ⟨_, _, heffect⟩ => heffect⟩
    | some subtree =>
      obtain ⟨hwf, passed, rfl, hrest⟩ := hsplit
      simp only [hrest, Bool.or_eq_true, decide_eq_true_iff]
      exact hwf.grants_or_grantsBelow_iff p passed

/-- A permission is granted on a path and revoked nowhere below it iff it is granted on every
extension of the path. -/
theorem WellFormed.grantsThroughout_iff {t : AccessTree} (h : t.WellFormed) (p : Permission)
    (path : List String) :
    t.grantsThroughout p path = true ↔
      ∀ rest, "" ∉ rest → t.grants p (path ++ rest) = true := by
  have hsplit := h.resolve_split p none path
  unfold grantsThroughout grants
  cases hr : t.resolve p none path with
  | mk effect node =>
    rw [hr] at hsplit
    cases node with
    | none =>
      simp only [hsplit]
      exact ⟨fun heffect _ _ => heffect, fun hall => hall [] List.not_mem_nil⟩
    | some subtree =>
      obtain ⟨hwf, passed, rfl, hrest⟩ := hsplit
      simp only [hrest, Bool.and_eq_true, Bool.not_eq_true', decide_eq_true_iff]
      exact hwf.grants_and_not_revokesBelow_iff p passed

/-- An empty tree grants nothing at a path or below it. -/
theorem grantsAtOrBelow_empty (p : Permission) (path : List String) :
    empty.grantsAtOrBelow p path = false := by
  cases path with
  | nil => rfl
  | cons segment rest => rfl

/-- An empty tree grants nothing throughout a path. -/
theorem grantsThroughout_empty (p : Permission) (path : List String) :
    empty.grantsThroughout p path = false := by
  cases path with
  | nil => rfl
  | cons segment rest => rfl

end AccessTree

/-! ## Keys below a key -/

/-- The key some segments further down. -/
def ResourceKey.extend (key : ResourceKey) (rest : List String) (h : "" ∉ rest) : ResourceKey :=
  { key with path := key.path.join ⟨rest, h⟩ }

/-- A key covers its extensions and no other keys. -/
theorem ResourceKey.covers_iff_extend (key below : ResourceKey) :
    key.covers below = true ↔ ∃ rest, ∃ h : "" ∉ rest, below = key.extend rest h := by
  rw [covers_iff]
  constructor
  · rintro ⟨htype, rest, hpath⟩
    have hrest : "" ∉ rest := fun hmem =>
      below.path.noEmpty (hpath ▸ List.mem_append_right _ hmem)
    refine ⟨rest, hrest, ?_⟩
    obtain ⟨_, ⟨_, _⟩, _⟩ := below
    obtain ⟨_, ⟨_, _⟩, _⟩ := key
    cases htype
    cases hpath
    rfl
  · rintro ⟨rest, h, rfl⟩
    exact ⟨rfl, List.prefix_append _ _⟩

/-! ## Decisions of enforcers -/

namespace Enforcer

variable {question : AccessTree → Permission → List String → Bool}

/-- The trees of built enforcers are well formed. -/
theorem wellFormed_tree_build (counts : Subject → Bool) (policy : Policy) (id : SubjectId)
    (type : String) : ((build counts policy).tree id type).WellFormed := by
  rw [tree_build]
  exact AccessTree.wellFormed_empty.addStatements type _

/-- A decision for a single subject asks the subject's tree. -/
theorem decide_single_iff (e : Enforcer) (hq : ∀ p path, question .empty p path = false)
    (id : SubjectId) (key : ResourceKey) (permissions : Permissions) :
    e.decide question (.single id) key permissions = true ↔
      permissions.isEmpty = false ∧ ∀ p, permissions.contains p = true →
        question (e.tree id key.type) p key.path.segments = true := by
  rw [decide_iff e hq]
  simp [Caller.single]

/-- The subjects for whom all permissions are granted are those that alone are granted all of
them. -/
theorem contains_subjectsWhere_eq (e : Enforcer) (hq : ∀ p path, question .empty p path = false)
    (key : ResourceKey) (permissions : Permissions) (id : SubjectId) :
    (e.subjectsWhere question key permissions).contains id =
      e.decide question (.single id) key permissions := by
  rw [Bool.eq_iff_iff, contains_subjectsWhere_iff e hq, decide_single_iff e hq]

/-- A single subject has a single permission iff the subject's tree grants it. -/
theorem hasPermission_single_iff (e : Enforcer) (id : SubjectId) (key : ResourceKey)
    (p : Permission) :
    e.hasPermission (.single id) key (.singleton p) = true ↔
      (e.tree id key.type).grants p key.path.segments = true := by
  unfold hasPermission
  rw [decide_single_iff e grants_empty]
  have hne : (KeySet.singleton p).isEmpty = false :=
    (KeySet.isEmpty_eq_false_iff _).mpr ⟨p, by simp⟩
  simp [hne]

/-- What is held without restriction is held below. -/
theorem hasPermission_of_hasUnrestrictedPermission {counts : Subject → Bool} {policy : Policy}
    {caller : Caller} {key below : ResourceKey} {permissions : Permissions}
    (h : (build counts policy).hasUnrestrictedPermission caller key permissions = true)
    (hcovers : key.covers below = true) :
    (build counts policy).hasPermission caller below permissions = true := by
  obtain ⟨rest, hrest, rfl⟩ := (ResourceKey.covers_iff_extend key below).mp hcovers
  obtain ⟨hne, hgrants⟩ := (decide_iff _ AccessTree.grantsThroughout_empty caller key _).mp h
  refine (decide_iff _ grants_empty caller _ _).mpr ⟨hne, fun p hp => ?_⟩
  obtain ⟨id, hid, hthroughout⟩ := hgrants p hp
  have hwf := wellFormed_tree_build counts policy id key.type
  exact ⟨id, hid, (hwf.grantsThroughout_iff p _).mp hthroughout rest hrest⟩

/-- What is held on a key below is held somewhere at or below. -/
theorem hasPermissionAtOrBelow_of_hasPermission {counts : Subject → Bool} {policy : Policy}
    {caller : Caller} {key below : ResourceKey} {permissions : Permissions}
    (h : (build counts policy).hasPermission caller below permissions = true)
    (hcovers : key.covers below = true) :
    (build counts policy).hasPermissionAtOrBelow caller key permissions = true := by
  obtain ⟨rest, hrest, rfl⟩ := (ResourceKey.covers_iff_extend key below).mp hcovers
  obtain ⟨hne, hgrants⟩ := (decide_iff _ grants_empty caller _ _).mp h
  refine (decide_iff _ AccessTree.grantsAtOrBelow_empty caller _ _).mpr ⟨hne, fun p hp => ?_⟩
  obtain ⟨id, hid, hgrant⟩ := hgrants p hp
  have hwf := wellFormed_tree_build counts policy id key.type
  exact ⟨id, hid, (hwf.grantsAtOrBelow_iff p _).mpr ⟨rest, hrest, hgrant⟩⟩

/-- What is held without restriction is so held on every key below. -/
theorem hasUnrestrictedPermission_of_covers {counts : Subject → Bool} {policy : Policy}
    {caller : Caller} {key below : ResourceKey} {permissions : Permissions}
    (h : (build counts policy).hasUnrestrictedPermission caller key permissions = true)
    (hcovers : key.covers below = true) :
    (build counts policy).hasUnrestrictedPermission caller below permissions = true := by
  obtain ⟨rest, hrest, rfl⟩ := (ResourceKey.covers_iff_extend key below).mp hcovers
  obtain ⟨hne, hgrants⟩ := (decide_iff _ AccessTree.grantsThroughout_empty caller key _).mp h
  refine (decide_iff _ AccessTree.grantsThroughout_empty caller _ _).mpr ⟨hne, fun p hp => ?_⟩
  obtain ⟨id, hid, hthroughout⟩ := hgrants p hp
  have hwf := wellFormed_tree_build counts policy id key.type
  refine ⟨id, hid, (hwf.grantsThroughout_iff p _).mpr fun further hfurther => ?_⟩
  have hnames : "" ∉ rest ++ further := by
    intro hmem
    rcases List.mem_append.mp hmem with hmem | hmem
    · exact hrest hmem
    · exact hfurther hmem
  have hgrant := (hwf.grantsThroughout_iff p _).mp hthroughout (rest ++ further) hnames
  rw [← List.append_assoc] at hgrant
  exact hgrant

/-- The decisions about a resource and what is below it, in terms of the decisions about all keys
below it: some permission is held at or below a key iff some single subject of the caller holds it
on some key there, and it is held without restriction iff some single subject of the caller holds it
on all of them. The sets of subjects are those of the subjects that alone pass the same check. -/
theorem subresource_decisions (counts : Subject → Bool) (policy : Policy) (key : ResourceKey)
    (permissions : Permissions) :
    (∀ caller : Caller,
      (build counts policy).hasPermissionAtOrBelow caller key permissions = true ↔
        permissions.isEmpty = false ∧ ∀ p, permissions.contains p = true →
          ∃ id, caller.ids.contains id = true ∧ ∃ q : ResourceKey, key.covers q = true ∧
            (build counts policy).hasPermission (.single id) q (.singleton p) = true) ∧
    (∀ caller : Caller,
      (build counts policy).hasUnrestrictedPermission caller key permissions = true ↔
        permissions.isEmpty = false ∧ ∀ p, permissions.contains p = true →
          ∃ id, caller.ids.contains id = true ∧ ∀ q : ResourceKey, key.covers q = true →
            (build counts policy).hasPermission (.single id) q (.singleton p) = true) ∧
    (∀ id : SubjectId,
      ((build counts policy).subjectsWith key permissions).contains id =
        (build counts policy).hasPermission (.single id) key permissions ∧
      ((build counts policy).subjectsWithPartial key permissions).contains id =
        (build counts policy).hasPermissionAtOrBelow (.single id) key permissions ∧
      ((build counts policy).subjectsWithUnrestricted key permissions).contains id =
        (build counts policy).hasUnrestrictedPermission (.single id) key permissions) := by
  have hwf := wellFormed_tree_build counts policy
  -- The tree answers for the extensions of a path, and these are the paths of the covered keys.
  refine ⟨fun caller => ?_, fun caller => ?_, fun id => ⟨?_, ?_, ?_⟩⟩
  · unfold hasPermissionAtOrBelow
    rw [decide_iff _ AccessTree.grantsAtOrBelow_empty]
    simp only [(hwf _ _).grantsAtOrBelow_iff, hasPermission_single_iff,
      ResourceKey.covers_iff_extend]
    refine and_congr_right fun _ => forall_congr' fun p => imp_congr_right fun _ =>
      exists_congr fun id => and_congr_right fun _ => ?_
    constructor
    · rintro ⟨rest, h, hgrant⟩
      exact ⟨_, ⟨rest, h, rfl⟩, hgrant⟩
    · rintro ⟨_, ⟨rest, h, rfl⟩, hgrant⟩
      exact ⟨rest, h, hgrant⟩
  · unfold hasUnrestrictedPermission
    rw [decide_iff _ AccessTree.grantsThroughout_empty]
    simp only [(hwf _ _).grantsThroughout_iff, hasPermission_single_iff,
      ResourceKey.covers_iff_extend]
    refine and_congr_right fun _ => forall_congr' fun p => imp_congr_right fun _ =>
      exists_congr fun id => and_congr_right fun _ => ?_
    constructor
    · rintro hall _ ⟨rest, h, rfl⟩
      exact hall rest h
    · intro hall rest h
      exact hall _ ⟨rest, h, rfl⟩
  · exact contains_subjectsWhere_eq _ grants_empty key permissions id
  · exact contains_subjectsWhere_eq _ AccessTree.grantsAtOrBelow_empty key permissions id
  · exact contains_subjectsWhere_eq _ AccessTree.grantsThroughout_empty key permissions id

/-- A policy by which the tenant may read a loft but not its features, except for one of them, the
stove. -/
def loftPolicy : Policy :=
  (Policy.new ⟨"org.example:loft", by decide⟩).setEntry
    { label := ⟨"tenants", by decide⟩
      body := ⟨Dict.empty.insert ⟨"nginx:tenant", by decide⟩ ⟨"generated", none⟩,
        ((Dict.empty.insert (.thing .root) ⟨.read, .empty⟩).insert
          (.thing (.ofSegments ["features"])) ⟨.empty, .read⟩).insert
          (.thing (.ofSegments ["features", "stove"])) ⟨.read, .empty⟩⟩ }

/-- A grant below a revoke, and a revoke below a grant: the tenant may not read the features, but
something among them, the stove, with everything that it has; and the tenant may read the loft, but
not all of it. -/
theorem subresource_decisions_loft :
    let tenant : SubjectId := ⟨"nginx:tenant", by decide⟩
    let features : ResourceKey := .thing (.ofSegments ["features"])
    let stove : ResourceKey := .thing (.ofSegments ["features", "stove"])
    let e := ofPolicy loftPolicy
    e.hasPermission (.single tenant) features .read = false ∧
      e.hasPermissionAtOrBelow (.single tenant) features .read = true ∧
      (e.subjectsWith features .read).contains tenant = false ∧
      (e.subjectsWithPartial features .read).contains tenant = true ∧
      e.hasPermission (.single tenant) (.thing .root) .read = true ∧
      e.hasUnrestrictedPermission (.single tenant) (.thing .root) .read = false ∧
      ∀ below, stove.covers below = true →
        e.hasPermission (.single tenant) below (.singleton .read) = true := by
  intro tenant features stove e
  obtain ⟨atOrBelow, -, sets⟩ := subresource_decisions (fun _ => true) loftPolicy features .read
  obtain ⟨-, throughout, -⟩ := subresource_decisions (fun _ => true) loftPolicy stove .read
  have hfeatures : e.hasPermission (.single tenant) features .read = false := by decide
  have hstove : ∀ p, Permissions.read.contains p = true →
      e.hasPermission (.single tenant) stove (.singleton p) = true := by
    intro p hp
    have hread : p = .read := by simpa [Permissions.read] using hp
    subst hread
    decide
  have hpartial : e.hasPermissionAtOrBelow (.single tenant) features .read = true :=
    (atOrBelow _).mpr
      ⟨rfl, fun p hp => ⟨tenant, by simp [Caller.single], stove, by decide, hstove p hp⟩⟩
  have hall : e.hasUnrestrictedPermission (.single tenant) stove .read = true := by decide
  refine ⟨hfeatures, hpartial, (sets tenant).1.trans hfeatures, (sets tenant).2.1.trans hpartial,
    by decide, by decide, fun below hbelow => ?_⟩
  -- The one subject that holds the permission on all keys below is the tenant.
  obtain ⟨id, hid, hheld⟩ := ((throughout _).mp hall).2 .read rfl
  have htenant : id = tenant := by simpa [Caller.single] using hid
  subst htenant
  exact hheld below hbelow

end Enforcer

end GuardedThings
