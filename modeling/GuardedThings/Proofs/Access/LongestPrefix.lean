import GuardedThings.Proofs.Access.Statements

/-!
# The longest prefix decides

The rule by which permissions are granted, computed on a policy without any
tree: of the resources at or above a key, the longest path that grants a
permission is compared with the longest that revokes it, and the grant has to
be strictly longer. Enforcers answer by walking a tree with an inherited
effect. Both say the same (`grants_tree_iff`), because each amounts to a grant
on the way that is longer than every revoke on the way
(`AccessTree.resolve_granted_iff`, `Policy.grantsByLongestPrefix_iff`).
-/

set_option autoImplicit false

namespace GuardedThings

/-- Whether `key` is the resource `on` itself or below it. -/
def ResourceKey.covers (on key : ResourceKey) : Bool :=
  decide (on.type = key.type) && key.path.startsWith on.path

/-- A key covers the keys of its type whose path starts with its own. -/
theorem ResourceKey.covers_iff (on key : ResourceKey) :
    on.covers key = true ↔ on.type = key.type ∧ on.path.segments <+: key.path.segments := by
  unfold covers Pointer.startsWith
  rw [Bool.and_eq_true, decide_eq_true_iff, List.isPrefixOf_iff_prefix]

namespace Statement

/-- The statements about resources at or above `key` that have an effect on a permission. -/
def relevant (statements : List Statement) (key : ResourceKey) (effect : Effect)
    (p : Permission) : List Statement :=
  statements.filter fun s => s.1.covers key && s.2.gives effect p

/-- The greatest path length of the relevant statements. -/
def deepest? (statements : List Statement) (key : ResourceKey) (effect : Effect)
    (p : Permission) : Option Nat :=
  ((relevant statements key effect p).map fun s => s.1.path.level).max?

/-- The longest prefix decides: a permission is granted if the longest path that grants it is longer
than the longest path that revokes it. -/
def grantedByLongestPrefix (statements : List Statement) (key : ResourceKey)
    (p : Permission) : Bool :=
  match deepest? statements key .granted p, deepest? statements key .revoked p with
  | none, _ => false
  | some _, none => true
  | some g, some r => decide (r < g)

/-- Without a relevant statement there is no deepest one. -/
theorem deepest?_eq_none_iff (statements : List Statement) (key : ResourceKey)
    (effect : Effect) (p : Permission) :
    deepest? statements key effect p = none ↔ relevant statements key effect p = [] := by
  unfold deepest?
  rw [List.max?_eq_none_iff, List.map_eq_nil_iff]

/-- The greatest path length is that of a relevant statement, and no other is greater. -/
theorem deepest?_eq_some_iff (statements : List Statement) (key : ResourceKey)
    (effect : Effect) (p : Permission) (n : Nat) :
    deepest? statements key effect p = some n ↔
      (∃ s ∈ relevant statements key effect p, s.1.path.level = n) ∧
        ∀ s ∈ relevant statements key effect p, s.1.path.level ≤ n := by
  unfold deepest?
  rw [List.max?_eq_some_iff, List.mem_map, List.forall_mem_map]

/-- The rule says that some grant is longer than every revoke. -/
theorem grantedByLongestPrefix_iff (statements : List Statement) (key : ResourceKey)
    (p : Permission) :
    grantedByLongestPrefix statements key p = true ↔
      ∃ g ∈ relevant statements key .granted p, ∀ r ∈ relevant statements key .revoked p,
        r.1.path.level < g.1.path.level := by
  unfold grantedByLongestPrefix
  cases hg : deepest? statements key .granted p with
  | none =>
    rw [deepest?_eq_none_iff] at hg
    simp [hg]
  | some n =>
    obtain ⟨⟨g, hgmem, rfl⟩, hgmax⟩ := (deepest?_eq_some_iff _ _ _ _ _).mp hg
    cases hr : deepest? statements key .revoked p with
    | none =>
      rw [deepest?_eq_none_iff] at hr
      simp only [hr, List.not_mem_nil, false_implies, implies_true, and_true, true_iff]
      exact ⟨g, hgmem⟩
    | some m =>
      obtain ⟨⟨r, hrmem, rfl⟩, hrmax⟩ := (deepest?_eq_some_iff _ _ _ _ _).mp hr
      rw [decide_eq_true_iff]
      constructor
      · intro hlt
        exact ⟨g, hgmem, fun r' hr' => Nat.lt_of_le_of_lt (hrmax r' hr') hlt⟩
      · rintro ⟨g', hg', hall⟩
        exact Nat.lt_of_lt_of_le (hall r hrmem) (hgmax g' hg')

end Statement

namespace Policy

/-- Whether a policy grants a permission on a resource to a subject, by the longest prefix rule on
the statements of the memberships that count. -/
def grantsByLongestPrefix (counts : Subject → Bool) (policy : Policy) (id : SubjectId)
    (key : ResourceKey) (p : Permission) : Bool :=
  Statement.grantedByLongestPrefix (policy.statements counts id) key p

/-- Some entry that names the subject gives a permission this effect on exactly this resource. -/
def Gives (counts : Subject → Bool) (policy : Policy) (id : SubjectId) (on : ResourceKey)
    (effect : Effect) (p : Permission) : Prop :=
  ∃ e, (on, e) ∈ policy.statements counts id ∧ e.gives effect p = true

variable {counts : Subject → Bool} {policy other : Policy} {id : SubjectId} {key : ResourceKey}
  {p : Permission}

/-- A resource has a relevant statement iff it covers the key and the policy says so. -/
theorem exists_relevant_iff {on : ResourceKey} {effect : Effect} :
    (∃ e, (on, e) ∈ Statement.relevant (policy.statements counts id) key effect p) ↔
      on.covers key = true ∧ policy.Gives counts id on effect p := by
  simp only [Statement.relevant, List.mem_filter, Bool.and_eq_true]
  constructor
  · rintro ⟨e, hmem, hcovers, hgives⟩
    exact ⟨hcovers, e, hmem, hgives⟩
  · rintro ⟨hcovers, e, hmem, hgives⟩
    exact ⟨e, hmem, hcovers, hgives⟩

/-- The rule in terms of what the policy says: some resource at or above the key grants the
permission, and all those that revoke it have shorter paths. -/
theorem grantsByLongestPrefix_iff :
    policy.grantsByLongestPrefix counts id key p = true ↔
      ∃ g : ResourceKey, g.covers key = true ∧ policy.Gives counts id g .granted p ∧
        ∀ r : ResourceKey, r.covers key = true → policy.Gives counts id r .revoked p →
          r.path.level < g.path.level := by
  unfold grantsByLongestPrefix
  rw [Statement.grantedByLongestPrefix_iff]
  constructor
  · rintro ⟨⟨g, e⟩, hg, hall⟩
    obtain ⟨hcovers, hgives⟩ := exists_relevant_iff.mp ⟨e, hg⟩
    refine ⟨g, hcovers, hgives, fun r hr hrev => ?_⟩
    obtain ⟨e', hr'⟩ := exists_relevant_iff.mpr ⟨hr, hrev⟩
    exact hall (r, e') hr'
  · rintro ⟨g, hcovers, hgives, hall⟩
    obtain ⟨e, hg⟩ := exists_relevant_iff.mpr ⟨hcovers, hgives⟩
    refine ⟨(g, e), hg, fun ⟨r, e'⟩ hr => ?_⟩
    obtain ⟨hr', hrev⟩ := exists_relevant_iff.mp ⟨e', hr⟩
    exact hall r hr' hrev

/-- The rule depends on nothing but what is granted and revoked to the subject on resources of the
key's type: neither on the entries that say it nor on their number and order. -/
theorem grantsByLongestPrefix_congr
    (h : ∀ (on : ResourceKey) (effect : Effect), on.type = key.type →
      (policy.Gives counts id on effect p ↔ other.Gives counts id on effect p)) :
    policy.grantsByLongestPrefix counts id key p =
      other.grantsByLongestPrefix counts id key p := by
  have hcovers : ∀ (on : ResourceKey) (effect : Effect), on.covers key = true →
      (policy.Gives counts id on effect p ↔ other.Gives counts id on effect p) :=
    fun on effect hon => h on effect ((ResourceKey.covers_iff on key).mp hon).1
  rw [Bool.eq_iff_iff, grantsByLongestPrefix_iff, grantsByLongestPrefix_iff]
  constructor
  · rintro ⟨g, hg, hgives, hall⟩
    refine ⟨g, hg, (hcovers g _ hg).mp hgives, fun r hr hrev => ?_⟩
    exact hall r hr ((hcovers r _ hr).mpr hrev)
  · rintro ⟨g, hg, hgives, hall⟩
    refine ⟨g, hg, (hcovers g _ hg).mpr hgives, fun r hr hrev => ?_⟩
    exact hall r hr ((hcovers r _ hr).mp hrev)

end Policy

namespace Enforcer

/-- The paths on the way to a key on which the tree of a subject says something are those of the
resources about which the policy says it. -/
theorem gives_tree_prefix_iff (counts : Subject → Bool) (policy : Policy) (id : SubjectId)
    (key : ResourceKey) (effect : Effect) (p : Permission) (path : List String) :
    (path <+: key.path.segments ∧
      ((build counts policy).tree id key.type).gives effect p path = true) ↔
      ∃ on : ResourceKey, on.covers key = true ∧ policy.Gives counts id on effect p ∧
        on.path.segments = path := by
  simp only [gives_tree_build, ResourceKey.covers_iff, Policy.Gives]
  constructor
  · rintro ⟨hpre, ⟨on, e⟩, hmem, htype, rfl, hgives⟩
    exact ⟨on, ⟨htype, hpre⟩, ⟨e, hmem, hgives⟩, rfl⟩
  · rintro ⟨on, ⟨htype, hpre⟩, ⟨e, hmem, hgives⟩, rfl⟩
    exact ⟨hpre, (on, e), hmem, htype, rfl, hgives⟩

/-- The walk down the tree of a subject and the longest prefix rule agree. -/
theorem grants_tree_iff (counts : Subject → Bool) (policy : Policy) (id : SubjectId)
    (key : ResourceKey) (p : Permission) :
    ((build counts policy).tree id key.type).grants p key.path.segments = true ↔
      policy.grantsByLongestPrefix counts id key p = true := by
  have hgives := gives_tree_prefix_iff counts policy id key
  unfold AccessTree.grants
  rw [decide_eq_true_iff, AccessTree.resolve_granted_iff, Policy.grantsByLongestPrefix_iff]
  constructor
  · rintro (⟨path, hpre, hgrant, hall⟩ | ⟨hnone, -⟩)
    · obtain ⟨g, hg, hg', rfl⟩ := (hgives .granted p path).mp ⟨hpre, hgrant⟩
      refine ⟨g, hg, hg', fun r hr hrev => ?_⟩
      obtain ⟨hr', hrev'⟩ := (hgives .revoked p _).mpr ⟨r, hr, hrev, rfl⟩
      exact hall _ hr' hrev'
    · cases hnone
  · rintro ⟨g, hg, hg', hall⟩
    obtain ⟨hpre, hgrant⟩ := (hgives .granted p _).mpr ⟨g, hg, hg', rfl⟩
    refine .inl ⟨_, hpre, hgrant, fun path hr hrev => ?_⟩
    obtain ⟨r, hr', hrev', rfl⟩ := (hgives .revoked p path).mp ⟨hr, hrev⟩
    exact hall r hr' hrev'

/-- An empty tree grants nothing. -/
theorem grants_empty (p : Permission) (path : List String) :
    AccessTree.empty.grants p path = false := by
  unfold AccessTree.grants
  rw [AccessTree.resolve_empty_fst]
  rfl

/-- The decisions of an enforcer are those of the longest prefix rule. -/
theorem hasPermission_build_iff (counts : Subject → Bool) (policy : Policy) (caller : Caller)
    (key : ResourceKey) (permissions : Permissions) :
    (build counts policy).hasPermission caller key permissions = true ↔
      permissions.isEmpty = false ∧ ∀ p, permissions.contains p = true →
        ∃ id, caller.ids.contains id = true ∧
          policy.grantsByLongestPrefix counts id key p = true := by
  unfold hasPermission
  rw [decide_iff _ grants_empty]
  simp only [grants_tree_iff]

/-- The subjects that hold permissions are those to whom the longest prefix rule grants them. -/
theorem contains_subjectsWith_build_iff (counts : Subject → Bool) (policy : Policy)
    (key : ResourceKey) (permissions : Permissions) (id : SubjectId) :
    ((build counts policy).subjectsWith key permissions).contains id = true ↔
      permissions.isEmpty = false ∧ ∀ p, permissions.contains p = true →
        policy.grantsByLongestPrefix counts id key p = true := by
  unfold subjectsWith
  rw [contains_subjectsWhere_iff _ grants_empty]
  simp only [grants_tree_iff]

/-- An enforcer of all subjects grants a set of permissions iff the set is not empty and the longest
prefix rule grants each of them to some subject of the caller. The answer is the same for all
policies that grant and revoke the same to the caller's subjects on resources of the key's type. -/
theorem hasPermission_eq_longestPrefix (policy : Policy) (caller : Caller) (key : ResourceKey)
    (permissions : Permissions) :
    ((ofPolicy policy).hasPermission caller key permissions = true ↔
      permissions.isEmpty = false ∧ ∀ p, permissions.contains p = true →
        ∃ id, caller.ids.contains id = true ∧
          policy.grantsByLongestPrefix (fun _ => true) id key p = true) ∧
    ∀ other : Policy,
      (∀ (id : SubjectId) (on : ResourceKey) (effect : Effect) (p : Permission),
        caller.ids.contains id = true → on.type = key.type →
          (policy.Gives (fun _ => true) id on effect p ↔
            other.Gives (fun _ => true) id on effect p)) →
      (ofPolicy other).hasPermission caller key permissions =
        (ofPolicy policy).hasPermission caller key permissions := by
  refine ⟨hasPermission_build_iff _ policy caller key permissions, fun other h => ?_⟩
  unfold ofPolicy
  rw [Bool.eq_iff_iff, hasPermission_build_iff, hasPermission_build_iff]
  refine and_congr_right fun _ => forall_congr' fun p => imp_congr_right fun _ => ?_
  refine exists_congr fun id => and_congr_right fun hid => ?_
  rw [Policy.grantsByLongestPrefix_congr fun on effect hon => h id on effect p hid hon]

/-- A resource is granted as a whole and revoked in a part, by one entry. -/
def groupedPolicy : Policy :=
  (Policy.new ⟨"org.example:lamp", by decide⟩).setEntry
    { label := ⟨"user", by decide⟩
      body := ⟨Dict.empty.insert ⟨"nginx:user", by decide⟩ ⟨"generated", none⟩,
        (Dict.empty.insert (.thing .root) ⟨.read, .empty⟩).insert
          (.thing (.ofSegments ["features"])) ⟨.empty, .read⟩⟩ }

/-- The same is said by two entries. -/
def ungroupedPolicy : Policy :=
  ((Policy.new ⟨"org.example:lamp", by decide⟩).setEntry
    { label := ⟨"all", by decide⟩
      body := ⟨Dict.empty.insert ⟨"nginx:user", by decide⟩ ⟨"generated", none⟩,
        Dict.empty.insert (.thing .root) ⟨.read, .empty⟩⟩ }).setEntry
    { label := ⟨"but", by decide⟩
      body := ⟨Dict.empty.insert ⟨"nginx:user", by decide⟩ ⟨"generated", none⟩,
        Dict.empty.insert (.thing (.ofSegments ["features"])) ⟨.empty, .read⟩⟩ }

/-- Reading an attribute is granted by the rule, and reading a feature is decided alike whether the
statements stand in one entry or in two. -/
theorem hasPermission_groupedPolicy :
    (∀ p, Permissions.read.contains p = true →
      ∃ id, (Caller.single ⟨"nginx:user", by decide⟩).ids.contains id = true ∧
        groupedPolicy.grantsByLongestPrefix (fun _ => true) id
          (.thing (.ofSegments ["attributes"])) p = true) ∧
    (ofPolicy ungroupedPolicy).hasPermission (.single ⟨"nginx:user", by decide⟩)
        (.thing (.ofSegments ["features", "lamp"])) .read =
      (ofPolicy groupedPolicy).hasPermission (.single ⟨"nginx:user", by decide⟩)
        (.thing (.ofSegments ["features", "lamp"])) .read := by
  constructor
  · have hattributes := (hasPermission_eq_longestPrefix groupedPolicy
      (.single ⟨"nginx:user", by decide⟩) (.thing (.ofSegments ["attributes"])) .read).1
    exact (hattributes.mp (by decide)).2
  · refine (hasPermission_eq_longestPrefix groupedPolicy (.single ⟨"nginx:user", by decide⟩)
      (.thing (.ofSegments ["features", "lamp"])) .read).2 ungroupedPolicy ?_
    intro id on effect p hid _
    have huser : id = ⟨"nginx:user", by decide⟩ := by simpa [Caller.single] using hid
    have hsame : groupedPolicy.statements (fun _ => true) ⟨"nginx:user", by decide⟩ =
        ungroupedPolicy.statements (fun _ => true) ⟨"nginx:user", by decide⟩ := by decide
    subst huser
    unfold Policy.Gives
    rw [hsame]

end Enforcer

end GuardedThings
