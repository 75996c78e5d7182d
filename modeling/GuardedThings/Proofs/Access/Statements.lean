import GuardedThings.Access.Enforcer
import GuardedThings.Proofs.Access.TreeContent

/-!
# What a policy says about a subject

The statements of a policy about a subject are the resources of all entries
that name it, with what they grant and revoke; which memberships count is a
parameter, as it is for the enforcers. Indexing a policy nests three loops
(entries, subjects, resources) and updates two dictionaries on the way. For one
subject and one resource type all of it comes down to a single loop: the tree
in the index is the empty tree with the statements of that type inserted one
after another (`tree_build`), and so it says what some statement says
(`gives_tree_build`). The questions put to an enforcer are questions to these
trees (`decide_iff`, `contains_subjectsWhere_iff`).
-/

set_option autoImplicit false

namespace GuardedThings

/-- A resource with what an entry grants and revokes on it. -/
abbrev Statement := ResourceKey × Effects

/-- What an entry says about a subject, if it names the subject and the membership counts. -/
def EntryBody.statements (counts : Subject → Bool) (body : EntryBody) (id : SubjectId) :
    List Statement :=
  if (body.subjects.get? id).any counts then body.resources.toList else []

/-- What the entries of a policy say about a subject. -/
def Policy.statements (counts : Subject → Bool) (policy : Policy) (id : SubjectId) :
    List Statement :=
  policy.entries.values.flatMap fun body => body.statements counts id

/-- A statement is a resource of an entry that names the subject by a membership that counts. -/
theorem Policy.mem_statements_iff (counts : Subject → Bool) (policy : Policy) (id : SubjectId)
    (key : ResourceKey) (e : Effects) :
    (key, e) ∈ policy.statements counts id ↔
      ∃ label body subject, policy.entries.get? label = some body ∧
        body.subjects.get? id = some subject ∧ counts subject = true ∧
        body.resources.get? key = some e := by
  simp only [statements, Dict.values, List.mem_flatMap, List.mem_map]
  constructor
  · rintro ⟨body, ⟨⟨label, _⟩, hmem, rfl⟩, h⟩
    unfold EntryBody.statements at h
    split at h
    · rename_i hany
      obtain ⟨subject, hs, hc⟩ := (Option.any_eq_true _ _).mp hany
      exact ⟨label, _, subject, (Dict.mem_toList_iff _ _ _).mp hmem, hs, hc,
        (Dict.mem_toList_iff _ _ _).mp h⟩
    · simp at h
  · rintro ⟨label, body, subject, hl, hs, hc, hk⟩
    refine ⟨body, ⟨(label, body), (Dict.mem_toList_iff _ _ _).mpr hl, rfl⟩, ?_⟩
    have hany : (body.subjects.get? id).any counts = true := by simp [hs, hc]
    rw [EntryBody.statements, if_pos hany]
    exact (Dict.mem_toList_iff _ _ _).mpr hk

/-! ## Inserting statements into a tree -/

namespace AccessTree

/-- The tree with the statements about resources of a type inserted. -/
def addStatements (t : AccessTree) (type : String) (statements : List Statement) : AccessTree :=
  statements.foldl (fun t s => if s.1.type = type then t.insert s.1.path.segments s.2 else t) t

/-- A tree with statements inserted says what it said before, and what they say. -/
theorem gives_addStatements (t : AccessTree) (type : String) (statements : List Statement)
    (effect : Effect) (p : Permission) (path : List String) :
    (t.addStatements type statements).gives effect p path = true ↔
      t.gives effect p path = true ∨
        ∃ s ∈ statements, s.1.type = type ∧ s.1.path.segments = path ∧
          s.2.gives effect p = true := by
  induction statements generalizing t with
  | nil => simp [addStatements]
  | cons s rest ih =>
    rw [addStatements, List.foldl_cons]
    by_cases hs : s.1.type = type
    · rw [if_pos hs]
      refine (ih _).trans ?_
      rw [gives_insert]
      simp [hs, or_assoc]
    · rw [if_neg hs]
      refine (ih t).trans ?_
      simp [hs]

end AccessTree

/-! ## The index of a policy -/

namespace AccessIndex

/-- The tree of a resource type; empty if there is none. -/
def tree (index : AccessIndex) (type : String) : AccessTree := (index.get? type).getD .empty

/-- A resource is entered into the tree of its own type. -/
theorem tree_addResource (index : AccessIndex) (key : ResourceKey) (e : Effects) (type : String) :
    (index.addResource key e).tree type =
      if key.type = type then (index.tree type).insert key.path.segments e
      else index.tree type := by
  unfold tree addResource
  rw [Dict.get?_insert]
  by_cases h : key.type = type
  · subst h
    simp
  · have h' : type ≠ key.type := fun eq => h eq.symm
    simp [h, h']

/-- Adding the resources of an entry inserts them as statements. -/
theorem tree_addResources (index : AccessIndex) (resources : Resources) (type : String) :
    (index.addResources resources).tree type =
      (index.tree type).addStatements type resources.toList := by
  unfold addResources AccessTree.addStatements
  generalize resources.toList = statements
  induction statements generalizing index with
  | nil => rfl
  | cons s rest ih =>
    obtain ⟨key, e⟩ := s
    rw [List.foldl_cons, List.foldl_cons, ih, tree_addResource]

/-- A question that the empty tree answers with no is a question to the tree of the key's type. -/
theorem ask_eq (index : AccessIndex) {question : AccessTree → Permission → List String → Bool}
    (hq : ∀ p path, question .empty p path = false) (key : ResourceKey) (p : Permission) :
    index.ask question key p = question (index.tree key.type) p key.path.segments := by
  unfold ask tree
  cases index.get? key.type with
  | none => exact (hq p _).symm
  | some t => rfl

end AccessIndex

namespace Enforcer

/-- The index of a subject; empty if there is none. -/
def indexOf (subjects : Dict SubjectId AccessIndex) (id : SubjectId) : AccessIndex :=
  (subjects.get? id).getD .empty

/-- The tree of a subject and a resource type; empty if there is none. -/
def tree (e : Enforcer) (id : SubjectId) (type : String) : AccessTree :=
  (indexOf e.subjects id).tree type

/-- Adding an entry adds its resources to the index of each subject whose membership counts. -/
theorem indexOf_addEntry (counts : Subject → Bool) (subjects : Dict SubjectId AccessIndex)
    (body : EntryBody) (id : SubjectId) :
    indexOf (addEntry counts subjects body) id =
      if (body.subjects.get? id).any counts then
        (indexOf subjects id).addResources body.resources
      else indexOf subjects id := by
  unfold addEntry
  show _ = if (Assoc.get? id body.subjects.toList).any counts = true then _ else _
  have hsorted := body.subjects.sorted
  generalize body.subjects.toList = members at hsorted
  induction members generalizing subjects with
  | nil => rfl
  | cons member rest ih =>
    obtain ⟨id', subject⟩ := member
    obtain ⟨hbefore, hrest⟩ := Assoc.sorted_cons.mp hsorted
    rw [List.foldl_cons, ih _ hrest, Assoc.get?_cons]
    by_cases hid : id' = id
    · -- the ids ascend, so the subject is not met again
      subst hid
      have hnone : Assoc.get? id' rest = none :=
        Assoc.get?_eq_none_of_forall fun entry hmem => (hbefore entry hmem).ne.symm
      rw [hnone]
      by_cases hc : counts subject = true
      · simp [hc, indexOf]
      · simp [hc]
    · have hne : id ≠ id' := fun eq => hid eq.symm
      by_cases hc : counts subject = true
      · simp [hc, hid, indexOf, Dict.get?_insert_of_ne _ hne]
      · simp [hc, hid]

/-- Adding an entry inserts what it says about a subject into the subject's tree. -/
theorem tree_addEntry (counts : Subject → Bool) (subjects : Dict SubjectId AccessIndex)
    (body : EntryBody) (id : SubjectId) (type : String) :
    (indexOf (addEntry counts subjects body) id).tree type =
      ((indexOf subjects id).tree type).addStatements type (body.statements counts id) := by
  rw [indexOf_addEntry, EntryBody.statements]
  by_cases h : (body.subjects.get? id).any counts = true
  · rw [if_pos h, if_pos h, AccessIndex.tree_addResources]
  · rw [if_neg h, if_neg h]
    rfl

/-- The tree of a subject and a type holds the statements of that type about the subject. -/
theorem tree_build (counts : Subject → Bool) (policy : Policy) (id : SubjectId) (type : String) :
    (build counts policy).tree id type =
      AccessTree.empty.addStatements type (policy.statements counts id) := by
  have key : ∀ (bodies : List EntryBody) (subjects : Dict SubjectId AccessIndex),
      (indexOf (bodies.foldl (addEntry counts) subjects) id).tree type =
        ((indexOf subjects id).tree type).addStatements type
          (bodies.flatMap fun body => body.statements counts id) := by
    intro bodies
    induction bodies with
    | nil => intro subjects; rfl
    | cons body rest ih =>
      intro subjects
      rw [List.foldl_cons, ih, tree_addEntry, List.flatMap_cons]
      unfold AccessTree.addStatements
      rw [List.foldl_append]
  exact key policy.entries.values .empty

/-- The tree of a subject says what some statement about the subject says. -/
theorem gives_tree_build (counts : Subject → Bool) (policy : Policy) (id : SubjectId)
    (type : String) (effect : Effect) (p : Permission) (path : List String) :
    ((build counts policy).tree id type).gives effect p path = true ↔
      ∃ s ∈ policy.statements counts id, s.1.type = type ∧ s.1.path.segments = path ∧
        s.2.gives effect p = true := by
  rw [tree_build, AccessTree.gives_addStatements]
  simp

/-! ## Questions to an enforcer -/

variable {question : AccessTree → Permission → List String → Bool}

/-- A subject without an index is answered as by an empty tree. -/
theorem any_ask_eq (e : Enforcer) (hq : ∀ p path, question .empty p path = false)
    (id : SubjectId) (key : ResourceKey) (p : Permission) :
    (e.subjects.get? id).any (fun index => index.ask question key p) =
      question (e.tree id key.type) p key.path.segments := by
  unfold tree indexOf
  cases e.subjects.get? id with
  | none => exact (hq p _).symm
  | some index => exact AccessIndex.ask_eq index hq key p

/-- A decision asks, for each permission, the trees of the caller's subjects. -/
theorem decide_iff (e : Enforcer) (hq : ∀ p path, question .empty p path = false)
    (caller : Caller) (key : ResourceKey) (permissions : Permissions) :
    e.decide question caller key permissions = true ↔
      permissions.isEmpty = false ∧ ∀ p, permissions.contains p = true →
        ∃ id, caller.ids.contains id = true ∧
          question (e.tree id key.type) p key.path.segments = true := by
  unfold decide indexes
  simp only [Bool.and_eq_true, Bool.not_eq_true', List.all_eq_true, KeySet.contains_iff_mem]
  refine and_congr_right fun _ => forall_congr' fun p => imp_congr_right fun _ => ?_
  simp only [← any_ask_eq e hq, List.any_eq_true, List.mem_filterMap, Option.any_eq_true]
  constructor
  · rintro ⟨index, ⟨id, hid, hindex⟩, hask⟩
    exact ⟨id, hid, index, hindex, hask⟩
  · rintro ⟨id, hid, index, hindex, hask⟩
    exact ⟨index, ⟨id, hid, hindex⟩, hask⟩

/-- The subjects for whom a question is answered with yes for all permissions. -/
theorem contains_subjectsWhere_iff (e : Enforcer)
    (hq : ∀ p path, question .empty p path = false) (key : ResourceKey)
    (permissions : Permissions) (id : SubjectId) :
    (e.subjectsWhere question key permissions).contains id = true ↔
      permissions.isEmpty = false ∧ ∀ p, permissions.contains p = true →
        question (e.tree id key.type) p key.path.segments = true := by
  unfold subjectsWhere
  cases hempty : permissions.isEmpty with
  | true => simp [KeySet.contains, KeySet.empty, Dict.contains]
  | false =>
    obtain ⟨p, hp⟩ := (KeySet.isEmpty_eq_false_iff permissions).mp hempty
    simp only [if_neg Bool.false_ne_true, true_and, KeySet.contains, Dict.contains,
      Dict.get?_mapValues, Dict.get?_filter, Option.isSome_map]
    simp only [← any_ask_eq e hq]
    cases hindex : e.subjects.get? id with
    | none =>
      simp only [Option.filter_none, Option.isSome_none, Option.any_none]
      exact ⟨fun h => absurd h Bool.false_ne_true, fun h => h p hp⟩
    | some index =>
      rw [Option.isSome_filter]
      simp only [Option.any_some, List.all_eq_true, ← KeySet.contains_iff_mem]
      rfl

end Enforcer

end GuardedThings
