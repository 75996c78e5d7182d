import GuardedThings.Permission

/-!
# Access trees

An access tree holds, path by path, what is granted and revoked to one subject
on the resources of one type. The effect on a path is that of the deepest node
on the way to it that says anything about the permission; at a node that both
grants and revokes it, the revoke wins.
-/

set_option autoImplicit false

namespace GuardedThings

/-- What is said about a permission. -/
inductive Effect where
  | granted
  | revoked
deriving DecidableEq

/-- What effects say about a permission, if anything. -/
def Effects.on? (e : Effects) (p : Permission) : Option Effect :=
  if e.revoke.contains p then some .revoked
  else if e.grant.contains p then some .granted
  else none

/-- The effects of both. -/
def Effects.merge (a b : Effects) : Effects := ⟨a.grant.union b.grant, a.revoke.union b.revoke⟩

/-- The effects on a path and on the paths below it. -/
inductive AccessTree where
  | node (effects : Effects) (children : List (String × AccessTree))

namespace AccessTree

instance : Inhabited AccessTree := ⟨.node .empty []⟩

/-- The tree that says nothing. -/
def empty : AccessTree := .node .empty []

/-- The effects on the path of the tree's root. -/
def effects : AccessTree → Effects
  | .node effects _ => effects

/-- The trees one segment deeper, by segment. -/
def children : AccessTree → List (String × AccessTree)
  | .node _ children => children

/-- The tree one segment deeper. -/
def child? (t : AccessTree) (segment : String) : Option AccessTree := Assoc.get? segment t.children

/-- The tree with effects added on a path. -/
def insert (t : AccessTree) (path : List String) (e : Effects) : AccessTree :=
  match path with
  | [] => .node (t.effects.merge e) t.children
  | segment :: rest =>
    let child := (t.child? segment).getD empty
    .node t.effects (Assoc.insert segment (child.insert rest e) t.children)

/-- The effect on a path, starting from what is inherited, and the tree there, if there is one. -/
def resolve (t : AccessTree) (p : Permission) (inherited : Option Effect) :
    List String → Option Effect × Option AccessTree
  | [] => ((t.effects.on? p).or inherited, some t)
  | segment :: rest =>
    let effect := (t.effects.on? p).or inherited
    match t.child? segment with
    | some child => child.resolve p effect rest
    | none => (effect, none)

mutual

/-- Whether the permission is granted somewhere below the root. -/
def grantsBelow (p : Permission) (inherited : Option Effect) : AccessTree → Bool
  | .node _ children => someChildGrants p inherited children

/-- Whether the permission is granted at or below one of the children. -/
def someChildGrants (p : Permission) (inherited : Option Effect) :
    List (String × AccessTree) → Bool
  | [] => false
  | (_, child) :: rest =>
    let effect := (child.effects.on? p).or inherited
    effect = some .granted || child.grantsBelow p effect || someChildGrants p inherited rest

end

mutual

/-- Whether the permission is revoked somewhere below the root. -/
def revokesBelow (p : Permission) : AccessTree → Bool
  | .node _ children => someChildRevokes p children

/-- Whether the permission is revoked at or below one of the children. -/
def someChildRevokes (p : Permission) : List (String × AccessTree) → Bool
  | [] => false
  | (_, child) :: rest =>
    child.effects.revoke.contains p || child.revokesBelow p || someChildRevokes p rest

end

/-- Whether the permission is granted on a path. -/
def grants (t : AccessTree) (p : Permission) (path : List String) : Bool :=
  (t.resolve p none path).1 = some .granted

/-- Whether the permission is granted on a path or below it. -/
def grantsAtOrBelow (t : AccessTree) (p : Permission) (path : List String) : Bool :=
  match t.resolve p none path with
  | (effect, none) => effect = some .granted
  | (effect, some subtree) => effect = some .granted || subtree.grantsBelow p effect

/-- Whether the permission is granted on a path and revoked nowhere below it. -/
def grantsThroughout (t : AccessTree) (p : Permission) (path : List String) : Bool :=
  match t.resolve p none path with
  | (effect, none) => effect = some .granted
  | (effect, some subtree) => effect = some .granted && !subtree.revokesBelow p

end AccessTree

end GuardedThings
