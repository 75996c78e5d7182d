import GuardedThings.Proofs.Access.NestedParts
import GuardedThings.Proofs.Policy.PartTags

/-!
# Addresses of policy parts

A policy holds its entries, an entry its subjects and its resources, and these
hold the single ones. A resource also holds what is said about the resources
below it, which is protected below it (`PolicyPart.holder?`).

Labels, subject ids and the segments of a resource's path are each one name of the
address, whatever slashes or colons they contain, and the type of the resource is
one too. So the address of a part spells the way to it (`PolicyPart.spelled`).
-/

set_option autoImplicit false

namespace GuardedThings.PolicyPart

/-- The part that holds a single resource: the resource one name above, or all resources. -/
def resourceHolder (l : Label) (key : ResourceKey) : PolicyPart :=
  match key.path.parent? with
  | some above => resource l { key with path := above }
  | none => resources l

/-- The part that holds a part; none holds the whole. -/
def holder? : PolicyPart → Option PolicyPart
  | whole => none
  | entries => some whole
  | entry _ => some entries
  | subjects l | resources l => some (entry l)
  | subject l _ => some (subjects l)
  | resource l key => some (resourceHolder l key)

/-- The names of a single resource are one more than those of what holds it. -/
theorem resourceNames_resource (l : Label) (key : ResourceKey) :
    ∃ name, (resource l key).resourceNames = (resourceHolder l key).resourceNames ++ [name] := by
  unfold resourceHolder
  cases habove : key.path.parent? with
  | none =>
    refine ⟨key.type ++ ":", ?_⟩
    show ["entries", l.text, "resources", key.type ++ ":"] ++ key.path.segments = _
    rw [Pointer.segments_of_parent?_none habove]
    rfl
  | some above =>
    obtain ⟨name, hsegments⟩ := Pointer.segments_of_parent? habove
    refine ⟨name, ?_⟩
    show ["entries", l.text, "resources", key.type ++ ":"] ++ key.path.segments = _
    rw [hsegments]
    rfl

/-- The names of a part are one more than those of what holds it. -/
theorem resourceNames_of_holder? {part holder : PolicyPart} (h : part.holder? = some holder) :
    ∃ name, part.resourceNames = holder.resourceNames ++ [name] := by
  cases part with
  | whole => cases h
  | entries =>
    cases h
    exact ⟨"entries", rfl⟩
  | entry l =>
    cases h
    exact ⟨l.text, rfl⟩
  | subjects l =>
    cases h
    exact ⟨"subjects", rfl⟩
  | subject l id =>
    cases h
    exact ⟨id.text, rfl⟩
  | resources l =>
    cases h
    exact ⟨"resources", rfl⟩
  | resource l key =>
    cases h
    exact resourceNames_resource l key

/-- Every part of a policy has its own address, which spells the way to it. -/
theorem spelled : Spelled holder? (fun _ => True) resourceNames where
  top part h := by
    cases part with
    | whole => rfl
    | entries | entry _ | subjects _ | subject _ _ | resources _ | resource _ _ => cases h
  up _ _ h := resourceNames_of_holder? h
  placed_up _ _ _ _ := trivial
  injective _ _ _ _ h := resourceNames_injective h

/-- Resource keys are faithful to the parts of policies. -/
theorem faithful (part part' : PolicyPart) : Faithful holder? resourceKey part part' :=
  spelled.faithful (fun _ _ => rfl) segments_resourcePath trivial trivial

/-- The key of a part covers the keys of the parts inside it. -/
theorem covers_of_inside {part part' : PolicyPart} (inside : Inside holder? part part') :
    part.resourceKey.covers part'.resourceKey = true :=
  spelled.covers_of_inside (fun _ _ => rfl) segments_resourcePath inside

end GuardedThings.PolicyPart
