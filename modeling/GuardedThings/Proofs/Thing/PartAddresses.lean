import GuardedThings.Proofs.Access.NestedParts
import GuardedThings.Proofs.Thing.DocumentEdits

/-!
# Addresses of thing parts

A thing holds its policy id, its definition, its attributes and its features, a
feature holds its two sides, and attributes and sides hold what pointers find in
them, at every depth (`ThingPart.holder?`). The address of a part spells the way
to it (`ThingPart.spelled`).

A pointer to an object itself is no pointer to something in it. Such a misplaced
part stands where the object does, so only the other parts have addresses of
their own.
-/

set_option autoImplicit false

namespace GuardedThings

/-- The two sides of a feature have different names. -/
theorem PropertySide.memberName_injective {side side' : PropertySide}
    (h : side.memberName = side'.memberName) : side = side' := by
  cases side with
  | reported =>
    cases side' with
    | reported => rfl
    | desired => simp [memberName] at h
  | desired =>
    cases side' with
    | reported => simp [memberName] at h
    | desired => rfl

namespace ThingPart

/-- The part that holds what a pointer finds in an object: what the pointer one name above finds,
the object for a single name, and the holder of the object for the object itself. -/
def pointerHolder (holder object : ThingPart) (inside : Pointer → ThingPart) (p : Pointer) :
    ThingPart :=
  match p.parent? with
  | none => holder
  | some above => if above.isRoot then object else inside above

/-- The part that holds a part; none holds the whole. -/
def holder? : ThingPart → Option ThingPart
  | whole => none
  | policyId | definition | attributes | features => some whole
  | attributeAt p => some (pointerHolder whole attributes attributeAt p)
  | feature _ => some features
  | properties _ id => some (feature id)
  | property side id p =>
    some (pointerHolder (feature id) (properties side id) (property side id) p)

/-- The names on the way to a part. -/
def names : ThingPart → List String
  | whole => []
  | policyId => ["policyId"]
  | definition => ["definition"]
  | attributes => ["attributes"]
  | attributeAt p => ["attributes"] ++ p.segments
  | features => ["features"]
  | feature id => ["features", id.text]
  | properties side id => ["features", id.text, side.memberName]
  | property side id p => ["features", id.text, side.memberName] ++ p.segments

/-- The place of a part is spelled by its names. -/
theorem segments_place (part : ThingPart) : part.place.segments = part.names := by
  cases part with
  | whole | policyId | definition | attributes | attributeAt _ | features => rfl
  | feature id => exact segments_featurePlace id
  | properties side id => exact segments_sidePlace side id
  | property side id p => exact segments_place_property side id p

/-- What a pointer leads to is a name further down than what holds it. -/
theorem names_pointerHolder {holder object : ThingPart} {inside : Pointer → ThingPart}
    (hobject : ∃ name, object.names = holder.names ++ [name])
    (hinside : ∀ p, (inside p).names = object.names ++ p.segments) (p : Pointer) :
    ∃ name, (inside p).names = (pointerHolder holder object inside p).names ++ [name] := by
  unfold pointerHolder
  cases habove : p.parent? with
  | none =>
    rw [hinside, Pointer.segments_of_parent?_none habove, List.append_nil]
    exact hobject
  | some above =>
    obtain ⟨name, hsegments⟩ := Pointer.segments_of_parent? habove
    refine ⟨name, ?_⟩
    rw [hinside, hsegments, ← List.append_assoc]
    by_cases hroot : above.isRoot = true
    · have hnil : above.segments = [] := List.isEmpty_iff.mp hroot
      rw [hnil, List.append_nil]
      simp only [hroot, if_true]
    · simp only [eq_false_of_ne_true hroot, Bool.false_eq_true, if_false, hinside]

/-- The names of a part are one more than those of what holds it. -/
theorem names_of_holder? {part holder : ThingPart} (h : part.holder? = some holder) :
    ∃ name, part.names = holder.names ++ [name] := by
  cases part with
  | whole => cases h
  | policyId =>
    cases h
    exact ⟨"policyId", rfl⟩
  | definition =>
    cases h
    exact ⟨"definition", rfl⟩
  | attributes =>
    cases h
    exact ⟨"attributes", rfl⟩
  | attributeAt p =>
    cases h
    exact names_pointerHolder ⟨"attributes", rfl⟩ (fun _ => rfl) p
  | features =>
    cases h
    exact ⟨"features", rfl⟩
  | feature id =>
    cases h
    exact ⟨id.text, rfl⟩
  | properties side id =>
    cases h
    exact ⟨side.memberName, rfl⟩
  | property side id p =>
    cases h
    exact names_pointerHolder ⟨side.memberName, rfl⟩ (fun _ => rfl) p

/-- What holds something that a pointer leads to has a place. -/
theorem isMisplaced_pointerHolder {holder object : ThingPart} {inside : Pointer → ThingPart}
    (hholder : holder.isMisplaced = false) (hobject : object.isMisplaced = false)
    (hinside : ∀ p, (inside p).isMisplaced = p.isRoot) (p : Pointer) :
    (pointerHolder holder object inside p).isMisplaced = false := by
  unfold pointerHolder
  split
  · exact hholder
  · split
    · exact hobject
    · rename_i above hroot
      rw [hinside]
      exact eq_false_of_ne_true hroot

/-- What holds a part has a place. -/
theorem isMisplaced_holder {part holder : ThingPart} (h : part.holder? = some holder) :
    holder.isMisplaced = false := by
  cases part with
  | whole => cases h
  | policyId | definition | attributes | features | feature _ | properties _ _ =>
    cases h
    rfl
  | attributeAt p =>
    cases h
    exact isMisplaced_pointerHolder rfl rfl (fun _ => rfl) p
  | property side id p =>
    cases h
    exact isMisplaced_pointerHolder rfl rfl (fun _ => rfl) p

/-- Parts that have a place are told apart by their names. -/
theorem names_injective {a b : ThingPart} (ha : a.isMisplaced = false) (hb : b.isMisplaced = false)
    (h : a.names = b.names) : a = b := by
  have hpointer : ∀ {p q : Pointer}, p.segments = q.segments → p = q :=
    fun heq => Key.names_injective heq
  have hbelow : ∀ {p : Pointer}, p.isRoot = false → p.segments ≠ [] := by
    intro p hroot hnil
    unfold Pointer.isRoot at hroot
    rw [hnil] at hroot
    cases hroot
  -- Parts of different sorts differ in their first names or in the number of names, but for an
  -- object and a pointer into it, which differ since the pointer is not the root.
  cases a <;> cases b <;>
    simp only [names, List.cons_append, List.nil_append, List.cons.injEq, true_and, and_true,
      reduceCtorEq, String.reduceEq, false_and, and_false] at h
  case whole.whole => rfl
  case policyId.policyId => rfl
  case definition.definition => rfl
  case attributes.attributes => rfl
  case features.features => rfl
  case attributes.attributeAt p => exact absurd h.symm (hbelow hb)
  case attributeAt.attributes p => exact absurd h (hbelow ha)
  case attributeAt.attributeAt p q => rw [hpointer h]
  case feature.feature id id' => rw [Features.text_injective h]
  case properties.properties side id side' id' =>
    rw [Features.text_injective h.1, PropertySide.memberName_injective h.2]
  case properties.property side id side' id' p => exact absurd h.2.2.symm (hbelow hb)
  case property.properties side id p side' id' => exact absurd h.2.2 (hbelow ha)
  case property.property side id p side' id' q =>
    rw [Features.text_injective h.1, PropertySide.memberName_injective h.2.1, hpointer h.2.2]

/-- The address of a part spells the way to it, and parts that are not misplaced have addresses of
their own. -/
theorem spelled : Spelled holder? (fun part => part.isMisplaced = false) names where
  top part h := by
    cases part with
    | whole => rfl
    | policyId | definition | attributes | attributeAt _ | features | feature _
    | properties _ _ | property _ _ _ => cases h
  up _ _ h := names_of_holder? h
  placed_up _ _ h _ := isMisplaced_holder h
  injective _ _ ha hb h := names_injective ha hb h

/-- Resource keys are faithful to the parts of things that have a place. -/
theorem faithful {part part' : ThingPart} (placed : part.isMisplaced = false)
    (placed' : part'.isMisplaced = false) : Faithful holder? resourceKey part part' :=
  spelled.faithful (fun _ _ => rfl) segments_place placed placed'

/-- The key of a part covers the keys of the parts inside it. -/
theorem covers_of_inside {part part' : ThingPart} (inside : Inside holder? part part') :
    part.resourceKey.covers part'.resourceKey = true :=
  spelled.covers_of_inside (fun _ _ => rfl) segments_place inside

end ThingPart

end GuardedThings
