import GuardedThings.Proofs.Policy.WireForm
import GuardedThings.Proofs.Thing.WireForm

/-!
# Event types

The journal keeps of a change its payload and, in the event type, its name. Two
tables have to agree for a stored change to be found again: the name a change is
stored under, and the names the payloads are decoded by. They do, in both
directions:
* every change is listed under its name (`Change.name_mem_names`);
* every listed name is the name of some change (`PolicyChange.exists_of_mem_names`,
  `ThingChange.exists_of_mem_names`), read off one change of each variant.

So a type is refused exactly if it is not the namespace, a colon and the name of
a change (`Change.ofJournal_eq_unhandled_iff`). `journal_restores_events` states
this for policies and for things, together with the recovery of every event from
its own record.
-/

set_option autoImplicit false

namespace GuardedThings

namespace Change

variable {γ : Type} [Change γ]

/-- The name is cut off what stands before it in the type. -/
theorem nameOf?_eq_some_iff (eventType name : String) :
    nameOf? γ eventType = some name ↔
      name ∈ names γ ∧ eventType = space γ ++ ":" ++ name := by
  have hfront : (space γ ++ ":" ++ name).toList = ((space γ).toList ++ [':']) ++ name.toList := by
    simp
  constructor
  · intro h
    unfold nameOf? at h
    dsimp only at h
    split at h
    · rename_i hprefix
      split at h
      · rename_i hlisted
        cases h
        obtain ⟨rest, hrest⟩ := List.isPrefixOf_iff_prefix.mp hprefix
        have hcut : eventType.toList.drop ((space γ).toList ++ [':']).length = rest := by
          rw [← hrest, List.drop_left]
        refine ⟨List.contains_iff_mem.mp hlisted, ?_⟩
        apply String.toList_inj.mp
        rw [hcut] at hfront ⊢
        rw [hfront, String.toList_ofList, hrest]
      · cases h
    · cases h
  · rintro ⟨hlisted, rfl⟩
    have hprefix : ((space γ).toList ++ [':']).isPrefixOf (space γ ++ ":" ++ name).toList = true := by
      rw [hfront, List.isPrefixOf_iff_prefix]
      exact List.prefix_append _ _
    have hcut : String.ofList ((space γ ++ ":" ++ name).toList.drop
        ((space γ).toList ++ [':']).length) = name := by
      rw [hfront, List.drop_left, String.ofList_toList]
    have hcontains : (names γ).contains name = true := List.contains_iff_mem.mpr hlisted
    simp only [nameOf?, hprefix, hcut, hcontains, if_true]

/-- A type is refused as unhandled exactly if no name is found in it: a payload that does not fit
is refused as invalid. -/
theorem ofJournal_eq_unhandled_iff_nameOf? (eventType : String) (payload : Json) :
    (ofJournal eventType payload : Except Failure γ) =
        .error (.eventTypeUnhandled eventType (aggregate γ)) ↔
      nameOf? γ eventType = none := by
  unfold ofJournal
  cases nameOf? γ eventType with
  | none => exact ⟨fun _ => rfl, fun _ => rfl⟩
  | some name =>
    refine ⟨fun h => ?_, nofun⟩
    dsimp only at h
    split at h
    · cases h
    · cases h

/-- Where every listed name is the name of a change, a type is refused exactly if it is the type of
no change. -/
theorem ofJournal_eq_unhandled_iff [LawfulChange γ]
    (hnamed : ∀ name' ∈ names γ, ∃ c : γ, name c = name') (eventType : String) (payload : Json) :
    (ofJournal eventType payload : Except Failure γ) =
        .error (.eventTypeUnhandled eventType (aggregate γ)) ↔
      ∀ c : γ, eventType ≠ Change.eventType c := by
  rw [ofJournal_eq_unhandled_iff_nameOf?]
  constructor
  · rintro hnone c rfl
    rw [nameOf?_eventType] at hnone
    cases hnone
  · intro hforeign
    cases hname : nameOf? γ eventType with
    | none => rfl
    | some name' =>
      obtain ⟨hlisted, htype⟩ := (nameOf?_eq_some_iff eventType name').mp hname
      obtain ⟨c, rfl⟩ := hnamed name' hlisted
      exact absurd htype (hforeign c)

end Change

/-! ## One change of each variant -/

/-- A change of each variant, in the order of the table. -/
def PolicyChange.eachVariant (p : Policy) (l : Label) (id : SubjectId) (key : ResourceKey) :
    List PolicyChange :=
  [.created p, .replaced p, .removed .whole,
    .groupReplaced (.entries []),
    .written .created (.entry ⟨l, .empty⟩), .written .modified (.entry ⟨l, .empty⟩),
    .removed (.entry l),
    .groupReplaced (.subjects l .empty),
    .written .created (.subject l id ⟨"generated", none⟩),
    .written .modified (.subject l id ⟨"generated", none⟩),
    .removed (.subject l id),
    .groupReplaced (.resources l .empty),
    .written .created (.resource l key .empty), .written .modified (.resource l key .empty),
    .removed (.resource l key)]

/-- Every name of a policy event is the name of some change. -/
theorem PolicyChange.exists_of_mem_names {name' : String}
    (h : name' ∈ Change.names PolicyChange) : ∃ c : PolicyChange, Change.name c = name' := by
  have hnames : Change.names PolicyChange =
      (eachVariant (.new ⟨"a:a", by decide⟩) ⟨"a", by decide⟩ ⟨"a:a", by decide⟩
        (.policy .root)).map Change.name := rfl
  rw [hnames] at h
  obtain ⟨c, -, hc⟩ := List.mem_map.mp h
  exact ⟨c, hc⟩

/-- A change of each variant, in the order of the table. -/
def ThingChange.eachVariant (t : Thing) (policyId : PolicyId) (d : Definition) (id : FeatureId)
    (p : Pointer) (v : Json) : List ThingChange :=
  [.created t, .replaced t, .removed .whole, .policyAssigned policyId,
    .written .created (.definition d), .written .modified (.definition d), .removed .definition,
    .written .created (.attributes []), .written .modified (.attributes []), .removed .attributes,
    .written .created (.attributeAt p v), .written .modified (.attributeAt p v),
    .removed (.attributeAt p),
    .written .created (.features .empty), .written .modified (.features .empty),
    .removed .features,
    .written .created (.feature id .empty), .written .modified (.feature id .empty),
    .removed (.feature id)] ++
  [PropertySide.reported, .desired].flatMap fun side =>
    [.written .created (.properties side id []), .written .modified (.properties side id []),
      .removed (.properties side id),
      .written .created (.property side id p v), .written .modified (.property side id p v),
      .removed (.property side id p)]

/-- Every name of a thing event is the name of some change. -/
theorem ThingChange.exists_of_mem_names {name' : String}
    (h : name' ∈ Change.names ThingChange) : ∃ c : ThingChange, Change.name c = name' := by
  have hnames : Change.names ThingChange =
      (eachVariant (.new ⟨"a:a", by decide⟩) ⟨"a:a", by decide⟩ ⟨"a:a:a", by decide⟩
        ⟨"a", by decide⟩ .root .null).map Change.name := rfl
  rw [hnames] at h
  obtain ⟨c, -, hc⟩ := List.mem_map.mp h
  exact ⟨c, hc⟩

/-! ## Both kinds of entities -/

/-- Every event is recovered from its journal record, whatever it carries; and a payload is refused
as unhandled exactly under the types that are not the namespace of the kind, a colon and the name
of a change. -/
theorem journal_restores_events :
    ((∀ e : Event .policy PolicyChange, Event.ofRecord e.toRecord = .ok e) ∧
      ∀ (eventType : String) (payload : Json),
        (Change.ofJournal eventType payload : Except Failure PolicyChange) =
            .error (.eventTypeUnhandled eventType "policy") ↔
          ∀ c : PolicyChange, eventType ≠ "policies.events" ++ ":" ++ c.name) ∧
    ((∀ e : Event .thing ThingChange, Event.ofRecord e.toRecord = .ok e) ∧
      ∀ (eventType : String) (payload : Json),
        (Change.ofJournal eventType payload : Except Failure ThingChange) =
            .error (.eventTypeUnhandled eventType "thing") ↔
          ∀ c : ThingChange, eventType ≠ "things.events" ++ ":" ++ c.name) := by
  refine ⟨⟨fun e => e.ofRecord_toRecord, fun eventType payload => ?_⟩,
    ⟨fun e => e.ofRecord_toRecord, fun eventType payload => ?_⟩⟩
  · exact Change.ofJournal_eq_unhandled_iff (fun _ h => PolicyChange.exists_of_mem_names h)
      eventType payload
  · exact Change.ofJournal_eq_unhandled_iff (fun _ h => ThingChange.exists_of_mem_names h)
      eventType payload

end GuardedThings
