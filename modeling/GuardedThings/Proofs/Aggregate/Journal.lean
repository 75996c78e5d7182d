import GuardedThings.Aggregate.Event
import GuardedThings.Proofs.Wire.Records

/-!
# Journal records read back

The journal stores an event as the type of its change beside the payload. The
type is the namespace of the kind, a colon and the name of the change; cutting
the namespace off gives back the name (`Change.nameOf?_eventType`), and the
table is decoded under this name. So an event is recovered from its record
(`Event.ofRecord_toRecord`) as soon as every change is read back from the
payload stored under its own name, which `LawfulChange` asks of a kind.
-/

set_option autoImplicit false

namespace GuardedThings

/-- A kind of entity whose changes are read back from their payloads. -/
class LawfulChange (γ : Type) [Change γ] : Prop where
  decodeNamed_payload : ∀ c : γ,
    (VariantBody.decodeNamed Change.table (Change.name c) (Change.payload c) : Except Mismatch γ) =
      .ok c

/-- A variant that is found by its name is in the table under this name. -/
theorem VariantBody.mem_names_of_find? {α : Type} {name : String} {body : VariantBody Json α}
    {table : List (String × VariantBody Json α)} (h : find? name table = some body) :
    name ∈ table.map (·.1) := by
  induction table with
  | nil => cases h
  | cons entry rest ih =>
    obtain ⟨name', body'⟩ := entry
    rw [find?] at h
    by_cases hname : name' = name
    · rw [List.map_cons, hname]
      exact List.mem_cons_self
    · rw [if_neg hname] at h
      exact List.mem_cons_of_mem _ (ih h)

namespace Change

variable {γ : Type} [Change γ] [LawfulChange γ]

/-- Every change is listed under its name. -/
theorem name_mem_names (c : γ) : name c ∈ names γ := by
  have hdecode := LawfulChange.decodeNamed_payload c
  unfold VariantBody.decodeNamed at hdecode
  split at hdecode
  · rename_i body hfind
    exact VariantBody.mem_names_of_find? hfind
  · cases hdecode

/-- The name of a change is cut out of its event type. -/
theorem nameOf?_eventType (c : γ) : nameOf? γ (eventType c) = some (name c) := by
  have hchars : (eventType c).toList = ((space γ).toList ++ [':']) ++ (name c).toList := by
    simp [eventType]
  have hrest : String.ofList ((eventType c).toList.drop ((space γ).toList ++ [':']).length) =
      name c := by
    rw [hchars, List.drop_left, String.ofList_toList]
  have hfront : ((space γ).toList ++ [':']).isPrefixOf (eventType c).toList = true := by
    rw [hchars, List.isPrefixOf_iff_prefix]
    exact List.prefix_append _ _
  have hlisted : (names γ).contains (name c) = true := List.contains_iff_mem.mpr (name_mem_names c)
  simp only [nameOf?, hfront, hrest, hlisted, if_true]

/-- A change is recovered from its event type and its payload. -/
theorem ofJournal_eventType (c : γ) : ofJournal (eventType c) (payload c) = .ok c := by
  unfold ofJournal
  rw [nameOf?_eventType]
  simp only [LawfulChange.decodeNamed_payload]

end Change

/-- An event is recovered from its journal record. -/
theorem Event.ofRecord_toRecord {kind : EntityKind} {γ : Type} [Change γ] [LawfulChange γ]
    (e : Event kind γ) : ofRecord e.toRecord = .ok e := by
  unfold ofRecord toRecord
  rw [EntityId.parse_text, Change.ofJournal_eventType]
  rfl

end GuardedThings
