import GuardedThings.Proofs.Thing.Decisions
import GuardedThings.Proofs.Thing.DocumentEdits

/-!
# Tags of thing parts

What the tag of a request to a thing depends on: it is that of what the document
says at the place of the addressed part, or the revision for the whole
(`ThingRules.tag_eq`).

An accepted change leaves something at the place of the addressed part, unless
it removes it (`ThingRules.kept_of_decide_mutation`). What is there can be
retrieved (`ThingRules.decide_retrieve`), provided the query does not address an
object by a pointer into it.
-/

set_option autoImplicit false

namespace GuardedThings

namespace ThingPart

/-- Only the whole thing stands at the root. -/
theorem isRoot_place_iff (part : ThingPart) : part.place.isRoot = true ↔ part = whole := by
  constructor
  · intro hroot
    by_cases hwhole : part = whole
    · exact hwhole
    · obtain ⟨name, rest, hsegments, -⟩ := exists_segments_place hwhole
      unfold Pointer.isRoot at hroot
      rw [hsegments] at hroot
      cases hroot
  · rintro rfl
    rfl

/-- What a part holds belongs to the feature that has to be there. -/
theorem isSome_owner_of_get? {t : Thing} {part : ThingPart} {content : Json}
    (h : part.get? t = some content) {id : FeatureId} (howner : part.owner? = some id) :
    (t.feature? id).isSome = true := by
  cases part with
  | properties side id' =>
    cases howner
    obtain ⟨members, hmembers, -⟩ := Option.map_eq_some_iff.mp h
    obtain ⟨f, hf, -⟩ := Option.bind_eq_some_iff.mp hmembers
    rw [hf]
    rfl
  | property side id' p =>
    cases howner
    obtain ⟨f, hf, -⟩ := Option.bind_eq_some_iff.mp h
    rw [hf]
    rfl
  | whole | policyId | definition | attributes | attributeAt _ | features | feature _ =>
    cases howner

/-- A pointer to an object itself finds nothing in the object. -/
theorem get?_of_isMisplaced (t : Thing) {part : ThingPart} (h : part.isMisplaced = true) :
    part.get? t = none := by
  have hnone : ∀ (p : Pointer) (object : Option JsonObject), p.isRoot = true →
      p.getIn? object = none := by
    intro p object hroot
    unfold Pointer.getIn?
    rw [if_pos hroot]
  cases part with
  | attributeAt p => exact hnone p t.attributes h
  | property side id p => exact Option.bind_eq_none_iff.mpr fun f _ => hnone p (f.side side) h
  | whole | policyId | definition | attributes | features | feature _ | properties _ _ => cases h

/-- A part that is not misplaced holds what the document says at its place, and one that is holds
nothing. -/
theorem get?_place_of_get? {t : Thing} {part : ThingPart} {content : Json}
    (h : part.get? t = some content) : part.place.get? t.toJson = some content := by
  by_cases hmisplaced : part.isMisplaced = true
  · rw [get?_of_isMisplaced t hmisplaced] at h
    cases h
  · rw [← get?_eq_get?_place t part (eq_false_of_ne_true hmisplaced)]
    exact h

end ThingPart

/-- No piece that can be written is the whole thing. -/
theorem ThingPiece.part_ne_whole (piece : ThingPiece) : piece.part ≠ .whole := by
  cases piece with
  | definition | attributes | attributeAt | features | feature | properties | property =>
    exact nofun

/-- A piece that is put in place stands there. -/
theorem ThingPiece.get?_place_put {t : Thing} {piece : ThingPiece}
    (placed : piece.part.isMisplaced = false)
    (owned : ∀ id, piece.part.owner? = some id → (t.feature? id).isSome) :
    piece.part.place.get? (piece.put t).toJson = some piece.toJson := by
  rw [ThingPiece.toJson_put placed owned]
  exact Json.getPath?_setPath_self _ _ _

namespace ThingRules

/-- The tag of a request is that of what stands at the place of its part. -/
theorem tag_eq (r : ThingRequest) (t : Thing) :
    tag r t = if r.part.place.isRoot then some (.ofRevision t.book.revision)
      else (r.part.place.get? t.toJson).map .ofContent := by
  unfold tag
  by_cases hwhole : r.part = .whole
  · rw [hwhole]
    rfl
  · have hroot : ¬ r.part.place.isRoot = true := mt (ThingPart.isRoot_place_iff _).mp hwhole
    rw [if_neg hroot]
    split
    · rename_i h
      exact absurd h hwhole
    · rfl

/-! ## What an accepted change leaves -/

namespace Setting

variable {s : Setting}

/-- An accepted change of an active thing leaves it active, with something at the place of the
addressed part. -/
theorem Accepts.keeps_part {current modified : Thing} {change : ThingChange}
    {event : Event .thing ThingChange} (haccepts : s.Accepts (some current) change)
    (hactive : current.book.lifecycle.isActive = true)
    (hkeeps : ∀ item, s.command.request ≠ .remove item) (hevent : event.change = change)
    (hmodified : current.after event = .ok modified) :
    modified.book.lifecycle.isActive = true ∧
      (s.command.request.part.place.get? modified.toJson).isSome = true := by
  unfold Thing.after at hmodified
  rw [hevent] at hmodified
  cases haccepts with
  | replaced _ _ _ asked _ =>
    cases hmodified
    rw [asked]
    exact ⟨rfl, rfl⟩
  | policyAssigned _ id asked _ =>
    cases hmodified
    rw [asked]
    refine ⟨hactive, ?_⟩
    show (Json.getPath? _ ["policyId"]).isSome = true
    rw [Thing.getPath?_toJson_policyId]
    rfl
  | written _ piece asked placed owned _ =>
    cases hmodified
    rw [asked]
    refine ⟨by rw [(keeps_put current piece).2.1]; exact hactive, ?_⟩
    exact Option.isSome_of_eq_some (ThingPiece.get?_place_put placed owned)
  | deleted _ asked => exact absurd asked (hkeeps _)
  | removed _ _ _ asked _ _ _ => exact absurd asked (hkeeps _)

end Setting

/-- A mutation that removes nothing leaves an active thing with something at the place of the
addressed part. -/
theorem kept_of_decide_mutation {config : ThingConfig} {now : Timestamp} {thing : Option Thing}
    {revision : Revision} {c : ThingCommand} {event : Event .thing ThingChange}
    {response : Response} {created deleted : Bool} {next : Thing}
    (hdecided : decide config now thing revision c = .mutation event response created deleted)
    (hkeeps : ∀ item, c.request ≠ .remove item)
    (happlied : Aggregate.apply event thing = .ok next) :
    Aggregate.isActive next = true ∧ (c.request.part.place.get? next.toJson).isSome = true := by
  obtain ⟨change, hevent, haccepts⟩ := decide_mutation hdecided
  cases hactive : Aggregate.active? thing with
  | some current =>
    rw [hactive] at haccepts
    obtain ⟨-, hcurrent⟩ := Option.filter_eq_some_iff.mp hactive
    obtain ⟨modified, hmodified, rfl⟩ := Aggregate.modified_of_apply hactive happlied
    obtain ⟨hlife, hpart⟩ := haccepts.keeps_part hcurrent hkeeps
      (congrArg Event.change hevent) hmodified
    refine ⟨hlife, ?_⟩
    by_cases hwhole : c.request.part = .whole
    · rw [hwhole]
      rfl
    · rw [← hpart]
      exact congrArg Option.isSome (ThingPart.get?_place_withBook modified _ hwhole)
  | none =>
    rw [hactive] at haccepts
    have hwhole : c.request.part = .whole := haccepts.part_of_none
    rw [hwhole]
    refine ⟨?_, rfl⟩
    rcases Aggregate.apply_cases happlied with ⟨-, -, made, hmade, rfl⟩ |
      ⟨-, current, _, hsome, -, -⟩
    · have hcreated : Thing.ofCreation event = .ok made := hmade
      unfold Thing.ofCreation at hcreated
      split at hcreated
      · cases hcreated
        rfl
      · cases hcreated
    · rw [hactive] at hsome
      cases hsome

/-- What a part holds can be retrieved. -/
theorem decide_retrieve {config : ThingConfig} {now : Timestamp} {thing : Option Thing}
    {revision : Revision} {c : ThingCommand} {current : Thing} {query : ThingQuery}
    {content : Json} (hactive : Aggregate.active? thing = some current)
    (asked : c.request = .retrieve query) (hcontent : query.part.get? current = some content) :
    decide config now thing revision c =
      .query (Setting.response ⟨config, now, revision, c⟩ .ok (some content)) := by
  have howned := (Setting.checkOwner_eq_ok_iff ⟨config, now, revision, c⟩ current query.part).mpr
    fun id howner => ThingPart.isSome_owner_of_get? hcontent howner
  have hretrieved : Setting.retrieve ⟨config, now, revision, c⟩ current query =
      .ok (.query (Setting.response ⟨config, now, revision, c⟩ .ok (some content))) := by
    unfold Setting.retrieve
    simp only [howned, hcontent]
    rfl
  unfold decide Setting.onExisting
  simp only [hactive, asked, hretrieved]

end ThingRules

end GuardedThings
