import GuardedThings.Proofs.Policy.PartTags
import GuardedThings.Proofs.Thing.PartTags

/-!
# How requests address parts

Three tables have to agree for the tags of an entity to make sense: which
resource a request is about, where the addressed part stands in the document,
and how it is tagged. What is needed of them is stated for any kind of entity
(`Addressing.Governs`), and is true of policies (`PolicyRules.governs`) and of
things (`ThingRules.governs`).
-/

set_option autoImplicit false

namespace GuardedThings

/-- How requests address the parts of an entity. -/
structure Addressing (ρ : Type) where
  /-- The resource a request is about. -/
  key : ρ → ResourceKey
  /-- The place of the addressed part in the entity document; the whole is at the root. -/
  place : ρ → Pointer
  /-- Whether no object is addressed by a pointer that is to lead into it. -/
  isPlaced : ρ → Bool
  /-- Whether the addressed part is removed. -/
  isRemoval : ρ → Bool

/-- How requests address the parts of a policy. -/
def PolicyRequest.addressing : Addressing PolicyRequest where
  key r := r.part.resourceKey
  place r := r.part.place
  isPlaced _ := true
  isRemoval
    | .remove _ => true
    | _ => false

/-- How requests address the parts of a thing. -/
def ThingRequest.addressing : Addressing ThingRequest where
  key r := r.part.resourceKey
  place r := r.part.place
  isPlaced r := !r.part.isMisplaced
  isRemoval
    | .remove _ => true
    | _ => false

variable {α γ ρ : Type} {kind : EntityKind} [Change γ] [Aggregate α kind γ]

/-- The tag of the content at the place of a part: the revision for the whole, a hash for the
rest. -/
def Addressing.tagOf (A : Addressing ρ) (r : ρ) (current : α) (content : Json) : EntityTag :=
  if (A.place r).isRoot then .ofRevision (Aggregate.book current).revision else .ofContent content

/-! ## What the tables have to agree on -/

/-- What coherence needs of rules and of the way requests address parts. -/
structure Addressing.Governs (A : Addressing ρ) (rules : CommandRules α kind γ ρ) : Prop where
  place_eq_of_key : ∀ r r' : ρ, A.key r = A.key r' → A.place r = A.place r'
  tag_eq : ∀ (r : ρ) (entity : α), rules.tag r entity =
    ((A.place r).get? (Aggregate.toJson entity)).map (A.tagOf r entity)
  answers : ∀ (now : Timestamp) (entity : Option α) (revision : Revision) (c : Command kind ρ)
    (response : Response), rules.decide now entity revision c = .query response →
      rules.isQuery c.request = true ∧
        ∃ current content, Aggregate.active? entity = some current ∧
          (A.place c.request).get? (Aggregate.toJson current) = some content ∧
          response.status = .ok ∧ response.entity = some content
  keeps : ∀ (now : Timestamp) (entity : Option α) (revision : Revision) (c : Command kind ρ)
    (event : Event kind γ) (response : Response) (created deleted : Bool) (next : α),
    rules.decide now entity revision c = .mutation event response created deleted →
      A.isRemoval c.request = false → Aggregate.apply event entity = .ok next →
        Aggregate.isActive next = true ∧
          ((A.place c.request).get? (Aggregate.toJson next)).isSome = true
  retrieves : ∀ (now : Timestamp) (entity : Option α) (revision : Revision) (c : Command kind ρ)
    (current : α), Aggregate.active? entity = some current → rules.isQuery c.request = true →
      A.isPlaced c.request = true →
      ((A.place c.request).get? (Aggregate.toJson current)).isSome = true →
        ∃ response, rules.decide now entity revision c = .query response

/-- A query that passes its conditional headers finds what stands at the place of the part. -/
theorem Addressing.Governs.execute_of_passed {A : Addressing ρ} {rules : CommandRules α kind γ ρ}
    (h : A.Governs rules) {now : Timestamp} {entity : Option α} {c : Command kind ρ} {current : α}
    {content : Json} (hactive : Aggregate.active? entity = some current)
    (hcontent : (A.place c.request).get? (Aggregate.toJson current) = some content)
    (hquery : rules.isQuery c.request = true) (hplaced : A.isPlaced c.request = true)
    (hpassed : rules.checkHeaders entity c = none) :
    ∃ answer, rules.execute now entity c = .query answer ∧ answer.status = .ok ∧
      answer.entity = some content := by
  obtain ⟨response, hdecided⟩ := h.retrieves now entity (Aggregate.revision entity).next c current
    hactive hquery hplaced (Option.isSome_of_eq_some hcontent)
  obtain ⟨-, current', content', hactive', hcontent', hstatus, hentity⟩ :=
    h.answers _ _ _ _ _ hdecided
  rw [hactive] at hactive'
  cases hactive'
  rw [hcontent] at hcontent'
  cases hcontent'
  refine ⟨response.withTag (rules.currentTag entity c.request), ?_, hstatus, hentity⟩
  unfold CommandRules.execute
  rw [hpassed, hdecided]
  rfl

/-- The tag of a whole is its revision, whatever its content; that of a part needs the content. -/
theorem Addressing.tag_eq_map (A : Addressing ρ) (r : ρ) (entity : α) :
    (if (A.place r).isRoot then some (.ofRevision (Aggregate.book entity).revision)
      else ((A.place r).get? (Aggregate.toJson entity)).map .ofContent) =
      ((A.place r).get? (Aggregate.toJson entity)).map (A.tagOf r entity) := by
  unfold tagOf
  by_cases hroot : (A.place r).isRoot = true
  · have hget : (A.place r).get? (Aggregate.toJson entity) = some (Aggregate.toJson entity) := by
      unfold Pointer.get?
      rw [List.isEmpty_iff.mp hroot]
      rfl
    rw [if_pos hroot, hget, Option.map_some, if_pos hroot]
  · simp only [if_neg hroot]

/-- The tables of policies agree: keys, places, tags and answers are about the same parts. -/
theorem PolicyRules.governs (config : PolicyConfig) :
    PolicyRequest.addressing.Governs (policyRules config) where
  place_eq_of_key := fun _ _ hkey => congrArg PolicyPart.place (PolicyPart.resourceKey_injective hkey)
  tag_eq := fun r p =>
    (PolicyRules.tag_eq r p).trans (PolicyRequest.addressing.tag_eq_map r p)
  answers := by
    intro now policy revision c response h
    obtain ⟨current, hactive, part, content, asked, hcontent, heq⟩ := PolicyRules.decide_answers h
    have hasked : c.request = .retrieve part := asked
    cases heq
    refine ⟨congrArg PolicyRequest.isQuery hasked, current, content, hactive, ?_, rfl, rfl⟩
    show c.request.part.place.get? current.toJson = some content
    rw [← PolicyPart.get?_eq_get?_place, hasked]
    exact hcontent
  keeps := by
    intro now policy revision c event response created deleted next hdecided hkeeps happlied
    have hremoves : ∀ item, c.request ≠ .remove item := by
      intro item hitem
      rw [hitem] at hkeeps
      cases hkeeps
    obtain ⟨hactive, hpart⟩ := PolicyRules.kept_of_decide_mutation hdecided hremoves happlied
    refine ⟨hactive, ?_⟩
    show (c.request.part.place.get? next.toJson).isSome = true
    rw [← PolicyPart.get?_eq_get?_place]
    exact hpart
  retrieves := by
    intro now policy revision c current hactive hquery _ hsome
    obtain ⟨content, hcontent⟩ := Option.isSome_iff_exists.mp hsome
    have hplace : c.request.part.place.get? current.toJson = some content := hcontent
    rw [← PolicyPart.get?_eq_get?_place] at hplace
    cases asked : c.request with
    | retrieve part =>
      rw [asked] at hplace
      exact ⟨_, PolicyRules.decide_retrieve hactive asked hplace⟩
    | create _ | replace _ | replaceGroup _ | write _ | remove _ =>
      rw [asked] at hquery
      cases hquery

/-- The tables of things agree: keys, places, tags and answers are about the same parts. -/
theorem ThingRules.governs (config : ThingConfig) :
    ThingRequest.addressing.Governs (thingRules config) where
  place_eq_of_key := fun _ _ hkey => congrArg ResourceKey.path hkey
  tag_eq := fun r t =>
    (ThingRules.tag_eq r t).trans (ThingRequest.addressing.tag_eq_map r t)
  answers := by
    intro now thing revision c response h
    obtain ⟨current, hactive, query, content, asked, hcontent, heq⟩ := ThingRules.decide_answers h
    have hasked : c.request = .retrieve query := asked
    cases heq
    refine ⟨congrArg ThingRequest.isQuery hasked, current, content, hactive, ?_, rfl, rfl⟩
    show c.request.part.place.get? current.toJson = some content
    rw [hasked]
    exact ThingPart.get?_place_of_get? hcontent
  keeps := by
    intro now thing revision c event response created deleted next hdecided hkeeps happlied
    have hremoves : ∀ item, c.request ≠ .remove item := by
      intro item hitem
      rw [hitem] at hkeeps
      cases hkeeps
    exact ThingRules.kept_of_decide_mutation hdecided hremoves happlied
  retrieves := by
    intro now thing revision c current hactive hquery hplaced hsome
    obtain ⟨content, hcontent⟩ := Option.isSome_iff_exists.mp hsome
    have hplace : c.request.part.place.get? current.toJson = some content := hcontent
    have hnot : c.request.part.isMisplaced = false := (Bool.not_eq_true' _).mp hplaced
    rw [← ThingPart.get?_eq_get?_place current c.request.part hnot] at hplace
    cases asked : c.request with
    | retrieve query =>
      rw [asked] at hplace
      exact ⟨_, ThingRules.decide_retrieve hactive asked hplace⟩
    | create _ | replace _ | assignPolicy _ | write _ | remove _ =>
      rw [asked] at hquery
      cases hquery

end GuardedThings
