import GuardedThings.Proofs.Aggregate.Addressing
import GuardedThings.Proofs.Aggregate.EntityTags

/-!
# Coherent tags

A client is given a tag with every answer and sends it back in the conditional
headers of later commands. `CoherentTags` says what it can rely on: the tag is
that of what it was shown, the answer to the same question unless the tag has
changed is that it has not, a command about the same resource goes through if
the tag has not changed, and the tag of a change is the tag that a later query
is answered with.

All of it follows from the agreement of the tables by which requests address
parts (`Addressing.Governs.coherentTags`), so it is true of policies and of
things (`tags_coherent`).
-/

set_option autoImplicit false

namespace GuardedThings

/-- The command made conditional on the tag of the part having changed. -/
def Command.ifChanged {kind : EntityKind} {ρ : Type} (c : Command kind ρ) (known : TagMatchers) :
    Command kind ρ :=
  { c with headers := { c.headers with ifNoneMatch := some known } }

variable {α γ ρ : Type} {kind : EntityKind} [Change γ] [Aggregate α kind γ]

/-- What the clients of an entity can rely on about the tags they are given. -/
structure CoherentTags (rules : CommandRules α kind γ ρ) (A : Addressing ρ) (entity : Option α) :
    Prop where
  /-- The answer to a query has the tag of what stands at the place of the part, and shows it unless
  the client knows the tag. -/
  answered : ∀ (now : Timestamp) (c : Command kind ρ) (response : Response),
    rules.execute now entity c = .query response →
      ∃ current content, Aggregate.active? entity = some current ∧
        (A.place c.request).get? (Aggregate.toJson current) = some content ∧
        response.headers.etag = some (A.tagOf c.request current content) ∧
        (response.status = .ok ∧ response.entity = some content ∨
          response.status = .notModified ∧ response.entity = none ∧ c.headers.ifNoneMatch ≠ none)
  /-- The tag can be sent back by itself: to be told that it has not changed, and as the condition of
  any command about the same resource. -/
  recognized : ∀ (now : Timestamp) (c : Command kind ρ) (response : Response),
    rules.execute now entity c = .query response →
      ∃ tag known, response.headers.etag = some tag ∧ known.toList = [.tag tag] ∧
        (∀ later, rules.execute later entity (c.ifChanged known) =
          .query (rules.notModified (c.ifChanged known) (some tag))) ∧
        ∀ other : Command kind ρ, A.key other.request = A.key c.request →
          other.headers.ifMatch = some known → other.headers.ifNoneMatch = none →
            rules.checkHeaders entity other = none
  /-- The tag in the response to a change is the tag of all later answers about the same resource, and
  there are such answers. -/
  announced : ∀ (now : Timestamp) (c : Command kind ρ) (event : Event kind γ) (response : Response)
    (created deleted : Bool),
    rules.execute now entity c = .mutation event response created deleted →
      A.isRemoval c.request = false →
        ∃ next tag, Aggregate.apply event entity = .ok next ∧ response.headers.etag = some tag ∧
          (∀ later query answer, A.key query.request = A.key c.request →
            rules.execute later (some next) query = .query answer →
              answer.headers.etag = some tag) ∧
          ∀ later query, A.key query.request = A.key c.request →
            rules.isQuery query.request = true → A.isPlaced query.request = true →
            query.headers.ifMatch = none → query.headers.ifNoneMatch = none →
              ∃ answer, rules.execute later (some next) query = .query answer

namespace Addressing.Governs

variable {A : Addressing ρ} {rules : CommandRules α kind γ ρ}

/-! ## Current tags -/

/-- A part with a tag is there, and the tag is that of its content. -/
theorem exists_of_currentTag (h : A.Governs rules) {entity : Option α} {r : ρ} {tag : EntityTag}
    (htag : rules.currentTag entity r = some tag) :
    ∃ current content, Aggregate.active? entity = some current ∧
      (A.place r).get? (Aggregate.toJson current) = some content ∧
      tag = A.tagOf r current content := by
  obtain ⟨current, hactive, htag⟩ := Option.bind_eq_some_iff.mp htag
  rw [h.tag_eq] at htag
  obtain ⟨content, hcontent, rfl⟩ := Option.map_eq_some_iff.mp htag
  exact ⟨current, content, hactive, hcontent, rfl⟩

/-- A part that is there has the tag of its content. -/
theorem currentTag_eq (h : A.Governs rules) {entity : Option α} {r : ρ} {current : α}
    {content : Json} (hactive : Aggregate.active? entity = some current)
    (hcontent : (A.place r).get? (Aggregate.toJson current) = some content) :
    rules.currentTag entity r = some (A.tagOf r current content) := by
  unfold CommandRules.currentTag
  rw [hactive, Option.bind_some, h.tag_eq, hcontent, Option.map_some]

/-- Requests about the same resource have the same tag. -/
theorem currentTag_congr (h : A.Governs rules) (entity : Option α) {r r' : ρ}
    (hkey : A.key r = A.key r') : rules.currentTag entity r = rules.currentTag entity r' := by
  have hplace := h.place_eq_of_key r r' hkey
  unfold CommandRules.currentTag
  congr 1
  funext current
  rw [h.tag_eq, h.tag_eq]
  unfold tagOf
  rw [hplace]

/-- There is a header that names just the tag of a part. -/
theorem exists_matchers (A : Addressing ρ) (r : ρ) (current : α) (content : Json) :
    ∃ known : TagMatchers, known.toList = [.tag (A.tagOf r current content)] := by
  unfold tagOf
  by_cases hroot : (A.place r).isRoot = true
  · rw [if_pos hroot]
    exact ⟨.only _ (EntityTag.isListable_ofRevision _), rfl⟩
  · rw [if_neg hroot]
    exact ⟨.only _ (EntityTag.isListable_ofContent _), rfl⟩

/-- Tags of entities and of their parts are strong. -/
theorem weak_tagOf (A : Addressing ρ) (r : ρ) (current : α) (content : Json) :
    (A.tagOf r current content).weak = false := by
  unfold tagOf
  split
  · rfl
  · rfl

/-! ## Answers -/

/-- What is known of an answered query: its condition on the current tag holds, and the answer has
the current tag. -/
theorem of_execute_query (h : A.Governs rules) {now : Timestamp} {entity : Option α}
    {c : Command kind ρ} {response : Response}
    (hexecuted : rules.execute now entity c = .query response) :
    rules.isQuery c.request = true ∧
      (∀ ms, c.headers.ifMatch = some ms →
        ms.matchStrongly (rules.currentTag entity c.request) = true) ∧
      ∃ current content, Aggregate.active? entity = some current ∧
        (A.place c.request).get? (Aggregate.toJson current) = some content ∧
        response.headers.etag = some (A.tagOf c.request current content) ∧
        (response.status = .ok ∧ response.entity = some content ∨
          response.status = .notModified ∧ response.entity = none ∧
            c.headers.ifNoneMatch ≠ none) := by
  rcases CommandRules.execute_query hexecuted with hheaders | ⟨hpassed, decided, hdecided, rfl⟩
  · obtain ⟨hmatched, hquery, ⟨ms, hms, hmatch⟩, rfl⟩ :=
      (rules.checkHeaders_eq_query_iff entity c response).mp hheaders
    cases htag : rules.currentTag entity c.request with
    | none =>
      rw [htag] at hmatch
      cases hmatch
    | some tag =>
      obtain ⟨current, content, hactive, hcontent, rfl⟩ := h.exists_of_currentTag htag
      refine ⟨hquery, ?_, current, content, hactive, hcontent, rfl, .inr ⟨rfl, rfl, ?_⟩⟩
      · rw [← htag]
        exact hmatched
      · rw [hms]
        exact Option.some_ne_none ms
  · obtain ⟨hquery, current, content, hactive, hcontent, hstatus, hentity⟩ :=
      h.answers _ _ _ _ _ hdecided
    have hmatched := ((rules.checkHeaders_eq_none_iff entity c).mp hpassed).1
    refine ⟨hquery, hmatched, current, content, hactive, hcontent, ?_, .inl ⟨hstatus, hentity⟩⟩
    exact h.currentTag_eq hactive hcontent

/-- A query whose result the client has is answered so. -/
theorem execute_ifChanged {now : Timestamp} {entity : Option α} {c : Command kind ρ}
    {known : TagMatchers} {tag : EntityTag} (hquery : rules.isQuery c.request = true)
    (hmatched : ∀ ms, c.headers.ifMatch = some ms →
      ms.matchStrongly (rules.currentTag entity c.request) = true)
    (htag : rules.currentTag entity c.request = some tag) (hknown : known.toList = [.tag tag]) :
    rules.execute now entity (c.ifChanged known) =
      .query (rules.notModified (c.ifChanged known) (some tag)) := by
  have hknows : known.matchWeakly (rules.currentTag entity c.request) = true := by
    rw [htag]
    exact TagMatchers.matchWeakly_of_toList hknown
  have hheaders : rules.checkHeaders entity (c.ifChanged known) =
      some (.query (rules.notModified (c.ifChanged known) (some tag))) := by
    refine (rules.checkHeaders_eq_query_iff entity _ _).mpr ⟨hmatched, hquery, ?_, ?_⟩
    · exact ⟨known, rfl, hknows⟩
    · rw [← htag]
      rfl
  unfold CommandRules.execute
  rw [hheaders]

/-- A command that is conditional on the current tag alone passes. -/
theorem checkHeaders_of_currentTag {entity : Option α} {c : Command kind ρ} {known : TagMatchers}
    {tag : EntityTag} (htag : rules.currentTag entity c.request = some tag)
    (hstrong : tag.weak = false) (hknown : known.toList = [.tag tag])
    (hmatch : c.headers.ifMatch = some known) (hnone : c.headers.ifNoneMatch = none) :
    rules.checkHeaders entity c = none := by
  refine (rules.checkHeaders_eq_none_iff entity c).mpr ⟨?_, ?_⟩
  · intro ms hms
    rw [hmatch] at hms
    cases hms
    rw [htag]
    exact TagMatchers.matchStrongly_of_toList hknown hstrong
  · intro ms hms
    rw [hnone] at hms
    cases hms

/-- A query without conditions about something that is there is answered. -/
theorem exists_answer (h : A.Governs rules) {now : Timestamp} {entity : Option α}
    {c : Command kind ρ} {current : α} (hactive : Aggregate.active? entity = some current)
    (hsome : ((A.place c.request).get? (Aggregate.toJson current)).isSome = true)
    (hquery : rules.isQuery c.request = true) (hplaced : A.isPlaced c.request = true)
    (hmatch : c.headers.ifMatch = none) (hnone : c.headers.ifNoneMatch = none) :
    ∃ answer, rules.execute now entity c = .query answer := by
  obtain ⟨content, hcontent⟩ := Option.isSome_iff_exists.mp hsome
  obtain ⟨answer, hanswered, -, -⟩ := h.execute_of_passed hactive hcontent hquery hplaced
    (rules.checkHeaders_of_unconditional entity hmatch hnone)
  exact ⟨answer, hanswered⟩

/-! ## Coherence -/

/-- Tags are coherent, in every state, if the tables agree. -/
theorem coherentTags (h : A.Governs rules) (entity : Option α) :
    CoherentTags rules A entity where
  answered := fun _ _ _ hexecuted => (h.of_execute_query hexecuted).2.2
  recognized := by
    intro now c response hexecuted
    obtain ⟨hquery, hmatched, current, content, hactive, hcontent, hetag, -⟩ :=
      h.of_execute_query hexecuted
    have htag := h.currentTag_eq hactive hcontent
    obtain ⟨known, hknown⟩ := exists_matchers A c.request current content
    refine ⟨_, known, hetag, hknown, ?_, ?_⟩
    · intro later
      exact execute_ifChanged hquery hmatched htag hknown
    · intro other hkey hmatch hnone
      rw [← h.currentTag_congr entity hkey] at htag
      exact checkHeaders_of_currentTag htag (weak_tagOf A _ _ _) hknown hmatch hnone
  announced := by
    intro now c event response created deleted hexecuted hkeeps
    obtain ⟨-, decided, next, hdecided, happlied, hresponse⟩ :=
      CommandRules.execute_mutation hexecuted
    obtain ⟨hlife, hsome⟩ := h.keeps _ _ _ _ _ _ _ _ _ hdecided hkeeps happlied
    -- The tag in the response is that of the entity the event leads to, which is what is asked next.
    have hactive : Aggregate.active? (some next) = some next :=
      Option.filter_eq_some_iff.mpr ⟨rfl, hlife⟩
    obtain ⟨content, hcontent⟩ := Option.isSome_iff_exists.mp hsome
    have htag := h.currentTag_eq hactive hcontent
    refine ⟨next, A.tagOf c.request next content, happlied, ?_, ?_, ?_⟩
    · rw [hresponse]
      exact htag
    · intro later query answer hkey hanswered
      obtain ⟨-, -, current, content', hactive', hcontent', hetag, -⟩ :=
        h.of_execute_query hanswered
      rw [hetag, ← h.currentTag_eq hactive' hcontent', h.currentTag_congr _ hkey, htag]
    · intro later query hkey hquery hplaced hmatch hnone
      have hplace := h.place_eq_of_key _ _ hkey
      rw [← hplace] at hsome
      exact h.exists_answer hactive hsome hquery hplaced hmatch hnone

end Addressing.Governs

/-- The tags of policies and of things are coherent, whatever the settings and whatever the state of
the entity. -/
theorem tags_coherent :
    (∀ (config : PolicyConfig) (policy : Option Policy),
      CoherentTags (policyRules config) PolicyRequest.addressing policy) ∧
    (∀ (config : ThingConfig) (thing : Option Thing),
      CoherentTags (thingRules config) ThingRequest.addressing thing) :=
  ⟨fun config policy => (PolicyRules.governs config).coherentTags policy,
    fun config thing => (ThingRules.governs config).coherentTags thing⟩

/-! ## A client of a lantern -/

/-- A lantern of the given color. -/
def lantern (color : String) : Thing :=
  { id := ⟨"org.example:lantern", by decide⟩, attributes := some [("color", .string color)] }

/-- The question for the color of the lantern. -/
def askColor : ThingCommand :=
  ⟨(lantern "").id, .empty, .retrieve (.attributeAt (.ofSegments ["color"]))⟩

/-- The command to change the color of the lantern if it still has the known tag. -/
def changeColor (color : String) (known : TagMatchers) : ThingCommand :=
  ⟨(lantern "").id, { ifMatch := some known },
    .write (.attributeAt (.ofSegments ["color"]) (.string color))⟩

/-- The client that asked for the color is told that it has not changed, and may change it. -/
theorem tags_coherent_lantern :
    ∃ known : TagMatchers, known.toList = [.tag (.ofContent (.string "red"))] ∧
      (∃ answer, (thingRules .standard).execute ⟨0⟩ (some (lantern "red")) askColor =
          .query answer ∧ answer.entity = some (.string "red")) ∧
      (∃ answer, (thingRules .standard).execute ⟨1⟩ (some (lantern "red"))
          (askColor.ifChanged known) = .query answer ∧ answer.status = .notModified) ∧
      (thingRules .standard).checkHeaders (some (lantern "red")) (changeColor "blue" known) =
        none := by
  obtain ⟨answer, hasked, hshown⟩ : ∃ answer,
      (thingRules .standard).execute ⟨0⟩ (some (lantern "red")) askColor = .query answer ∧
        answer.entity = some (.string "red") :=
    ⟨_, rfl, rfl⟩
  have hcoherent := tags_coherent.2 .standard (some (lantern "red"))
  obtain ⟨current, content, hactive, hcontent, htag, -⟩ := hcoherent.answered _ _ _ hasked
  cases hactive
  cases hcontent
  obtain ⟨tag, known, hetag, hknown, hunchanged, hpasses⟩ := hcoherent.recognized _ _ _ hasked
  rw [htag] at hetag
  cases hetag
  exact ⟨known, hknown, ⟨answer, hasked, hshown⟩, ⟨_, hunchanged ⟨1⟩, rfl⟩,
    hpasses (changeColor "blue" known) rfl rfl rfl⟩

end GuardedThings
