import GuardedThings.Proofs.Aggregate.Addressing
import GuardedThings.Proofs.Json.RecordEdits
import GuardedThings.Proofs.Policy.WireForm
import GuardedThings.Proofs.Thing.WireForm

/-!
# Created parts

A command that creates something is answered with what is new, and this should
be what a query finds afterwards. For everything that is put in place in an
existing entity it is. The answer to the creation of a whole already has the
revision that the event is going to set, but not its time: it shows the times that
were proposed, if any, and what is stored has the time of the event as that of its
creation and its last modification.

So the answer shows what is stored exactly if a proposed whole is already dated at
the time of the command, and but for the two dates it always does
(`created_parts_are_shown_iff`).
-/

set_option autoImplicit false

namespace GuardedThings

/-! ## Dates -/

/-- A document without the times of its creation and last modification. -/
def Json.undated (document : Json) : Json := document.without ["_created", "_modified"]

namespace Bookkeeping

variable (b : Bookkeeping) (time : Timestamp)

/-- The bookkeeping of what was created at a time and is unchanged since. -/
def datedAt : Bookkeeping := { b with created := some time, modified := some time }

/-- Dating a document changes nothing iff it has these dates already. -/
theorem datedAt_eq_iff : b.datedAt time = b ↔ b.created = some time ∧ b.modified = some time := by
  obtain ⟨lifecycle, revision, created, modified⟩ := b
  simp only [datedAt, mk.injEq, true_and]
  exact ⟨fun h => ⟨h.1.symm, h.2.symm⟩, fun h => ⟨h.1.symm, h.2.symm⟩⟩

/-- Dates make no difference to the other members. -/
theorem without_members_datedAt :
    Assoc.without ["_created", "_modified"] (b.datedAt time).members =
      Assoc.without ["_created", "_modified"] b.members := by
  simp [Assoc.without, members, datedAt]

end Bookkeeping

/-- A policy that is dated at a time has the document it has without these dates, and the same
document exactly if it had them. -/
theorem Policy.toJson_datedAt (p : Policy) (time : Timestamp) :
    ({ p with book := p.book.datedAt time } : Policy).toJson.undated = p.toJson.undated ∧
      (({ p with book := p.book.datedAt time } : Policy).toJson = p.toJson ↔
        p.book.created = some time ∧ p.book.modified = some time) := by
  refine ⟨Json.without_ofFields_congr (p.book.without_members_datedAt time) _, ?_⟩
  rw [← p.book.datedAt_eq_iff]
  constructor
  · exact fun h => congrArg Policy.book (LawfulWire.encode_injective h)
  · intro h
    rw [h]

/-- The same of things. -/
theorem Thing.toJson_datedAt (t : Thing) (time : Timestamp) :
    ({ t with book := t.book.datedAt time } : Thing).toJson.undated = t.toJson.undated ∧
      (({ t with book := t.book.datedAt time } : Thing).toJson = t.toJson ↔
        t.book.created = some time ∧ t.book.modified = some time) := by
  refine ⟨Json.without_ofFields_congr (t.book.without_members_datedAt time) _, ?_⟩
  rw [← t.book.datedAt_eq_iff]
  constructor
  · exact fun h => congrArg Thing.book (LawfulWire.encode_injective h)
  · intro h
    rw [h]

/-! ## What is shown of a creation -/

variable {α γ ρ : Type} {kind : EntityKind} [Change γ] [Aggregate α kind γ]

/-- What an entity has at the place of the addressed part, and what every query about the same
resource is answered with, whenever it passes its conditional headers. -/
structure Addressing.Finds (A : Addressing ρ) (rules : CommandRules α kind γ ρ) (r : ρ) (entity : α)
    (content : Json) : Prop where
  stored : (A.place r).get? (Aggregate.toJson entity) = some content
  retrieved : ∀ (later : Timestamp) (query : Command kind ρ), A.key query.request = A.key r →
    rules.isQuery query.request = true → A.isPlaced query.request = true →
    rules.checkHeaders (some entity) query = none →
      ∃ answer, rules.execute later (some entity) query = .query answer ∧ answer.status = .ok ∧
        answer.entity = some content

/-- A response shows what was created: its body is what is found afterwards but for the dates of a
whole, and with them exactly if the request is dated at the time. -/
def Addressing.ShowsCreated (A : Addressing ρ) (rules : CommandRules α kind γ ρ)
    (isDatedAt : Timestamp → ρ → Prop) (entity : Option α) : Prop :=
  ∀ (now : Timestamp) (c : Command kind ρ) (event : Event kind γ) (response : Response)
    (created deleted : Bool), rules.execute now entity c = .mutation event response created deleted →
      response.status = .created →
        ∃ body next content, response.entity = some body ∧ Aggregate.apply event entity = .ok next ∧
          A.Finds rules c.request next content ∧ content.undated = body.undated ∧
          (content = body ↔ isDatedAt now c.request)

namespace Addressing.Governs

variable {A : Addressing ρ} {rules : CommandRules α kind γ ρ}

/-- What stands at the place of a part is found there. -/
theorem finds (h : A.Governs rules) {r : ρ} {entity : α} {content : Json}
    (hactive : Aggregate.isActive entity = true)
    (hcontent : (A.place r).get? (Aggregate.toJson entity) = some content) :
    A.Finds rules r entity content where
  stored := hcontent
  retrieved := by
    intro later query hkey hquery hplaced hpassed
    have hactive : Aggregate.active? (some entity) = some entity :=
      Option.filter_eq_some_iff.mpr ⟨rfl, hactive⟩
    rw [← h.place_eq_of_key _ _ hkey] at hcontent
    exact h.execute_of_passed hactive hcontent hquery hplaced hpassed

/-- It is enough to look at what was decided. -/
theorem showsCreated (h : A.Governs rules) {isDatedAt : Timestamp → ρ → Prop} {entity : Option α}
    (shows : ∀ (now : Timestamp) (revision : Revision) (c : Command kind ρ) (event : Event kind γ)
      (response : Response) (created deleted : Bool) (next : α),
      rules.decide now entity revision c = .mutation event response created deleted →
        response.status = .created → Aggregate.apply event entity = .ok next →
          A.isRemoval c.request = false ∧
            ∃ body content, response.entity = some body ∧
              (A.place c.request).get? (Aggregate.toJson next) = some content ∧
              content.undated = body.undated ∧ (content = body ↔ isDatedAt now c.request)) :
    A.ShowsCreated rules isDatedAt entity := by
  intro now c event response created deleted hexecuted hstatus
  obtain ⟨-, decided, next, hdecided, happlied, rfl⟩ := CommandRules.execute_mutation hexecuted
  obtain ⟨hkeeps, body, content, hbody, hcontent, hundated, hdated⟩ :=
    shows now _ c event decided created deleted next hdecided hstatus happlied
  obtain ⟨hactive, -⟩ := h.keeps _ _ _ _ _ _ _ _ _ hdecided hkeeps happlied
  exact ⟨body, next, content, hbody, happlied, h.finds hactive hcontent, hundated, hdated⟩

end Addressing.Governs

/-! ## Policies -/

namespace PolicyRequest

/-- Whether a policy, if the request proposes a whole one, is dated at a time. -/
def IsDatedAt (time : Timestamp) : PolicyRequest → Prop
  | create p | replace p => p.book.created = some time ∧ p.book.modified = some time
  | _ => True

/-- A proposal is no removal, is about the whole, and is dated as what it proposes. -/
theorem of_proposal {r : PolicyRequest} {proposed : Policy}
    (h : r = create proposed ∨ r = replace proposed) :
    addressing.isRemoval r = false ∧ r.part = .whole ∧ ∀ time, r.IsDatedAt time ↔
      proposed.book.created = some time ∧ proposed.book.modified = some time := by
  rcases h with rfl | rfl
  · exact ⟨rfl, rfl, fun _ => Iff.rfl⟩
  · exact ⟨rfl, rfl, fun _ => Iff.rfl⟩

end PolicyRequest

namespace PolicyRules

/-- Something that is put in place is answered as created if it is new, and with its content. -/
theorem Setting.Accepts.shown_of_created {s : Setting} {current : Policy} {change : PolicyChange}
    {response : Response} {created deleted : Bool}
    (haccepts : s.Accepts (some current) change response created deleted)
    (hstatus : response.status = .created) :
    ∃ given piece, s.command.request = .write given ∧ given.part = piece.part ∧
      change = .written .created piece ∧ response.entity = some piece.toJson := by
  have hnew : ∀ (existed : Bool) (piece : PolicyPiece),
      (s.putResponse existed piece).status = .created →
        PolicyChange.written (.of existed) piece = .written .created piece ∧
          (s.putResponse existed piece).entity = some piece.toJson := by
    intro existed piece hcreated
    cases existed with
    | true => cases hcreated
    | false => exact ⟨rfl, rfl⟩
  cases haccepts with
  | replaced | entriesReplaced | subjectsReplaced | resourcesReplaced | deleted | entryRemoved
  | subjectRemoved | resourceRemoved => cases hstatus
  | entryWritten _ given e asked adjusted =>
    exact ⟨.entry given, .entry e, asked,
      congrArg PolicyPart.entry (label_of_adjustEntry adjusted).symm, hnew _ _ hstatus⟩
  | subjectWritten _ _ l id given subject asked =>
    exact ⟨.subject l id given, .subject l id subject, asked, rfl, hnew _ _ hstatus⟩
  | resourceWritten _ _ l key effects asked =>
    exact ⟨.resource l key effects, .resource l key effects, asked, rfl, hnew _ _ hstatus⟩

/-- Policies are shown as they are found after their creation, but for the dates. -/
theorem showsCreated (config : PolicyConfig) (policy : Option Policy) :
    PolicyRequest.addressing.ShowsCreated (policyRules config) PolicyRequest.IsDatedAt policy := by
  refine (governs config).showsCreated ?_
  intro now revision c event response created deleted next hdecided hstatus happlied
  obtain ⟨change, rfl, haccepts⟩ := decide_mutation hdecided
  rcases Aggregate.apply_cases happlied with
    ⟨-, hnone, made, hmade, rfl⟩ | ⟨-, current, modified, hsome, hmodified, rfl⟩
  · rw [hnone] at haccepts
    cases haccepts with
    | created proposed p asked adjusted =>
      cases hmade
      obtain ⟨hkeeps, hwhole, hdates⟩ := PolicyRequest.of_proposal asked
      obtain ⟨id, book, entries⟩ := p
      have hbook : book = { proposed.book with lifecycle := .active } :=
        (Setting.kept_of_adjustPolicy adjusted).2
      subst hbook
      -- What is shown has the revision of the event, and still the dates of the proposal.
      obtain ⟨hundated, hdated⟩ := Policy.toJson_datedAt
        ⟨id, { proposed.book with lifecycle := .active, revision }, entries⟩ now
      refine ⟨hkeeps, _, _, rfl, ?_, hundated, hdated.trans ?_⟩
      · show c.request.part.place.get? _ = _
        rw [show c.request.part = _ from hwhole]
        rfl
      · exact (hdates now).symm
  · rw [hsome] at haccepts
    obtain ⟨given, piece, asked, hpart, rfl, hentity⟩ := haccepts.shown_of_created hstatus
    have hasked : c.request = .write given := asked
    cases hmodified
    rw [hasked]
    refine ⟨rfl, _, _, hentity, ?_, rfl, ⟨fun _ => trivial, fun _ => rfl⟩⟩
    show given.part.place.get? _ = _
    rw [hpart]
    refine (PolicyPart.get?_eq_get?_place _ piece.part).symm.trans ?_
    exact (PolicyPart.get?_withBook _ _ piece.part_ne_whole).trans (piece.get?_put current)

end PolicyRules

/-! ## Things -/

namespace ThingRequest

/-- Whether a thing, if the request proposes a whole one, is dated at a time. -/
def IsDatedAt (time : Timestamp) : ThingRequest → Prop
  | create t | replace t => t.book.created = some time ∧ t.book.modified = some time
  | _ => True

/-- A proposal is no removal, is about the whole, and is dated as what it proposes. -/
theorem of_proposal {r : ThingRequest} {proposed : Thing}
    (h : r = create proposed ∨ r = replace proposed) :
    addressing.isRemoval r = false ∧ r.part = .whole ∧ ∀ time, r.IsDatedAt time ↔
      proposed.book.created = some time ∧ proposed.book.modified = some time := by
  rcases h with rfl | rfl
  · exact ⟨rfl, rfl, fun _ => Iff.rfl⟩
  · exact ⟨rfl, rfl, fun _ => Iff.rfl⟩

end ThingRequest

namespace ThingRules

/-- Something that is put in place is answered as created if it is new, and with its content. -/
theorem Setting.Accepts.shown_of_created {s : Setting} {current : Thing} {change : ThingChange}
    (haccepts : s.Accepts (some current) change) (hstatus : (s.responseTo change).status = .created) :
    ∃ piece, s.command.request = .write piece ∧ change = .written .created piece ∧
      piece.part.isMisplaced = false ∧
      ∀ id, piece.part.owner? = some id → (current.feature? id).isSome := by
  cases haccepts with
  | replaced | policyAssigned | deleted | removed => cases hstatus
  | written _ piece asked placed owned =>
    cases hthere : (piece.part.get? current).isSome with
    | true =>
      rw [hthere] at hstatus
      cases hstatus
    | false => exact ⟨piece, asked, rfl, placed, owned⟩

/-- Things are shown as they are found after their creation, but for the dates. -/
theorem showsCreated (config : ThingConfig) (thing : Option Thing) :
    ThingRequest.addressing.ShowsCreated (thingRules config) ThingRequest.IsDatedAt thing := by
  refine (governs config).showsCreated ?_
  intro now revision c event response created deleted next hdecided hstatus happlied
  have hresponse := response_of_decide hdecided
  obtain ⟨change, rfl, haccepts⟩ := decide_mutation hdecided
  rcases Aggregate.apply_cases happlied with
    ⟨-, hnone, made, hmade, rfl⟩ | ⟨-, current, modified, hsome, hmodified, rfl⟩
  · rw [hnone] at haccepts
    cases haccepts with
    | created proposed t asked accepted =>
      cases hmade
      obtain ⟨hkeeps, hwhole, hdates⟩ := ThingRequest.of_proposal asked
      obtain ⟨-, -, rfl⟩ := (Setting.acceptThing_eq_ok_iff _ _ _ _).mp accepted
      obtain ⟨hundated, hdated⟩ := Thing.toJson_datedAt
        { proposed with
          policyId := some (proposed.policyId.getD c.entityId.toPolicyId)
          book := { proposed.book with lifecycle := .active, revision } } now
      refine ⟨hkeeps, _, _, congrArg Response.entity hresponse, ?_, hundated, hdated.trans ?_⟩
      · show c.request.part.place.get? _ = _
        rw [show c.request.part = _ from hwhole]
        rfl
      · exact (hdates now).symm
  · rw [hsome] at haccepts
    rw [hresponse] at hstatus
    obtain ⟨piece, asked, rfl, placed, owned⟩ := haccepts.shown_of_created hstatus
    have hasked : c.request = .write piece := asked
    cases hmodified
    rw [hasked]
    refine ⟨rfl, _, _, congrArg Response.entity hresponse, ?_, rfl,
      ⟨fun _ => trivial, fun _ => rfl⟩⟩
    show piece.part.place.get? _ = _
    exact (ThingPart.get?_place_withBook _ _ piece.part_ne_whole).trans
      (ThingPiece.get?_place_put placed owned)

end ThingRules

/-! ## Policies and things -/

/-- Whatever the settings and the state of a policy or a thing, the answer to a command that creates
something shows what queries find afterwards, but for the dates of a whole, and with them exactly if
the proposal is dated at the time of the command. -/
theorem created_parts_are_shown_iff (policies : PolicyConfig) (things : ThingConfig) :
    (∀ policy : Option Policy, PolicyRequest.addressing.ShowsCreated (policyRules policies)
      PolicyRequest.IsDatedAt policy) ∧
    ∀ thing : Option Thing, ThingRequest.addressing.ShowsCreated (thingRules things)
      ThingRequest.IsDatedAt thing :=
  ⟨PolicyRules.showsCreated policies, ThingRules.showsCreated things⟩

/-! ## A kiln -/

/-- A kiln that claims to have been created and modified at these times. -/
def kiln (created modified : Timestamp) : Thing :=
  { id := ⟨"org.example:kiln", by decide⟩
    book := { created := some created, modified := some modified } }

/-- The command to create it. -/
def createKiln (created modified : Timestamp) : ThingCommand :=
  ⟨(kiln created modified).id, .empty, .create (kiln created modified)⟩

/-- The event of its creation. -/
def kilnCreated (created modified : Timestamp) : Event .thing ThingChange :=
  (createKiln created modified).event ⟨1⟩ ⟨5⟩
    (.created { kiln created modified with
      policyId := some (kiln created modified).id.toPolicyId })

/-- The question for the kiln. -/
def askKiln : ThingCommand := ⟨(kiln ⟨0⟩ ⟨0⟩).id, .empty, .retrieve .whole⟩

/-- A kiln that is dated at the time of its creation is shown as it is found a second later. -/
theorem created_parts_are_shown_iff_kiln :
    ∃ response next answer,
      (thingRules .standard).execute ⟨5⟩ none (createKiln ⟨5⟩ ⟨5⟩) =
        .mutation (kilnCreated ⟨5⟩ ⟨5⟩) response true false ∧
      response.status = .created ∧ Aggregate.apply (kilnCreated ⟨5⟩ ⟨5⟩) none = .ok next ∧
      (thingRules .standard).execute ⟨1005⟩ (some next) askKiln = .query answer ∧
      answer.entity = response.entity := by
  obtain ⟨response, hexecuted, hstatus⟩ : ∃ response,
      (thingRules .standard).execute ⟨5⟩ none (createKiln ⟨5⟩ ⟨5⟩) =
        .mutation (kilnCreated ⟨5⟩ ⟨5⟩) response true false ∧ response.status = .created := by
    have hdecided : (thingRules .standard).decide ⟨5⟩ none ⟨1⟩ (createKiln ⟨5⟩ ⟨5⟩) =
        .mutation (kilnCreated ⟨5⟩ ⟨5⟩) (ThingRules.Setting.responseTo
          ⟨.standard, ⟨5⟩, ⟨1⟩, createKiln ⟨5⟩ ⟨5⟩⟩ (kilnCreated ⟨5⟩ ⟨5⟩).change) true false := by
      decide +kernel
    exact ⟨_, CommandRules.execute_eq_mutation rfl hdecided rfl, rfl⟩
  obtain ⟨body, next, content, hbody, happlied, hfinds, -, hdated⟩ :=
    (created_parts_are_shown_iff .standard .standard).2 none _ _ _ _ _ _ hexecuted hstatus
  obtain ⟨answer, hanswered, -, hentity⟩ := hfinds.retrieved ⟨1005⟩ askKiln rfl rfl rfl rfl
  refine ⟨response, next, answer, hexecuted, hstatus, happlied, hanswered, ?_⟩
  rw [hentity, hbody, hdated.mpr ⟨rfl, rfl⟩]

/-- A kiln that claims to be older is shown with the times it claims, and found with others. -/
theorem claimed_dates_are_shown :
    ∃ response next answer,
      (thingRules .standard).execute ⟨5⟩ none (createKiln ⟨1⟩ ⟨2⟩) =
        .mutation (kilnCreated ⟨1⟩ ⟨2⟩) response true false ∧
      response.status = .created ∧ Aggregate.apply (kilnCreated ⟨1⟩ ⟨2⟩) none = .ok next ∧
      (thingRules .standard).execute ⟨5⟩ (some next) askKiln = .query answer ∧
      answer.status = .ok ∧ answer.entity ≠ response.entity := by
  have hdecided : (thingRules .standard).decide ⟨5⟩ none ⟨1⟩ (createKiln ⟨1⟩ ⟨2⟩) =
      .mutation (kilnCreated ⟨1⟩ ⟨2⟩) (ThingRules.Setting.responseTo
        ⟨.standard, ⟨5⟩, ⟨1⟩, createKiln ⟨1⟩ ⟨2⟩⟩ (kilnCreated ⟨1⟩ ⟨2⟩).change) true false := by
    decide +kernel
  obtain ⟨next, happlied, hshown⟩ : ∃ next : Thing,
      Aggregate.apply (kilnCreated ⟨1⟩ ⟨2⟩) none = .ok next ∧
        some next.toJson ≠ (ThingRules.Setting.responseTo ⟨.standard, ⟨5⟩, ⟨1⟩, createKiln ⟨1⟩ ⟨2⟩⟩
          (kilnCreated ⟨1⟩ ⟨2⟩).change).entity :=
    ⟨_, rfl, by decide +kernel⟩
  have hactive : Aggregate.active? (some next) = some next := by
    cases happlied
    rfl
  obtain ⟨answer, hanswered, hstatus, hentity⟩ : ∃ answer,
      (thingRules .standard).execute ⟨5⟩ (some next) askKiln = .query answer ∧
        answer.status = .ok ∧ answer.entity = some next.toJson :=
    (ThingRules.governs .standard).execute_of_passed hactive rfl rfl rfl rfl
  refine ⟨_, next, answer, CommandRules.execute_eq_mutation rfl hdecided happlied, rfl, happlied,
    hanswered, hstatus, ?_⟩
  rw [hentity]
  exact hshown

end GuardedThings
