import GuardedThings.Proofs.Aggregate.CommandForm
import GuardedThings.Proofs.Policy.Decisions
import GuardedThings.Proofs.Thing.Decisions

/-!
# Responses read back

A response is written with its body, if it has one, and a body that is null is
written as null. But the reader takes a field that is null for a missing one, so
such a response is read back without its body (`Response.decode_encode`). All
other responses are read back as they were written: their headers are a
correlation id and a tag, and never metadata (`CommandRules.Responds`).

The parts of policies are objects, so responses about policies are always read
back. The values at pointers into the attributes of a thing or the properties of
its features are whatever was put there. A response about a thing shows null
exactly if a value that is null was asked for, or was put where nothing was
(`ThingRequest.ShowsNull`).
-/

set_option autoImplicit false

namespace GuardedThings

/-- The response of an outcome that is no failure. -/
def Outcome.response? {kind : EntityKind} {γ : Type} : Outcome kind γ → Option Response
  | .mutation _ response _ _ => some response
  | .query response => some response
  | .failed _ => none

/-! ## The wire form -/

instance : LawfulWire Status where
  decode_encode s := by
    cases s <;> rfl

/-- A body that is not null stays. -/
theorem Json.filter_ne_null {v : Json} (h : v ≠ .null) :
    (some v).filter (fun v => v ≠ .null) = some v :=
  Option.filter_eq_some_iff.mpr ⟨rfl, decide_eq_true h⟩

namespace Response

/-- The response as it is read back: a body that is null is taken for none. -/
def readBack (r : Response) : Response :=
  { r with entity := r.entity.filter fun body => body ≠ .null }

/-- A response is read back as it is iff its body is not null. -/
theorem readBack_eq_iff (r : Response) : r.readBack = r ↔ r.entity ≠ some .null := by
  obtain ⟨entityId, type, status, entity, headers⟩ := r
  constructor
  · rintro heq rfl
    cases heq
  · intro hne
    cases entity with
    | none => rfl
    | some body =>
      have hbody : body ≠ .null := fun heq => hne (congrArg some heq)
      have hkept := Json.filter_ne_null hbody
      unfold readBack
      rw [hkept]

/-- The body is read from its field, where null counts as no body. -/
theorem reads_entity {fields : List (String × Option Json)} {entity : Option Json}
    (hnodup : (fields.map Prod.fst).Nodup) (hget : Assoc.get? "entity" fields = some entity) :
    (Fields.optional "entity" (Wire.decode : Decoder Json Json)).Reads ["entity"] fields
      (entity.filter fun body => body ≠ .null) := by
  cases entity with
  | none => exact Fields.reads_field_of_none hnodup hget
  | some body =>
    by_cases hbody : body = .null
    · subst hbody
      exact Fields.reads_field_of_some hnodup hget rfl
    · rw [Json.filter_ne_null hbody]
      exact Fields.reads_field_of_some hnodup hget
        (Fields.decode_option_of_ne_null hbody (LawfulWire.decode_encode body))

/-- A response is read back from its wire form but for a null body. -/
theorem decode_encode {r : Response} (hmetadata : r.headers.metadata ≠ some .null) :
    Wire.decode (Wire.encode r : Json) = .ok r.readBack := by
  refine ((Fields.Reads.required ?_ rfl).and
    ((Fields.Reads.required ?_ rfl).and
      ((Fields.Reads.required ?_ rfl).and
        ((reads_entity ?_ rfl).and
          (Fields.reads_field_of_some ?_ rfl (Headers.decode_encode hmetadata)) ?_) ?_) ?_) ?_).map
    _ |>.decode
  all_goals simp

end Response

/-! ## Responses of commands -/

namespace CommandRules

variable {α γ ρ : Type} {kind : EntityKind} [Change γ] [Aggregate α kind γ]
  {rules : CommandRules α kind γ ρ} {now : Timestamp} {entity : Option α} {c : Command kind ρ}
  {response : Response}

/-- A response is a decided one with a tag, or says that nothing was modified. -/
theorem response_of_execute (h : (rules.execute now entity c).response? = some response) :
    (∃ tag, response = rules.notModified c tag) ∨
      ∃ decided tag,
        (rules.decide now entity (Aggregate.revision entity).next c).response? = some decided ∧
          response = decided.withTag tag := by
  cases hexecuted : rules.execute now entity c with
  | failed failure =>
    rw [hexecuted] at h
    cases h
  | mutation event response' created deleted =>
    rw [hexecuted] at h
    cases h
    obtain ⟨-, decided, next, hdecided, -, rfl⟩ := execute_mutation hexecuted
    exact .inr ⟨decided, _, by rw [hdecided]; rfl, rfl⟩
  | query response' =>
    rw [hexecuted] at h
    cases h
    rcases execute_query hexecuted with hheaders | ⟨-, decided, hdecided, rfl⟩
    · obtain ⟨-, -, -, rfl⟩ := (rules.checkHeaders_eq_query_iff entity c _).mp hheaders
      exact .inl ⟨_, rfl⟩
    · exact .inr ⟨decided, _, by rw [hdecided]; rfl, rfl⟩

/-- Decided responses have the headers of responses, and `nulls` tells which of them have a body
that is null. -/
structure Responds (rules : CommandRules α kind γ ρ) (nulls : Option α → ρ → Status → Prop) :
    Prop where
  decided : ∀ (now : Timestamp) (entity : Option α) (revision : Revision) (c : Command kind ρ)
    (response : Response), (rules.decide now entity revision c).response? = some response →
      response.headers = c.headers.forResponse ∧
        (response.entity = some .null ↔ nulls entity c.request response.status)
  modified : ∀ (entity : Option α) (r : ρ), ¬ nulls entity r .notModified

/-- Every response is read back without a body that is null, which it has in the cases told. -/
theorem Responds.read_back {nulls : Option α → ρ → Status → Prop} (h : rules.Responds nulls)
    (hresponse : (rules.execute now entity c).response? = some response) :
    Wire.decode (Wire.encode response : Json) = .ok response.readBack ∧
      (Wire.decode (Wire.encode response : Json) = .ok response ↔
        ¬ nulls entity c.request response.status) := by
  have hmetadata : response.headers.metadata ≠ some .null := by
    rcases response_of_execute hresponse with ⟨tag, rfl⟩ | ⟨decided, tag, hdecided, rfl⟩
    · exact nofun
    · intro hnull
      have hplain : decided.headers.metadata = some .null := hnull
      rw [(h.decided now entity _ c decided hdecided).1] at hplain
      cases hplain
  have hnull : response.entity = some .null ↔ nulls entity c.request response.status := by
    rcases response_of_execute hresponse with ⟨tag, rfl⟩ | ⟨decided, tag, hdecided, rfl⟩
    · exact ⟨nofun, fun hnulls => absurd hnulls (h.modified entity c.request)⟩
    · exact (h.decided now entity _ c decided hdecided).2
  have hread := Response.decode_encode hmetadata
  refine ⟨hread, ?_⟩
  rw [hread, Except.ok.injEq, Response.readBack_eq_iff, Ne, hnull]

end CommandRules

/-! ## Policies -/

/-- The parts of a policy are not null. -/
theorem PolicyPart.get?_ne_null (p : Policy) (part : PolicyPart) : part.get? p ≠ some .null := by
  intro h
  cases part with
  | whole | entries => cases h
  | entry l | subjects l | subject l _ | resources l | resource l _ =>
    obtain ⟨_, -, heq⟩ := Option.map_eq_some_iff.mp h
    cases heq

namespace PolicyRules

/-- The response to an accepted change has the headers of responses and a body that is not null. -/
theorem Setting.Accepts.plain {s : Setting} {policy : Option Policy} {change : PolicyChange}
    {response : Response} {created deleted : Bool}
    (haccepts : s.Accepts policy change response created deleted) :
    response.headers = s.command.headers.forResponse ∧ response.entity ≠ some .null := by
  have hput : ∀ (existed : Bool) (piece : PolicyPiece),
      (s.putResponse existed piece).headers = s.command.headers.forResponse ∧
        (s.putResponse existed piece).entity ≠ some .null := by
    intro existed piece
    cases existed with
    | true => exact ⟨rfl, nofun⟩
    | false =>
      cases piece with
      | entry | subject | resource => exact ⟨rfl, nofun⟩
  cases haccepts with
  | created | replaced | entriesReplaced | subjectsReplaced | resourcesReplaced | deleted
  | entryRemoved | subjectRemoved | resourceRemoved => exact ⟨rfl, nofun⟩
  | entryWritten | subjectWritten | resourceWritten => exact hput _ _

/-- No response about a policy has a body that is null. -/
theorem responds (config : PolicyConfig) : (policyRules config).Responds fun _ _ _ => False where
  decided := by
    intro now policy revision c response h
    rw [iff_false]
    cases hdecided : (policyRules config).decide now policy revision c with
    | failed failure =>
      rw [hdecided] at h
      cases h
    | mutation event response' created deleted =>
      rw [hdecided] at h
      cases h
      obtain ⟨change, -, haccepts⟩ := decide_mutation hdecided
      exact haccepts.plain
    | query response' =>
      rw [hdecided] at h
      cases h
      obtain ⟨current, -, part, content, -, hcontent, heq⟩ := decide_answers hdecided
      cases heq
      refine ⟨rfl, fun hnull => part.get?_ne_null current ?_⟩
      rw [hcontent]
      exact hnull
  modified _ _ := not_false

end PolicyRules

/-! ## Things -/

/-- A response to a request about a thing shows null: a value that is null was asked for, or was put
where nothing was. -/
inductive ThingRequest.ShowsNull (thing : Option Thing) : ThingRequest → Status → Prop where
  | found {t : Thing} {query : ThingQuery} (active : Aggregate.active? thing = some t)
      (null : query.part.get? t = some .null) : ShowsNull thing (.retrieve query) .ok
  | put {piece : ThingPiece} (null : piece.toJson = .null) : ShowsNull thing (.write piece) .created

/-- Only what a pointer leads to can be null. -/
theorem ThingRequest.ShowsNull.pointed {thing : Option Thing} {r : ThingRequest} {status : Status}
    (h : r.ShowsNull thing status) :
    ∃ p, r.part = .attributeAt p ∨ ∃ side id, r.part = .property side id p := by
  cases h with
  | @found t query _ null =>
    cases query with
    | attributeAt p => exact ⟨p, .inl rfl⟩
    | property side id p => exact ⟨p, .inr ⟨side, id, rfl⟩⟩
    | whole => cases null
    | attributes | feature =>
      obtain ⟨_, -, heq⟩ := Option.map_eq_some_iff.mp null
      cases heq
  | @put piece null =>
    cases piece with
    | attributeAt p => exact ⟨p, .inl rfl⟩
    | property side id p => exact ⟨p, .inr ⟨side, id, rfl⟩⟩
    | definition | attributes | features | feature | properties => cases null

namespace ThingRules

/-- The response to an accepted change has a body that is null exactly if null was put where nothing
was. -/
theorem Setting.Accepts.null_iff {s : Setting} {thing : Option Thing} {change : ThingChange}
    (haccepts : s.Accepts (Aggregate.active? thing) change) :
    (s.responseTo change).entity = some .null ↔
      s.command.request.ShowsNull thing (s.responseTo change).status := by
  generalize Aggregate.active? thing = current at haccepts
  cases haccepts with
  | created _ _ asked =>
    rcases asked with hasked | hasked
    · rw [hasked]
      exact ⟨nofun, nofun⟩
    · rw [hasked]
      exact ⟨nofun, nofun⟩
  | replaced _ _ _ asked | policyAssigned _ _ asked | deleted _ asked | removed _ _ _ asked =>
    rw [asked]
    exact ⟨nofun, nofun⟩
  | written current piece asked =>
    rw [asked]
    cases (piece.part.get? current).isSome with
    | true => exact ⟨nofun, nofun⟩
    | false =>
      constructor
      · intro hnull
        exact .put (Option.some.inj hnull)
      · intro hshows
        cases hshows with
        | put null => exact congrArg some null

/-- The response to a change has the headers that the command hands on. -/
theorem Setting.headers_responseTo (s : Setting) (change : ThingChange) :
    (s.responseTo change).headers = s.command.headers.forResponse := by
  unfold responseTo
  split
  · rfl
  · rfl
  · rfl

/-- A response about a thing has a body that is null where the request shows null. -/
theorem responds (config : ThingConfig) :
    (thingRules config).Responds fun thing r status => r.ShowsNull thing status where
  decided := by
    intro now thing revision c response h
    cases hdecided : (thingRules config).decide now thing revision c with
    | failed failure =>
      rw [hdecided] at h
      cases h
    | mutation event response' created deleted =>
      rw [hdecided] at h
      cases h
      have hresponse := response_of_decide hdecided
      obtain ⟨change, rfl, haccepts⟩ := decide_mutation hdecided
      rw [hresponse]
      exact ⟨Setting.headers_responseTo _ _, haccepts.null_iff⟩
    | query response' =>
      rw [hdecided] at h
      cases h
      obtain ⟨current, hactive, query, content, asked, hcontent, heq⟩ := decide_answers hdecided
      cases heq
      have hasked : c.request = .retrieve query := asked
      refine ⟨rfl, ?_⟩
      rw [hasked]
      constructor
      · intro hnull
        exact .found hactive (hcontent.trans hnull)
      · intro hshows
        cases hshows with
        | found active null =>
          rw [hactive] at active
          cases active
          exact hcontent.symm.trans null
  modified _ _ := nofun

end ThingRules

/-! ## Policies and things -/

/-- Every response about a policy is read back as it was written. A response about a thing is read
back without a body that is null, and so as it was written exactly if it does not show null; it does
only for the value at a pointer. -/
theorem responses_read_back (policies : PolicyConfig) (things : ThingConfig) :
    (∀ (now : Timestamp) (policy : Option Policy) (c : PolicyCommand) (response : Response),
      ((policyRules policies).execute now policy c).response? = some response →
        Wire.decode (Wire.encode response : Json) = .ok response) ∧
    ∀ (now : Timestamp) (thing : Option Thing) (c : ThingCommand) (response : Response),
      ((thingRules things).execute now thing c).response? = some response →
        Wire.decode (Wire.encode response : Json) = .ok response.readBack ∧
          (Wire.decode (Wire.encode response : Json) = .ok response ↔
            ¬ c.request.ShowsNull thing response.status) ∧
          (c.request.ShowsNull thing response.status →
            ∃ p, c.request.part = .attributeAt p ∨
              ∃ side id, c.request.part = .property side id p) := by
  constructor
  · intro now policy c response h
    exact ((PolicyRules.responds policies).read_back h).2.mpr not_false
  · intro now thing c response h
    obtain ⟨hread, hsame⟩ := (ThingRules.responds things).read_back h
    exact ⟨hread, hsame, ThingRequest.ShowsNull.pointed⟩

/-! ## A parcel with an empty note -/

/-- A parcel whose note is null. -/
def parcel : Thing :=
  { id := ⟨"org.example:parcel", by decide⟩
    attributes := some [("note", .null), ("weight", .integer 3)] }

/-- The question for an attribute of the parcel. -/
def askParcel (name : String) : ThingCommand :=
  ⟨parcel.id, .empty, .retrieve (.attributeAt (.ofSegments [name]))⟩

/-- The weight is read back as it was told, the note is not. -/
theorem responses_read_back_parcel :
    ∃ weight note,
      ((thingRules .standard).execute ⟨0⟩ (some parcel) (askParcel "weight")).response? =
        some weight ∧
      ((thingRules .standard).execute ⟨0⟩ (some parcel) (askParcel "note")).response? =
        some note ∧
      Wire.decode (Wire.encode weight : Json) = .ok weight ∧
      note.entity = some .null ∧ Wire.decode (Wire.encode note : Json) = .ok note.readBack ∧
      Wire.decode (Wire.encode note : Json) ≠ .ok note := by
  obtain ⟨weight, hweight, hstatus⟩ : ∃ weight,
      ((thingRules .standard).execute ⟨0⟩ (some parcel) (askParcel "weight")).response? =
        some weight ∧ weight.status = .ok := ⟨_, rfl, rfl⟩
  obtain ⟨note, hnote, hentity, hstatus'⟩ : ∃ note,
      ((thingRules .standard).execute ⟨0⟩ (some parcel) (askParcel "note")).response? =
        some note ∧ note.entity = some .null ∧ note.status = .ok := ⟨_, rfl, rfl, rfl⟩
  obtain ⟨-, hsame, -⟩ :=
    (responses_read_back .standard .standard).2 ⟨0⟩ _ (askParcel "weight") weight hweight
  obtain ⟨hread, hsame', -⟩ :=
    (responses_read_back .standard .standard).2 ⟨0⟩ _ (askParcel "note") note hnote
  refine ⟨weight, note, hweight, hnote, hsame.mpr ?_, hentity, hread, fun heq => ?_⟩
  · rw [hstatus]
    intro hshows
    cases hshows with
    | found active null =>
      cases active
      cases null
  · refine hsame'.mp heq ?_
    rw [hstatus']
    exact .found rfl rfl

/-- The command by which the parcel comes to be. -/
def sendParcel : ThingCommand := ⟨parcel.id, .empty, .create parcel⟩

/-- The parcel is stored with its note, and whoever asks for the note is given a response that is
not read back. -/
theorem null_note_not_read_back :
    ¬∀ (id : ThingId) (steps : List (Timestamp × ThingCommand)) (now : Timestamp)
      (c : ThingCommand) (response : Response),
      let thing := ((AggregateRoot.new id).run (thingRules .standard) steps).state
      ((thingRules .standard).execute now thing c).response? = some response →
        Wire.decode (Wire.encode response : Json) = .ok response := by
  intro h
  have hstored : ((AggregateRoot.new parcel.id).run (thingRules .standard)
      [(⟨0⟩, sendParcel)]).state =
        some { parcel with
          policyId := some parcel.id.toPolicyId, book := ⟨.active, ⟨1⟩, some ⟨0⟩, some ⟨0⟩⟩ } := by
    decide +kernel
  obtain ⟨note, hnote, hentity, hmetadata⟩ : ∃ note,
      ((thingRules .standard).execute ⟨1⟩
        ((AggregateRoot.new parcel.id).run (thingRules .standard) [(⟨0⟩, sendParcel)]).state
        (askParcel "note")).response? = some note ∧
          note.entity = some .null ∧ note.headers.metadata = none := by
    rw [hstored]
    exact ⟨_, rfl, rfl, rfl⟩
  have hread := h parcel.id [(⟨0⟩, sendParcel)] ⟨1⟩ (askParcel "note") note hnote
  rw [Response.decode_encode (hmetadata ▸ nofun), Except.ok.injEq,
    Response.readBack_eq_iff] at hread
  exact hread hentity

end GuardedThings
