import GuardedThings.Proofs.Policy.Decisions
import GuardedThings.Proofs.Thing.Decisions

/-!
# Refusals

A command may be refused for many reasons, but the rules never give one that
blames the server: the two failures with that status are about events, and what
rules check is what clients ask for (`PolicyRules.decide_fails_fairly`,
`ThingRules.decide_fails_fairly`).

Rules are sequences of checks. A sequence fails as one of its checks does
(`FailsFairly.bind`), so there is one lemma for each check, and none of them looks
at what the others found.
-/

set_option autoImplicit false

namespace GuardedThings

/-- A result that fails, if it does, for a reason other than the server. -/
def FailsFairly {β : Type} (result : Except Failure β) : Prop :=
  ∀ failure, result = .error failure → failure.status ≠ .internalServerError

/-- What does not fail fails fairly. -/
theorem failsFairly_ok {β : Type} (b : β) : FailsFairly (.ok b) := by
  intro failure heq
  cases heq

/-- A failure is fair unless its status blames the server. -/
theorem failsFairly_error {β : Type} {failure : Failure}
    (h : failure.status ≠ .internalServerError) : FailsFairly (.error failure : Except _ β) := by
  intro failure' heq
  cases heq
  exact h

/-- To refuse with a status of another kind is fair. -/
theorem failsFairly_of_status {β : Type} {failure : Failure} (status : Status)
    (hstatus : failure.status = status) (hfair : status ≠ .internalServerError) :
    FailsFairly (.error failure : Except _ β) := by
  apply failsFairly_error
  rw [hstatus]
  exact hfair

namespace FailsFairly

variable {β δ : Type}

/-- A sequence fails as its first step or as what follows. -/
theorem bind {x : Except Failure β} {f : β → Except Failure δ} (hx : FailsFairly x)
    (hf : ∀ b, FailsFairly (f b)) : FailsFairly (x >>= f) := by
  cases x with
  | ok b => exact hf b
  | error failure => exact failsFairly_error (hx failure rfl)

/-- A check of every element fails as one of the checks does. -/
theorem mapM {f : β → Except Failure δ} (hf : ∀ b, FailsFairly (f b)) (l : List β) :
    FailsFairly (l.mapM f) := by
  induction l with
  | nil => exact failsFairly_ok []
  | cons b rest ih =>
    rw [List.mapM_cons]
    exact (hf b).bind fun d => ih.bind fun ds => failsFairly_ok (d :: ds)

/-- A check of every value of a dictionary fails as one of the checks does. -/
theorem mapValuesM {κ : Type} [Key κ] [DecidableEq κ] {f : κ → β → Except Failure δ}
    (hf : ∀ k b, FailsFairly (f k b)) (d : Dict κ β) : FailsFairly (d.mapValuesM f) := by
  refine bind (mapM ?_ _) fun entries => failsFairly_ok _
  intro entry
  exact (hf _ _).bind fun b => failsFairly_ok _

end FailsFairly

/-- A document beyond the limit is refused as too large. -/
theorem SizeLimit.check_fails_fairly (limit : SizeLimit) (document : Json) (headers : Headers) :
    FailsFairly (limit.check document headers) := by
  obtain ⟨kind, maxBytes⟩ := limit
  unfold check
  dsimp only
  split
  · exact failsFairly_ok ()
  · cases kind with
    | policy => exact failsFairly_of_status .payloadTooLarge rfl (by decide)
    | thing => exact failsFairly_of_status .payloadTooLarge rfl (by decide)

/-- Entries with one label twice are refused as a bad request. -/
theorem Policy.setEntries_fails_fairly (p : Policy) (entries : List Entry) :
    FailsFairly (p.setEntries entries) := by
  have hindex : ∀ indexed, FailsFairly (index indexed entries) := by
    induction entries with
    | nil => exact fun indexed => failsFairly_ok indexed
    | cons e rest ih =>
      intro indexed
      unfold index
      split
      · exact failsFairly_of_status .badRequest rfl (by decide)
      · exact ih _
  exact (hindex .empty).bind fun indexed => failsFairly_ok _

/-! ## Policies -/

namespace PolicyRules

namespace Setting

variable (s : Setting)

/-- The limit for policies is checked on the document with the part in it. -/
theorem checkSizeWith_fails_fairly (p : Policy) (part : PolicyPart) (content : Json) :
    FailsFairly (s.checkSizeWith p part content) :=
  s.config.sizeLimit.check_fails_fairly _ _

/-- A policy without an administrator is refused for the reason that the rule gives. -/
theorem checkAdministration_fails_fairly (p : Policy) {failure : String → Failure}
    (h : ∀ reason, FailsFairly (.error (failure reason) : Except Failure Unit)) :
    FailsFairly (s.checkAdministration p failure) := by
  unfold checkAdministration
  split
  · exact failsFairly_ok ()
  · exact h _

/-- A change that would leave no administrator is forbidden. -/
theorem wouldBeInvalid_fails_fairly (reason : String) :
    FailsFairly (.error (s.wouldBeInvalid reason) : Except Failure Unit) :=
  failsFairly_of_status .forbidden rfl (by decide)

/-- Changes of the whole policy are forbidden if they would leave no administrator. -/
theorem checkPolicy_fails_fairly (p : Policy) :
    FailsFairly (s.checkAdministration p s.wouldBeInvalid) :=
  s.checkAdministration_fails_fairly p s.wouldBeInvalid_fails_fairly

/-- Changes of an entry that would leave no administrator are bad requests. -/
theorem checkEntry_fails_fairly (p : Policy) (l : Label) :
    FailsFairly (s.checkAdministration p (s.entryWouldBeInvalid l)) := by
  apply s.checkAdministration_fails_fairly
  intro reason
  exact failsFairly_of_status .badRequest rfl (by decide)

/-- An entry that is not there is not found. -/
theorem existingEntry_fails_fairly (p : Policy) (l : Label) :
    FailsFairly (s.existingEntry p l) := by
  unfold existingEntry
  split
  · exact failsFairly_ok _
  · exact failsFairly_of_status .notFound rfl (by decide)

/-- An expiry in the past is a bad request. -/
theorem adjustSubject_fails_fairly (id : SubjectId) (subject : Subject) :
    FailsFairly (s.adjustSubject id subject) := by
  unfold adjustSubject
  split
  · exact failsFairly_ok _
  · dsimp only
    split
    · exact failsFairly_of_status .badRequest rfl (by decide)
    · exact failsFairly_ok _

/-- Subjects fail as one of them does. -/
theorem adjustSubjects_fails_fairly (subjects : Subjects) :
    FailsFairly (s.adjustSubjects subjects) :=
  FailsFairly.mapValuesM s.adjustSubject_fails_fairly subjects

/-- An entry fails as one of its subjects does. -/
theorem adjustEntry_fails_fairly (e : Entry) : FailsFairly (s.adjustEntry e) :=
  (s.adjustSubjects_fails_fairly _).bind fun _ => failsFairly_ok _

/-- A proposed policy is refused for its id, its subjects, its labels, its size, or for the reason
given for a lack of administrators. -/
theorem acceptPolicy_fails_fairly (proposed : Policy) {failure : String → Failure}
    (h : ∀ reason, FailsFairly (.error (failure reason) : Except Failure Unit)) :
    FailsFairly (s.acceptPolicy proposed failure) := by
  have hadjusted : FailsFairly (s.adjustPolicy proposed) := by
    unfold adjustPolicy
    split
    · exact failsFairly_of_status .badRequest rfl (by decide)
    · refine (FailsFairly.mapM s.adjustEntry_fails_fairly _).bind fun entries => ?_
      exact (proposed.setEntries_fails_fairly entries).bind fun p => failsFairly_ok _
  refine hadjusted.bind fun p => ?_
  refine (s.config.sizeLimit.check_fails_fairly _ _).bind fun _ => ?_
  exact (s.checkAdministration_fails_fairly p h).bind fun _ => failsFairly_ok p

/-- A new policy is refused as it is proposed. -/
theorem create_fails_fairly (proposed : Policy) : FailsFairly (s.create proposed) := by
  have hinvalid : ∀ reason, FailsFairly
      (.error (.policyInvalid s.id.text reason) : Except Failure Unit) := by
    intro reason
    exact failsFairly_of_status .badRequest rfl (by decide)
  exact (s.acceptPolicy_fails_fairly proposed hinvalid).bind fun _ => failsFairly_ok _

/-- All entries, subjects or resources are replaced at once, or refused by one of the checks. -/
theorem replaceGroup_fails_fairly (p : Policy) (group : PolicyGroup) :
    FailsFairly (s.replaceGroup p group) := by
  cases group with
  | entries given =>
    refine (FailsFairly.mapM s.adjustEntry_fails_fairly _).bind fun es => ?_
    refine (p.setEntries_fails_fairly es).bind fun next => ?_
    refine (s.checkSizeWith_fails_fairly _ _ _).bind fun _ => ?_
    exact (s.checkPolicy_fails_fairly _).bind fun _ => failsFairly_ok _
  | subjects l given =>
    refine (s.existingEntry_fails_fairly p l).bind fun _ => ?_
    refine (s.adjustSubjects_fails_fairly _).bind fun subjects => ?_
    refine (s.checkSizeWith_fails_fairly _ _ _).bind fun _ => ?_
    exact (s.checkEntry_fails_fairly _ _).bind fun _ => failsFairly_ok _
  | resources l resources =>
    refine (s.existingEntry_fails_fairly p l).bind fun _ => ?_
    refine (s.checkSizeWith_fails_fairly _ _ _).bind fun _ => ?_
    exact (s.checkEntry_fails_fairly _ _).bind fun _ => failsFairly_ok _

/-- A single piece is written, or refused by one of the checks. -/
theorem write_fails_fairly (p : Policy) (piece : PolicyPiece) : FailsFairly (s.write p piece) := by
  cases piece with
  | entry given =>
    refine (s.adjustEntry_fails_fairly given).bind fun e => ?_
    refine (s.checkSizeWith_fails_fairly _ _ _).bind fun _ => ?_
    exact (s.checkEntry_fails_fairly _ _).bind fun _ => failsFairly_ok _
  | subject l id given =>
    refine (s.existingEntry_fails_fairly p l).bind fun _ => ?_
    refine (s.checkSizeWith_fails_fairly _ _ _).bind fun _ => ?_
    refine (s.adjustSubject_fails_fairly id given).bind fun subject => ?_
    exact (s.checkEntry_fails_fairly _ _).bind fun _ => failsFairly_ok _
  | resource l key effects =>
    refine (s.existingEntry_fails_fairly p l).bind fun _ => ?_
    refine (s.checkSizeWith_fails_fairly _ _ _).bind fun _ => ?_
    exact (s.checkEntry_fails_fairly _ _).bind fun _ => failsFairly_ok _

/-- What is removed has to be there, and an administrator has to stay. -/
theorem remove_fails_fairly (p : Policy) (item : PolicyItem) : FailsFairly (s.remove p item) := by
  cases item with
  | whole => exact failsFairly_ok _
  | entry l =>
    refine (s.existingEntry_fails_fairly p l).bind fun _ => ?_
    exact (s.checkPolicy_fails_fairly _).bind fun _ => failsFairly_ok _
  | subject l id =>
    refine (s.existingEntry_fails_fairly p l).bind fun body => ?_
    split
    · exact failsFairly_of_status .notFound rfl (by decide)
    · exact (s.checkEntry_fails_fairly _ _).bind fun _ => failsFairly_ok _
  | resource l key =>
    refine (s.existingEntry_fails_fairly p l).bind fun body => ?_
    split
    · exact failsFairly_of_status .notFound rfl (by decide)
    · exact (s.checkEntry_fails_fairly _ _).bind fun _ => failsFairly_ok _

/-- A part of a policy that is not there is not found, whatever it is. -/
theorem notAccessible_fails_fairly {β : Type} (part : PolicyPart) :
    FailsFairly (.error (part.notAccessible s.id) : Except Failure β) := by
  cases part with
  | whole | entries | entry | subjects | subject | resources | resource =>
    exact failsFairly_of_status .notFound rfl (by decide)

/-- A query about a policy fails only if the part is not found. -/
theorem retrieve_fails_fairly (p : Policy) (part : PolicyPart) :
    FailsFairly (s.retrieve p part) := by
  unfold retrieve
  cases part.label? with
  | none =>
    dsimp only
    split
    · exact failsFairly_ok _
    · exact s.notAccessible_fails_fairly part
  | some l =>
    refine (s.existingEntry_fails_fairly p l).bind fun _ => ?_
    split
    · exact failsFairly_ok _
    · exact s.notAccessible_fails_fairly part

/-- A command to an active policy fails by its own checks, or because the policy exists. -/
theorem onExisting_fails_fairly (p : Policy) : FailsFairly (s.onExisting p) := by
  unfold onExisting
  cases s.command.request with
  | create _ => exact failsFairly_of_status .conflict rfl (by decide)
  | replace proposed =>
    exact (s.acceptPolicy_fails_fairly proposed s.wouldBeInvalid_fails_fairly).bind
      fun _ => failsFairly_ok _
  | replaceGroup group => exact s.replaceGroup_fails_fairly p group
  | write piece => exact s.write_fails_fairly p piece
  | remove item => exact s.remove_fails_fairly p item
  | retrieve part => exact s.retrieve_fails_fairly p part

/-- Without an active policy only creations are decided; nothing else is found. -/
theorem onMissing_fails_fairly : FailsFairly s.onMissing := by
  unfold onMissing
  cases s.command.request with
  | create proposed | replace proposed => exact s.create_fails_fairly proposed
  | replaceGroup _ | write _ | remove _ | retrieve _ =>
    exact failsFairly_of_status .notFound rfl (by decide)

end Setting

/-- Whatever a command asks of a policy, it is not refused for a reason of the server. -/
theorem decide_fails_fairly {config : PolicyConfig} {now : Timestamp} {policy : Option Policy}
    {revision : Revision} {c : PolicyCommand} {failure : Failure}
    (h : decide config now policy revision c = .failed failure) :
    failure.status ≠ .internalServerError := by
  rcases decide_cases h with ⟨current, -, hresult⟩ | ⟨-, hresult⟩ | ⟨refused, heq, hrefused⟩
  · -- What is decided without a failure is a mutation or an answer.
    rcases Setting.onExisting_mutates hresult with ⟨_, _, _, _, heq, -⟩ | ⟨_, _, -, -, heq⟩
    · cases heq
    · cases heq
  · obtain ⟨_, _, _, _, heq, -⟩ := Setting.onMissing_mutates hresult
    cases heq
  · cases heq
    rcases hrefused with ⟨current, hresult⟩ | hresult
    · exact Setting.onExisting_fails_fairly _ current failure hresult
    · exact Setting.onMissing_fails_fairly _ failure hresult

end PolicyRules

/-! ## Things -/

namespace ThingRules

namespace Setting

variable (s : Setting)

/-- The limit for things is checked on the document with the part in it. -/
theorem checkSizeWith_fails_fairly (t : Thing) (part : ThingPart) (content : Json) :
    FailsFairly (s.checkSizeWith t part content) :=
  s.config.sizeLimit.check_fails_fairly _ _

/-- The root in place of something below it is a bad request. -/
theorem checkPlace_fails_fairly (part : ThingPart) : FailsFairly (checkPlace part) := by
  unfold checkPlace
  split
  · exact failsFairly_of_status .badRequest rfl (by decide)
  · exact failsFairly_ok ()

/-- Properties of a feature that is not there are not found. -/
theorem checkOwner_fails_fairly (t : Thing) (part : ThingPart) :
    FailsFairly (s.checkOwner t part) := by
  unfold checkOwner
  split
  · unfold checkFeature
    split
    · exact failsFairly_ok ()
    · exact failsFairly_of_status .notFound rfl (by decide)
  · exact failsFairly_ok ()

/-- A part of a thing that is not there is not found, whatever it is. -/
theorem notAccessible_fails_fairly {β : Type} (part : ThingPart) :
    FailsFairly (.error (part.notAccessible s.id) : Except Failure β) := by
  cases part with
  | whole | policyId | definition | attributes | attributeAt | features | feature =>
    exact failsFairly_of_status .notFound rfl (by decide)
  | properties side | property side =>
    cases side with
    | reported | desired => exact failsFairly_of_status .notFound rfl (by decide)

/-- A proposed thing is refused for its id or its size. -/
theorem acceptThing_fails_fairly (proposed : Thing) (fallback : PolicyId) :
    FailsFairly (s.acceptThing proposed fallback) := by
  unfold acceptThing
  split
  · exact failsFairly_of_status .badRequest rfl (by decide)
  · exact (s.config.sizeLimit.check_fails_fairly _ _).bind fun _ => failsFairly_ok _

/-- What is removed has to have a place and to be there. -/
theorem remove_fails_fairly (t : Thing) (item : ThingItem) : FailsFairly (s.remove t item) := by
  unfold remove
  split
  · exact failsFairly_ok _
  · refine (checkPlace_fails_fairly _).bind fun _ => ?_
    refine (s.checkOwner_fails_fairly t _).bind fun _ => ?_
    split
    · exact failsFairly_ok _
    · exact s.notAccessible_fails_fairly _

/-- A query about a thing fails only if the part is not found. -/
theorem retrieve_fails_fairly (t : Thing) (query : ThingQuery) :
    FailsFairly (s.retrieve t query) := by
  refine (s.checkOwner_fails_fairly t _).bind fun _ => ?_
  split
  · exact failsFairly_ok _
  · exact s.notAccessible_fails_fairly _

/-- A command to an active thing fails by its own checks, or because the thing exists. -/
theorem onExisting_fails_fairly (t : Thing) : FailsFairly (s.onExisting t) := by
  unfold onExisting
  cases s.command.request with
  | create _ => exact failsFairly_of_status .conflict rfl (by decide)
  | replace proposed => exact (s.acceptThing_fails_fairly _ _).bind fun _ => failsFairly_ok _
  | assignPolicy id => exact (s.checkSizeWith_fails_fairly _ _ _).bind fun _ => failsFairly_ok _
  | write piece =>
    refine (checkPlace_fails_fairly _).bind fun _ => ?_
    refine (s.checkOwner_fails_fairly t _).bind fun _ => ?_
    exact (s.checkSizeWith_fails_fairly _ _ _).bind fun _ => failsFairly_ok _
  | remove item => exact s.remove_fails_fairly t item
  | retrieve query => exact s.retrieve_fails_fairly t query

/-- Without an active thing only creations are decided; nothing else is found. -/
theorem onMissing_fails_fairly : FailsFairly s.onMissing := by
  unfold onMissing
  cases s.command.request with
  | create proposed | replace proposed =>
    exact (s.acceptThing_fails_fairly _ _).bind fun _ => failsFairly_ok _
  | assignPolicy _ | write _ | remove _ | retrieve _ =>
    exact failsFairly_of_status .notFound rfl (by decide)

end Setting

/-- Whatever a command asks of a thing, it is not refused for a reason of the server. -/
theorem decide_fails_fairly {config : ThingConfig} {now : Timestamp} {thing : Option Thing}
    {revision : Revision} {c : ThingCommand} {failure : Failure}
    (h : decide config now thing revision c = .failed failure) :
    failure.status ≠ .internalServerError := by
  rcases decide_cases h with ⟨current, -, hresult⟩ | ⟨-, hresult⟩ | ⟨refused, heq, hrefused⟩
  · -- What is decided without a failure is a mutation or an answer.
    rcases Setting.onExisting_mutates hresult with ⟨_, _, _, _, heq, -⟩ | ⟨_, _, -, -, heq⟩
    · cases heq
    · cases heq
  · obtain ⟨_, _, _, _, heq, -⟩ := Setting.onMissing_mutates hresult
    cases heq
  · cases heq
    rcases hrefused with ⟨current, hresult⟩ | hresult
    · exact Setting.onExisting_fails_fairly _ current failure hresult
    · exact Setting.onMissing_fails_fairly _ failure hresult

end ThingRules

end GuardedThings
