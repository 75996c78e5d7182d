import GuardedThings.Proofs.Aggregate.Run
import GuardedThings.Thing.Rules

/-!
# Accepted changes of things

`Accepts` lists, for each kind of request that changes a thing, the change that
is emitted and everything that was checked before: the current thing (none for a
creation), that a part below an object is not the object itself, that the
feature the part belongs to is there, the size, and for a removal the part.

`decide_mutation` is the one place where the rules are taken apart: whenever a
command is decided to be a mutation, its change is one of these. Unlike those of
policies, accepted changes carry what was asked for as it was asked. The response,
and whether the thing begins or ends, is determined by the change
(`tells_of_decide`).
-/

set_option autoImplicit false

namespace GuardedThings.ThingRules

namespace Setting

/-- A part has a place unless it is addressed by the root in place of something below it. -/
theorem checkPlace_eq_ok_iff (part : ThingPart) :
    checkPlace part = .ok () ↔ part.isMisplaced = false := by
  unfold checkPlace
  cases part.isMisplaced with
  | true => exact ⟨nofun, nofun⟩
  | false => exact ⟨fun _ => rfl, fun _ => rfl⟩

/-- The owner of a part passes its check exactly if the thing has it. -/
theorem checkOwner_eq_ok_iff (s : Setting) (t : Thing) (part : ThingPart) :
    s.checkOwner t part = .ok () ↔ ∀ id, part.owner? = some id → (t.feature? id).isSome := by
  unfold checkOwner
  cases part.owner? with
  | none =>
    constructor
    · intro _ id h
      cases h
    · exact fun _ => rfl
  | some id =>
    unfold checkFeature
    constructor
    · intro h id' heq
      cases heq
      by_cases hfeature : (t.feature? id).isSome = true
      · exact hfeature
      · simp only [hfeature] at h
        cases h
    · intro h
      exact if_pos (h id rfl)

/-- An accepted thing is the proposed one, active and with a policy, and it was measured so. -/
theorem acceptThing_eq_ok_iff (s : Setting) (proposed t : Thing) (fallback : PolicyId) :
    s.acceptThing proposed fallback = .ok t ↔
      proposed.id = s.id ∧ s.checkSize t.toJson = .ok () ∧
        t = { proposed.withLifecycle .active with
          policyId := some (proposed.policyId.getD fallback) } := by
  unfold acceptThing
  by_cases hid : proposed.id = s.id
  · rw [if_neg (not_not_intro hid)]
    constructor
    · intro h
      obtain ⟨_, hfits, heq⟩ := (bind_eq_ok_iff _ _ _).mp h
      cases heq
      exact ⟨hid, hfits, rfl⟩
    · rintro ⟨-, hfits, rfl⟩
      exact (bind_eq_ok_iff _ _ _).mpr ⟨(), hfits, rfl⟩
  · rw [if_pos hid]
    exact ⟨nofun, fun h => absurd h.1 hid⟩

/-! ## The accepted changes -/

/-- The changes a command may make, given the active thing. -/
inductive Accepts (s : Setting) : Option Thing → ThingChange → Prop
  | created (proposed t : Thing)
      (asked : s.command.request = .create proposed ∨ s.command.request = .replace proposed)
      (accepted : s.acceptThing proposed s.id.toPolicyId = .ok t) :
      Accepts s none (.created t)
  | replaced (current proposed t : Thing)
      (asked : s.command.request = .replace proposed)
      (accepted : s.acceptThing proposed (current.policyId.getD s.id.toPolicyId) = .ok t) :
      Accepts s (some current) (.replaced t)
  | policyAssigned (current : Thing) (id : PolicyId)
      (asked : s.command.request = .assignPolicy id)
      (fits : s.checkSizeWith current .policyId (Wire.encode id) = .ok ()) :
      Accepts s (some current) (.policyAssigned id)
  | written (current : Thing) (piece : ThingPiece)
      (asked : s.command.request = .write piece)
      (placed : piece.part.isMisplaced = false)
      (owned : ∀ id, piece.part.owner? = some id → (current.feature? id).isSome)
      (fits : s.checkSizeWith current piece.part piece.toJson = .ok ()) :
      Accepts s (some current) (.written (.of (piece.part.get? current).isSome) piece)
  | deleted (current : Thing) (asked : s.command.request = .remove .whole) :
      Accepts s (some current) (.removed .whole)
  | removed (current : Thing) (item : ThingItem) (inside : item ≠ .whole)
      (asked : s.command.request = .remove item)
      (placed : item.part.isMisplaced = false)
      (owned : ∀ id, item.part.owner? = some id → (current.feature? id).isSome)
      (found : (item.part.get? current).isSome) :
      Accepts s (some current) (.removed item)

/-- What is accepted without an active thing creates one. -/
theorem Accepts.part_of_none {s : Setting} {change : ThingChange}
    (haccepts : s.Accepts none change) :
    s.command.request.part = .whole := by
  cases haccepts with
  | created proposed _ asked _ =>
    rcases asked with hasked | hasked
    · rw [hasked]
      rfl
    · rw [hasked]
      rfl

/-- An outcome that stores an accepted change. -/
def Mutates (s : Setting) (current : Option Thing) (outcome : Outcome .thing ThingChange) : Prop :=
  ∃ change response created deleted,
    outcome = .mutation (s.command.event s.revision s.now change) response created deleted ∧
      s.Accepts current change

/-! ## Taking the rules apart -/

/-- The creation of a thing, if it is decided, is a mutation that the rules accept. -/
theorem create_mutates {s : Setting} {proposed : Thing} {outcome : Outcome .thing ThingChange}
    (asked : s.command.request = .create proposed ∨ s.command.request = .replace proposed)
    (h : s.create proposed = .ok outcome) : s.Mutates none outcome := by
  obtain ⟨t, haccepted, h⟩ := (bind_eq_ok_iff _ _ _).mp h
  cases h
  exact ⟨_, _, _, _, rfl, .created proposed t asked haccepted⟩

/-- The replacement of a thing, if it is decided, is a mutation that the rules accept. -/
theorem replace_mutates {s : Setting} {current proposed : Thing}
    {outcome : Outcome .thing ThingChange} (asked : s.command.request = .replace proposed)
    (h : s.replace current proposed = .ok outcome) : s.Mutates (some current) outcome := by
  obtain ⟨t, haccepted, h⟩ := (bind_eq_ok_iff _ _ _).mp h
  cases h
  exact ⟨_, _, _, _, rfl, .replaced current proposed t asked haccepted⟩

/-- The assignment of a policy, if it is decided, is a mutation that the rules accept. -/
theorem assignPolicy_mutates {s : Setting} {current : Thing} {id : PolicyId}
    {outcome : Outcome .thing ThingChange} (asked : s.command.request = .assignPolicy id)
    (h : s.assignPolicy current id = .ok outcome) : s.Mutates (some current) outcome := by
  obtain ⟨_, hfits, h⟩ := (bind_eq_ok_iff _ _ _).mp h
  cases h
  exact ⟨_, _, _, _, rfl, .policyAssigned current id asked hfits⟩

/-- Writing a part of a thing, if it is decided, is a mutation that the rules accept. -/
theorem write_mutates {s : Setting} {current : Thing} {piece : ThingPiece}
    {outcome : Outcome .thing ThingChange} (asked : s.command.request = .write piece)
    (h : s.write current piece = .ok outcome) : s.Mutates (some current) outcome := by
  obtain ⟨_, hplaced, h⟩ := (bind_eq_ok_iff _ _ _).mp h
  obtain ⟨_, howned, h⟩ := (bind_eq_ok_iff _ _ _).mp h
  obtain ⟨_, hfits, h⟩ := (bind_eq_ok_iff _ _ _).mp h
  cases h
  exact ⟨_, _, _, _, rfl, .written current piece asked ((checkPlace_eq_ok_iff _).mp hplaced)
    ((s.checkOwner_eq_ok_iff current _).mp howned) hfits⟩

/-- Removing a part of a thing, if it is decided, is a mutation that the rules accept. -/
theorem remove_mutates {s : Setting} {current : Thing} {item : ThingItem}
    {outcome : Outcome .thing ThingChange} (asked : s.command.request = .remove item)
    (h : s.remove current item = .ok outcome) : s.Mutates (some current) outcome := by
  unfold remove at h
  split at h
  · cases h
    exact ⟨_, _, _, _, rfl, .deleted current asked⟩
  · rename_i inside
    obtain ⟨_, hplaced, h⟩ := (bind_eq_ok_iff _ _ _).mp h
    obtain ⟨_, howned, h⟩ := (bind_eq_ok_iff _ _ _).mp h
    split at h
    · rename_i hfound
      cases h
      exact ⟨_, _, _, _, rfl, .removed current item inside asked
        ((checkPlace_eq_ok_iff _).mp hplaced) ((s.checkOwner_eq_ok_iff current _).mp howned) hfound⟩
    · cases h

/-! ## Responses -/

/-- The response to a command whose change is accepted: what is new is answered with its content. -/
def responseTo (s : Setting) : ThingChange → Response
  | .created t => s.response .created
      (some ({ t with book := { t.book with revision := s.revision } } : Thing).toJson)
  | .written .created piece => s.response .created (some piece.toJson)
  | _ => s.response .noContent none

section Responses

variable {s : Setting} {current : Thing} {event : Event .thing ThingChange} {response : Response}
  {created deleted : Bool}

/-- What an outcome tells beside its change: the response to it, and whether the thing begins or
ends. -/
def Tells (s : Setting) (change : ThingChange) (response : Response) (created deleted : Bool) :
    Prop :=
  response = s.responseTo change ∧ created = Change.isCreation change ∧
    (deleted = true ↔ change = .removed .whole)

/-- What is decided on an active thing tells what its change tells. -/
theorem tells_of_onExisting
    (h : s.onExisting current = .ok (.mutation event response created deleted)) :
    s.Tells event.change response created deleted := by
  unfold onExisting at h
  split at h
  · cases h
  · obtain ⟨_, -, h⟩ := (bind_eq_ok_iff _ _ _).mp h
    cases h
    exact ⟨rfl, rfl, nofun, nofun⟩
  · obtain ⟨_, -, h⟩ := (bind_eq_ok_iff _ _ _).mp h
    cases h
    exact ⟨rfl, rfl, nofun, nofun⟩
  · rename_i piece _
    obtain ⟨_, -, h⟩ := (bind_eq_ok_iff _ _ _).mp h
    obtain ⟨_, -, h⟩ := (bind_eq_ok_iff _ _ _).mp h
    obtain ⟨_, -, h⟩ := (bind_eq_ok_iff _ _ _).mp h
    cases h
    refine ⟨?_, rfl, nofun, nofun⟩
    show (if (piece.part.get? current).isSome then _ else _) = s.responseTo (.written (.of _) piece)
    cases (piece.part.get? current).isSome with
    | true => rfl
    | false => rfl
  · unfold remove at h
    split at h
    · cases h
      exact ⟨rfl, rfl, fun _ => rfl, fun _ => rfl⟩
    · rename_i inside
      obtain ⟨_, -, h⟩ := (bind_eq_ok_iff _ _ _).mp h
      obtain ⟨_, -, h⟩ := (bind_eq_ok_iff _ _ _).mp h
      split at h
      · cases h
        exact ⟨rfl, rfl, nofun, fun heq => absurd (ThingChange.removed.inj heq) inside⟩
      · cases h
  · obtain ⟨_, -, h⟩ := (bind_eq_ok_iff _ _ _).mp h
    split at h
    · cases h
    · cases h

/-- So does what is decided without an active thing. -/
theorem tells_of_onMissing (h : s.onMissing = .ok (.mutation event response created deleted)) :
    s.Tells event.change response created deleted := by
  have hcreate : ∀ proposed : Thing,
      s.create proposed = .ok (.mutation event response created deleted) →
        s.Tells event.change response created deleted := by
    intro proposed hcreated
    obtain ⟨_, -, heq⟩ := (bind_eq_ok_iff _ _ _).mp hcreated
    cases heq
    exact ⟨rfl, rfl, nofun, nofun⟩
  unfold onMissing at h
  split at h
  · exact hcreate _ h
  · exact hcreate _ h
  · cases h

end Responses

/-- An outcome that answers a query with the content of a part. -/
def Answers (s : Setting) (current : Thing) (outcome : Outcome .thing ThingChange) : Prop :=
  ∃ query content, s.command.request = .retrieve query ∧ query.part.get? current = some content ∧
    outcome = .query (s.response .ok (some content))

/-- A query about a thing, if it is decided, is answered with the part. -/
theorem retrieve_answers {s : Setting} {current : Thing} {query : ThingQuery}
    {outcome : Outcome .thing ThingChange} (asked : s.command.request = .retrieve query)
    (h : s.retrieve current query = .ok outcome) : s.Answers current outcome := by
  obtain ⟨_, -, h⟩ := (bind_eq_ok_iff _ _ _).mp h
  split at h
  · rename_i content hcontent
    cases h
    exact ⟨query, content, asked, hcontent, rfl⟩
  · cases h

/-- What is decided on an active thing is an accepted change or the answer to a query. -/
theorem onExisting_mutates {s : Setting} {current : Thing} {outcome : Outcome .thing ThingChange}
    (h : s.onExisting current = .ok outcome) :
    s.Mutates (some current) outcome ∨ s.Answers current outcome := by
  unfold onExisting at h
  split at h
  · cases h
  · rename_i asked
    exact .inl (replace_mutates asked h)
  · rename_i asked
    exact .inl (assignPolicy_mutates asked h)
  · rename_i asked
    exact .inl (write_mutates asked h)
  · rename_i asked
    exact .inl (remove_mutates asked h)
  · rename_i asked
    exact .inr (retrieve_answers asked h)

/-- What is decided without an active thing is an accepted creation. -/
theorem onMissing_mutates {s : Setting} {outcome : Outcome .thing ThingChange}
    (h : s.onMissing = .ok outcome) : s.Mutates none outcome := by
  unfold onMissing at h
  split at h
  · rename_i asked
    exact create_mutates (.inl asked) h
  · rename_i asked
    exact create_mutates (.inr asked) h
  · cases h

end Setting

/-- What is decided was decided on the active thing or without one, or one of the two has failed. -/
theorem decide_cases {config : ThingConfig} {now : Timestamp} {thing : Option Thing}
    {revision : Revision} {c : ThingCommand} {outcome : Outcome .thing ThingChange}
    (h : decide config now thing revision c = outcome) :
    (∃ current, Aggregate.active? thing = some current ∧
        Setting.onExisting ⟨config, now, revision, c⟩ current = .ok outcome) ∨
      (Aggregate.active? thing = none ∧
        Setting.onMissing ⟨config, now, revision, c⟩ = .ok outcome) ∨
      ∃ failure, outcome = .failed failure ∧
        ((∃ current, Setting.onExisting ⟨config, now, revision, c⟩ current = .error failure) ∨
          Setting.onMissing ⟨config, now, revision, c⟩ = .error failure) := by
  unfold decide at h
  dsimp only at h
  split at h
  · rename_i result hresult
    subst h
    cases hactive : Aggregate.active? thing with
    | some current =>
      rw [hactive] at hresult
      exact .inl ⟨current, rfl, hresult⟩
    | none =>
      rw [hactive] at hresult
      exact .inr (.inl ⟨rfl, hresult⟩)
  · rename_i failure hresult
    refine .inr (.inr ⟨failure, h.symm, ?_⟩)
    cases hactive : Aggregate.active? thing with
    | some current =>
      rw [hactive] at hresult
      exact .inl ⟨current, hresult⟩
    | none =>
      rw [hactive] at hresult
      exact .inr hresult

/-- A command that is decided to be a mutation emits one of the accepted changes. -/
theorem decide_mutation {config : ThingConfig} {now : Timestamp} {thing : Option Thing}
    {revision : Revision} {c : ThingCommand} {event : Event .thing ThingChange}
    {response : Response} {created deleted : Bool}
    (h : decide config now thing revision c = .mutation event response created deleted) :
    ∃ change, event = c.event revision now change ∧
      Setting.Accepts ⟨config, now, revision, c⟩ (Aggregate.active? thing) change := by
  rcases decide_cases h with ⟨current, hactive, hresult⟩ | ⟨hactive, hresult⟩ | ⟨failure, heq, -⟩
  · rw [hactive]
    rcases Setting.onExisting_mutates hresult with
      ⟨change, _, _, _, heq, haccepts⟩ | ⟨_, _, _, _, heq⟩
    · cases heq
      exact ⟨change, rfl, haccepts⟩
    · cases heq
  · rw [hactive]
    obtain ⟨change, _, _, _, heq, haccepts⟩ := Setting.onMissing_mutates hresult
    cases heq
    exact ⟨change, rfl, haccepts⟩
  · cases heq

/-- What a mutation tells is determined by the change. -/
theorem tells_of_decide {config : ThingConfig} {now : Timestamp} {thing : Option Thing}
    {revision : Revision} {c : ThingCommand} {event : Event .thing ThingChange}
    {response : Response} {created deleted : Bool}
    (h : decide config now thing revision c = .mutation event response created deleted) :
    Setting.Tells ⟨config, now, revision, c⟩ event.change response created deleted := by
  rcases decide_cases h with ⟨current, -, hresult⟩ | ⟨-, hresult⟩ | ⟨failure, heq, -⟩
  · exact Setting.tells_of_onExisting hresult
  · exact Setting.tells_of_onMissing hresult
  · cases heq

/-- So is the response. -/
theorem response_of_decide {config : ThingConfig} {now : Timestamp} {thing : Option Thing}
    {revision : Revision} {c : ThingCommand} {event : Event .thing ThingChange}
    {response : Response} {created deleted : Bool}
    (h : decide config now thing revision c = .mutation event response created deleted) :
    response = Setting.responseTo ⟨config, now, revision, c⟩ event.change :=
  (tells_of_decide h).1

/-- A query is answered on the active thing. -/
theorem decide_answers {config : ThingConfig} {now : Timestamp} {thing : Option Thing}
    {revision : Revision} {c : ThingCommand} {response : Response}
    (h : decide config now thing revision c = .query response) :
    ∃ current, Aggregate.active? thing = some current ∧
      Setting.Answers ⟨config, now, revision, c⟩ current (.query response) := by
  rcases decide_cases h with ⟨current, hactive, hresult⟩ | ⟨-, hresult⟩ | ⟨failure, heq, -⟩
  · rcases Setting.onExisting_mutates hresult with ⟨_, _, _, _, heq, -⟩ | hanswers
    · cases heq
    · exact ⟨current, hactive, hanswers⟩
  · obtain ⟨_, _, _, _, heq, -⟩ := Setting.onMissing_mutates hresult
    cases heq
  · cases heq

/-! ## What changes leave alone -/

/-- The identity, the bookkeeping and the policy of a thing are those of another one. -/
def Keeps (t u : Thing) : Prop := u.id = t.id ∧ u.book = t.book ∧ u.policyId = t.policyId

/-- A piece that is put into a thing leaves its id, its policy and its bookkeeping. -/
theorem keeps_put (t : Thing) (piece : ThingPiece) : Keeps t (piece.put t) := by
  cases piece with
  | definition _ | attributes _ | attributeAt _ _ | features _ | feature _ _ | properties _ _ _
  | property _ _ _ _ => exact ⟨rfl, rfl, rfl⟩

/-- An item that is removed from a thing leaves its id, its policy and its bookkeeping. -/
theorem keeps_removeFrom (t : Thing) {item : ThingItem} (inside : item ≠ .whole) :
    Keeps t (item.removeFrom t) := by
  cases item with
  | whole => exact absurd rfl inside
  | definition | attributes | attributeAt _ | features | feature _ | properties _ _
  | property _ _ _ => exact ⟨rfl, rfl, rfl⟩

/-- A change of a thing other than its replacement and its deletion leaves the id and the
bookkeeping alone, and takes no policy from it. -/
theorem kept_of_after {event : Event .thing ThingChange} {current modified : Thing}
    (h : current.after event = .ok modified)
    (hreplaced : ∀ replacement, event.change ≠ .replaced replacement)
    (hdeleted : event.change ≠ .removed .whole) :
    modified.id = current.id ∧ modified.book = current.book ∧
      (current.policyId.isSome = true → modified.policyId.isSome = true) := by
  have hkeeps : Keeps current modified → modified.id = current.id ∧ modified.book = current.book ∧
      (current.policyId.isSome = true → modified.policyId.isSome = true) := by
    rintro ⟨hid, hbook, hpolicy⟩
    exact ⟨hid, hbook, fun hsome => by rw [hpolicy]; exact hsome⟩
  unfold Thing.after at h
  split at h
  · cases h
  · rename_i hchange
    exact absurd hchange (hreplaced _)
  · cases h
    exact ⟨rfl, rfl, fun _ => rfl⟩
  · cases h
    exact hkeeps (keeps_put current _)
  · rename_i item hchange
    cases h
    refine hkeeps (keeps_removeFrom current ?_)
    rintro rfl
    exact hdeleted hchange

end GuardedThings.ThingRules
