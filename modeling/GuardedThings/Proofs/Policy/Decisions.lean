import GuardedThings.Policy.Rules
import GuardedThings.Proofs.Aggregate.Run

/-!
# Accepted changes of policies

`Accepts` lists, for each kind of request that changes a policy, the change that
is emitted, the response, and everything that was checked before: the current
policy (none for a creation), the adjusted content, its size, the entry or item
that has to be there, and the administrator that the candidate keeps.

`decide_mutation` is the one place where the rules are taken apart: whenever a
command is decided to be a mutation, its change is one of these. Facts about
accepted commands are proved from it, one case for each kind of request.
-/

set_option autoImplicit false

namespace GuardedThings.PolicyRules

namespace Setting

/-- The check for administrators passes iff their rule is met. -/
theorem checkAdministration_eq_ok_iff (s : Setting) (p : Policy) (failure : String → Failure) :
    s.checkAdministration p failure = .ok () ↔ s.config.adminRule.isMet p = true := by
  unfold checkAdministration
  split
  · rename_i hmet
    exact ⟨fun _ => hmet, fun _ => rfl⟩
  · rename_i hunmet
    constructor
    · intro h
      cases h
    · intro hmet
      exact absurd hmet hunmet

/-- An entry exists iff it is found under its label. -/
theorem existingEntry_eq_ok_iff (s : Setting) (p : Policy) (l : Label) (body : EntryBody) :
    s.existingEntry p l = .ok body ↔ p.entries.get? l = some body := by
  unfold existingEntry
  cases p.entries.get? l with
  | none =>
    constructor
    · intro h
      cases h
    · intro h
      cases h
  | some found =>
    constructor
    · intro h
      cases h
      rfl
    · intro h
      cases h
      rfl

/-- A proposed policy is accepted exactly if it can be adjusted, fits, and has an administrator. -/
theorem acceptPolicy_eq_ok_iff (s : Setting) (proposed p : Policy) (failure : String → Failure) :
    s.acceptPolicy proposed failure = .ok p ↔
      s.adjustPolicy proposed = .ok p ∧ s.checkSize p.toJson = .ok () ∧
        s.config.adminRule.isMet p = true := by
  unfold acceptPolicy
  constructor
  · intro h
    obtain ⟨adjusted, hadjusted, h⟩ := (bind_eq_ok_iff _ _ _).mp h
    obtain ⟨_, hfits, h⟩ := (bind_eq_ok_iff _ _ _).mp h
    obtain ⟨_, hmet, h⟩ := (bind_eq_ok_iff _ _ _).mp h
    cases h
    exact ⟨hadjusted, hfits, (s.checkAdministration_eq_ok_iff p failure).mp hmet⟩
  · rintro ⟨hadjusted, hfits, hmet⟩
    refine (bind_eq_ok_iff _ _ _).mpr ⟨p, hadjusted, ?_⟩
    refine (bind_eq_ok_iff _ _ _).mpr ⟨(), hfits, ?_⟩
    exact (bind_eq_ok_iff _ _ _).mpr
      ⟨(), (s.checkAdministration_eq_ok_iff p failure).mpr hmet, rfl⟩

/-- An adjusted policy is the addressed one, and of its bookkeeping only the lifecycle is set. -/
theorem kept_of_adjustPolicy {s : Setting} {proposed p : Policy}
    (h : s.adjustPolicy proposed = .ok p) :
    p.id = s.id ∧ p.book = { proposed.book with lifecycle := .active } := by
  unfold adjustPolicy at h
  split at h
  · cases h
  · rename_i hid
    obtain ⟨_, -, h⟩ := (bind_eq_ok_iff _ _ _).mp h
    obtain ⟨_, hstored, heq⟩ := (bind_eq_ok_iff _ _ _).mp h
    obtain ⟨_, -, hentries⟩ := (bind_eq_ok_iff _ _ _).mp hstored
    cases heq
    cases hentries
    exact ⟨Decidable.not_not.mp hid, rfl⟩

/-! ## The accepted changes -/

/-- The response to putting a piece in place, given whether something was there. -/
def putResponse (s : Setting) (existed : Bool) (piece : PolicyPiece) : Response :=
  if existed then s.response .noContent none else s.response .created (some piece.toJson)

/-- The changes a command may make, given the active policy, with the response and with whether the
policy begins or ends. -/
inductive Accepts (s : Setting) :
    Option Policy → PolicyChange → Response → Bool → Bool → Prop
  | created (proposed p : Policy)
      (asked : s.command.request = .create proposed ∨ s.command.request = .replace proposed)
      (adjusted : s.adjustPolicy proposed = .ok p)
      (fits : s.checkSize p.toJson = .ok ())
      (administered : s.config.adminRule.isMet p = true) :
      Accepts s none (.created p)
        (s.response .created
          (some ({ p with book := { p.book with revision := s.revision } } : Policy).toJson))
        true false
  | replaced (current proposed p : Policy)
      (asked : s.command.request = .replace proposed)
      (adjusted : s.adjustPolicy proposed = .ok p)
      (fits : s.checkSize p.toJson = .ok ())
      (administered : s.config.adminRule.isMet p = true) :
      Accepts s (some current) (.replaced p) (s.response .noContent none) false false
  | entriesReplaced (current next : Policy) (given es : List Entry)
      (asked : s.command.request = .replaceGroup (.entries given))
      (adjusted : given.mapM s.adjustEntry = .ok es)
      (indexed : current.setEntries es = .ok next)
      (fits : s.checkSizeWith current .entries next.entriesJson = .ok ())
      (administered : s.config.adminRule.isMet next = true) :
      Accepts s (some current) (.groupReplaced (.entries es)) (s.response .noContent none)
        false false
  | subjectsReplaced (current : Policy) (body : EntryBody) (l : Label) (given subjects : Subjects)
      (asked : s.command.request = .replaceGroup (.subjects l given))
      (found : current.entries.get? l = some body)
      (adjusted : s.adjustSubjects given = .ok subjects)
      (fits : s.checkSizeWith current (.subjects l) (Wire.encode subjects) = .ok ())
      (administered : s.config.adminRule.isMet (current.setSubjects l subjects) = true) :
      Accepts s (some current) (.groupReplaced (.subjects l subjects))
        (s.response .noContent none) false false
  | resourcesReplaced (current : Policy) (body : EntryBody) (l : Label) (resources : Resources)
      (asked : s.command.request = .replaceGroup (.resources l resources))
      (found : current.entries.get? l = some body)
      (fits : s.checkSizeWith current (.resources l) (Wire.encode resources) = .ok ())
      (administered : s.config.adminRule.isMet (current.setResources l resources) = true) :
      Accepts s (some current) (.groupReplaced (.resources l resources))
        (s.response .noContent none) false false
  | entryWritten (current : Policy) (given e : Entry)
      (asked : s.command.request = .write (.entry given))
      (adjusted : s.adjustEntry given = .ok e)
      (fits : s.checkSizeWith current (.entry e.label) (Wire.encode e.body) = .ok ())
      (administered : s.config.adminRule.isMet (current.setEntry e) = true) :
      Accepts s (some current)
        (.written (.of (current.entries.contains e.label)) (.entry e))
        (s.putResponse (current.entries.contains e.label) (.entry e)) false false
  | subjectWritten (current : Policy) (body : EntryBody) (l : Label) (id : SubjectId)
      (given subject : Subject)
      (asked : s.command.request = .write (.subject l id given))
      (found : current.entries.get? l = some body)
      (fits : s.checkSizeWith current (.subject l id) (Wire.encode given) = .ok ())
      (adjusted : s.adjustSubject id given = .ok subject)
      (administered : s.config.adminRule.isMet (current.setSubject l id subject) = true) :
      Accepts s (some current)
        (.written (.of (body.subjects.contains id)) (.subject l id subject))
        (s.putResponse (body.subjects.contains id) (.subject l id subject)) false false
  | resourceWritten (current : Policy) (body : EntryBody) (l : Label) (key : ResourceKey)
      (effects : Effects)
      (asked : s.command.request = .write (.resource l key effects))
      (found : current.entries.get? l = some body)
      (fits : s.checkSizeWith current (.resource l key) (Wire.encode effects) = .ok ())
      (administered : s.config.adminRule.isMet (current.setResource l key effects) = true) :
      Accepts s (some current)
        (.written (.of (body.resources.contains key)) (.resource l key effects))
        (s.putResponse (body.resources.contains key) (.resource l key effects)) false false
  | deleted (current : Policy) (asked : s.command.request = .remove .whole) :
      Accepts s (some current) (.removed .whole) (s.response .noContent none) false true
  | entryRemoved (current : Policy) (body : EntryBody) (l : Label)
      (asked : s.command.request = .remove (.entry l))
      (found : current.entries.get? l = some body)
      (administered : s.config.adminRule.isMet (current.removeEntry l) = true) :
      Accepts s (some current) (.removed (.entry l)) (s.response .noContent none) false false
  | subjectRemoved (current : Policy) (body : EntryBody) (l : Label) (id : SubjectId)
      (asked : s.command.request = .remove (.subject l id))
      (found : current.entries.get? l = some body)
      (named : body.subjects.contains id = true)
      (administered : s.config.adminRule.isMet (current.removeSubject l id) = true) :
      Accepts s (some current) (.removed (.subject l id)) (s.response .noContent none) false false
  | resourceRemoved (current : Policy) (body : EntryBody) (l : Label) (key : ResourceKey)
      (asked : s.command.request = .remove (.resource l key))
      (found : current.entries.get? l = some body)
      (named : body.resources.contains key = true)
      (administered : s.config.adminRule.isMet (current.removeResource l key) = true) :
      Accepts s (some current) (.removed (.resource l key)) (s.response .noContent none)
        false false

/-- What is accepted without an active policy creates one. -/
theorem Accepts.part_of_none {s : Setting} {change : PolicyChange} {response : Response}
    {created deleted : Bool} (haccepts : s.Accepts none change response created deleted) :
    s.command.request.part = .whole := by
  cases haccepts with
  | created proposed _ asked _ _ _ =>
    rcases asked with hasked | hasked
    · rw [hasked]
      rfl
    · rw [hasked]
      rfl

/-- An outcome that stores an accepted change. -/
def Mutates (s : Setting) (current : Option Policy) (outcome : Outcome .policy PolicyChange) :
    Prop :=
  ∃ change response created deleted,
    outcome = .mutation (s.command.event s.revision s.now change) response created deleted ∧
      s.Accepts current change response created deleted

/-! ## Taking the rules apart -/

/-- The creation of a policy, if it is decided, is a mutation that the rules accept. -/
theorem create_mutates {s : Setting} {proposed : Policy} {outcome : Outcome .policy PolicyChange}
    (asked : s.command.request = .create proposed ∨ s.command.request = .replace proposed)
    (h : s.create proposed = .ok outcome) : s.Mutates none outcome := by
  obtain ⟨p, haccepted, h⟩ := (bind_eq_ok_iff _ _ _).mp h
  obtain ⟨hadjusted, hfits, hmet⟩ := (s.acceptPolicy_eq_ok_iff proposed p _).mp haccepted
  cases h
  exact ⟨_, _, _, _, rfl, .created proposed p asked hadjusted hfits hmet⟩

/-- The replacement of a policy, if it is decided, is a mutation that the rules accept. -/
theorem replace_mutates {s : Setting} {current proposed : Policy}
    {outcome : Outcome .policy PolicyChange} (asked : s.command.request = .replace proposed)
    (h : s.replace proposed = .ok outcome) : s.Mutates (some current) outcome := by
  obtain ⟨p, haccepted, h⟩ := (bind_eq_ok_iff _ _ _).mp h
  obtain ⟨hadjusted, hfits, hmet⟩ := (s.acceptPolicy_eq_ok_iff proposed p _).mp haccepted
  cases h
  exact ⟨_, _, _, _, rfl, .replaced current proposed p asked hadjusted hfits hmet⟩

/-- The replacement of all parts of a sort, if it is decided, is a mutation that the rules
accept. -/
theorem replaceGroup_mutates {s : Setting} {current : Policy} {group : PolicyGroup}
    {outcome : Outcome .policy PolicyChange} (asked : s.command.request = .replaceGroup group)
    (h : s.replaceGroup current group = .ok outcome) : s.Mutates (some current) outcome := by
  cases group with
  | entries given =>
    obtain ⟨es, hadjusted, h⟩ := (bind_eq_ok_iff _ _ _).mp h
    obtain ⟨next, hindexed, h⟩ := (bind_eq_ok_iff _ _ _).mp h
    obtain ⟨_, hfits, h⟩ := (bind_eq_ok_iff _ _ _).mp h
    obtain ⟨_, hmet, h⟩ := (bind_eq_ok_iff _ _ _).mp h
    cases h
    exact ⟨_, _, _, _, rfl, .entriesReplaced current next given es asked hadjusted hindexed hfits
      ((s.checkAdministration_eq_ok_iff next _).mp hmet)⟩
  | subjects l given =>
    obtain ⟨body, hfound, h⟩ := (bind_eq_ok_iff _ _ _).mp h
    obtain ⟨subjects, hadjusted, h⟩ := (bind_eq_ok_iff _ _ _).mp h
    obtain ⟨_, hfits, h⟩ := (bind_eq_ok_iff _ _ _).mp h
    obtain ⟨_, hmet, h⟩ := (bind_eq_ok_iff _ _ _).mp h
    cases h
    exact ⟨_, _, _, _, rfl, .subjectsReplaced current body l given subjects asked
      ((s.existingEntry_eq_ok_iff current l body).mp hfound) hadjusted hfits
      ((s.checkAdministration_eq_ok_iff _ _).mp hmet)⟩
  | resources l resources =>
    obtain ⟨body, hfound, h⟩ := (bind_eq_ok_iff _ _ _).mp h
    obtain ⟨_, hfits, h⟩ := (bind_eq_ok_iff _ _ _).mp h
    obtain ⟨_, hmet, h⟩ := (bind_eq_ok_iff _ _ _).mp h
    cases h
    exact ⟨_, _, _, _, rfl, .resourcesReplaced current body l resources asked
      ((s.existingEntry_eq_ok_iff current l body).mp hfound) hfits
      ((s.checkAdministration_eq_ok_iff _ _).mp hmet)⟩

/-- Writing a part of a policy, if it is decided, is a mutation that the rules accept. -/
theorem write_mutates {s : Setting} {current : Policy} {piece : PolicyPiece}
    {outcome : Outcome .policy PolicyChange} (asked : s.command.request = .write piece)
    (h : s.write current piece = .ok outcome) : s.Mutates (some current) outcome := by
  cases piece with
  | entry given =>
    obtain ⟨e, hadjusted, h⟩ := (bind_eq_ok_iff _ _ _).mp h
    obtain ⟨_, hfits, h⟩ := (bind_eq_ok_iff _ _ _).mp h
    obtain ⟨_, hmet, h⟩ := (bind_eq_ok_iff _ _ _).mp h
    cases h
    exact ⟨_, _, _, _, rfl, .entryWritten current given e asked hadjusted hfits
      ((s.checkAdministration_eq_ok_iff _ _).mp hmet)⟩
  | subject l id given =>
    obtain ⟨body, hfound, h⟩ := (bind_eq_ok_iff _ _ _).mp h
    obtain ⟨_, hfits, h⟩ := (bind_eq_ok_iff _ _ _).mp h
    obtain ⟨subject, hadjusted, h⟩ := (bind_eq_ok_iff _ _ _).mp h
    obtain ⟨_, hmet, h⟩ := (bind_eq_ok_iff _ _ _).mp h
    cases h
    exact ⟨_, _, _, _, rfl, .subjectWritten current body l id given subject asked
      ((s.existingEntry_eq_ok_iff current l body).mp hfound) hfits hadjusted
      ((s.checkAdministration_eq_ok_iff _ _).mp hmet)⟩
  | resource l key effects =>
    obtain ⟨body, hfound, h⟩ := (bind_eq_ok_iff _ _ _).mp h
    obtain ⟨_, hfits, h⟩ := (bind_eq_ok_iff _ _ _).mp h
    obtain ⟨_, hmet, h⟩ := (bind_eq_ok_iff _ _ _).mp h
    cases h
    exact ⟨_, _, _, _, rfl, .resourceWritten current body l key effects asked
      ((s.existingEntry_eq_ok_iff current l body).mp hfound) hfits
      ((s.checkAdministration_eq_ok_iff _ _).mp hmet)⟩

/-- Removing a part of a policy, if it is decided, is a mutation that the rules accept. -/
theorem remove_mutates {s : Setting} {current : Policy} {item : PolicyItem}
    {outcome : Outcome .policy PolicyChange} (asked : s.command.request = .remove item)
    (h : s.remove current item = .ok outcome) : s.Mutates (some current) outcome := by
  cases item with
  | whole =>
    cases h
    exact ⟨_, _, _, _, rfl, .deleted current asked⟩
  | entry l =>
    obtain ⟨body, hfound, h⟩ := (bind_eq_ok_iff _ _ _).mp h
    obtain ⟨_, hmet, h⟩ := (bind_eq_ok_iff _ _ _).mp h
    cases h
    exact ⟨_, _, _, _, rfl, .entryRemoved current body l asked
      ((s.existingEntry_eq_ok_iff current l body).mp hfound)
      ((s.checkAdministration_eq_ok_iff _ _).mp hmet)⟩
  | subject l id =>
    obtain ⟨body, hfound, h⟩ := (bind_eq_ok_iff _ _ _).mp h
    split at h
    · cases h
    · rename_i hnamed
      obtain ⟨_, hmet, h⟩ := (bind_eq_ok_iff _ _ _).mp h
      cases h
      exact ⟨_, _, _, _, rfl, .subjectRemoved current body l id asked
        ((s.existingEntry_eq_ok_iff current l body).mp hfound) (by simpa using hnamed)
        ((s.checkAdministration_eq_ok_iff _ _).mp hmet)⟩
  | resource l key =>
    obtain ⟨body, hfound, h⟩ := (bind_eq_ok_iff _ _ _).mp h
    split at h
    · cases h
    · rename_i hnamed
      obtain ⟨_, hmet, h⟩ := (bind_eq_ok_iff _ _ _).mp h
      cases h
      exact ⟨_, _, _, _, rfl, .resourceRemoved current body l key asked
        ((s.existingEntry_eq_ok_iff current l body).mp hfound) (by simpa using hnamed)
        ((s.checkAdministration_eq_ok_iff _ _).mp hmet)⟩

/-- An outcome that answers a query with the content of a part. -/
def Answers (s : Setting) (current : Policy) (outcome : Outcome .policy PolicyChange) : Prop :=
  ∃ part content, s.command.request = .retrieve part ∧ part.get? current = some content ∧
    outcome = .query (s.response .ok (some content))

/-- A query about a policy, if it is decided, is answered with the part. -/
theorem retrieve_answers {s : Setting} {current : Policy} {part : PolicyPart}
    {outcome : Outcome .policy PolicyChange} (asked : s.command.request = .retrieve part)
    (h : s.retrieve current part = .ok outcome) : s.Answers current outcome := by
  unfold retrieve at h
  cases hcontent : part.get? current with
  | none =>
    -- The entry is checked first, but what follows fails in any case.
    simp only [hcontent] at h
    split at h
    · obtain ⟨_, _, h⟩ := (bind_eq_ok_iff _ _ _).mp h
      cases h
    · cases h
  | some content =>
    simp only [hcontent] at h
    refine ⟨part, content, asked, hcontent, ?_⟩
    split at h
    · obtain ⟨_, _, h⟩ := (bind_eq_ok_iff _ _ _).mp h
      cases h
      rfl
    · cases h
      rfl

/-- What is decided on an active policy is an accepted change or the answer to a query. -/
theorem onExisting_mutates {s : Setting} {current : Policy}
    {outcome : Outcome .policy PolicyChange} (h : s.onExisting current = .ok outcome) :
    s.Mutates (some current) outcome ∨ s.Answers current outcome := by
  unfold onExisting at h
  split at h
  · cases h
  · rename_i asked
    exact .inl (replace_mutates asked h)
  · rename_i asked
    exact .inl (replaceGroup_mutates asked h)
  · rename_i asked
    exact .inl (write_mutates asked h)
  · rename_i asked
    exact .inl (remove_mutates asked h)
  · rename_i asked
    exact .inr (retrieve_answers asked h)

/-- What is decided without an active policy is an accepted creation. -/
theorem onMissing_mutates {s : Setting} {outcome : Outcome .policy PolicyChange}
    (h : s.onMissing = .ok outcome) : s.Mutates none outcome := by
  unfold onMissing at h
  split at h
  · rename_i asked
    exact create_mutates (.inl asked) h
  · rename_i asked
    exact create_mutates (.inr asked) h
  · cases h

end Setting

/-- What is decided was decided on the active policy or without one, or one of the two has
failed. -/
theorem decide_cases {config : PolicyConfig} {now : Timestamp} {policy : Option Policy}
    {revision : Revision} {c : PolicyCommand} {outcome : Outcome .policy PolicyChange}
    (h : decide config now policy revision c = outcome) :
    (∃ current, Aggregate.active? policy = some current ∧
        Setting.onExisting ⟨config, now, revision, c⟩ current = .ok outcome) ∨
      (Aggregate.active? policy = none ∧
        Setting.onMissing ⟨config, now, revision, c⟩ = .ok outcome) ∨
      ∃ failure, outcome = .failed failure ∧
        ((∃ current, Setting.onExisting ⟨config, now, revision, c⟩ current = .error failure) ∨
          Setting.onMissing ⟨config, now, revision, c⟩ = .error failure) := by
  unfold decide at h
  dsimp only at h
  split at h
  · rename_i result hresult
    subst h
    cases hactive : Aggregate.active? policy with
    | some current =>
      rw [hactive] at hresult
      exact .inl ⟨current, rfl, hresult⟩
    | none =>
      rw [hactive] at hresult
      exact .inr (.inl ⟨rfl, hresult⟩)
  · rename_i failure hresult
    refine .inr (.inr ⟨failure, h.symm, ?_⟩)
    cases hactive : Aggregate.active? policy with
    | some current =>
      rw [hactive] at hresult
      exact .inl ⟨current, hresult⟩
    | none =>
      rw [hactive] at hresult
      exact .inr hresult

/-- A command that is decided to be a mutation emits one of the accepted changes. -/
theorem decide_mutation {config : PolicyConfig} {now : Timestamp} {policy : Option Policy}
    {revision : Revision} {c : PolicyCommand} {event : Event .policy PolicyChange}
    {response : Response} {created deleted : Bool}
    (h : decide config now policy revision c = .mutation event response created deleted) :
    ∃ change, event = c.event revision now change ∧
      Setting.Accepts ⟨config, now, revision, c⟩ (Aggregate.active? policy) change response
        created deleted := by
  rcases decide_cases h with ⟨current, hactive, hresult⟩ | ⟨hactive, hresult⟩ | ⟨failure, heq, -⟩
  · rw [hactive]
    rcases Setting.onExisting_mutates hresult with
      ⟨change, _, _, _, heq, haccepts⟩ | ⟨_, _, _, _, heq⟩
    · cases heq
      exact ⟨change, rfl, haccepts⟩
    · cases heq
  · rw [hactive]
    obtain ⟨change, _, _, _, heq, haccepts⟩ := Setting.onMissing_mutates hresult
    cases heq
    exact ⟨change, rfl, haccepts⟩
  · cases heq

/-- A query is answered on the active policy. -/
theorem decide_answers {config : PolicyConfig} {now : Timestamp} {policy : Option Policy}
    {revision : Revision} {c : PolicyCommand} {response : Response}
    (h : decide config now policy revision c = .query response) :
    ∃ current, Aggregate.active? policy = some current ∧
      Setting.Answers ⟨config, now, revision, c⟩ current (.query response) := by
  rcases decide_cases h with ⟨current, hactive, hresult⟩ | ⟨-, hresult⟩ | ⟨failure, heq, -⟩
  · rcases Setting.onExisting_mutates hresult with ⟨_, _, _, _, heq, -⟩ | hanswers
    · cases heq
    · exact ⟨current, hactive, hanswers⟩
  · obtain ⟨_, _, _, _, heq, -⟩ := Setting.onMissing_mutates hresult
    cases heq
  · cases heq

/-- A query that is answered asked for a part of the active policy, and the answer is what the part
holds. -/
theorem decide_query {config : PolicyConfig} {now : Timestamp} {policy : Option Policy}
    {revision : Revision} {c : PolicyCommand} {response : Response}
    (h : decide config now policy revision c = .query response) :
    ∃ current content, Aggregate.active? policy = some current ∧
      c.request.part.get? current = some content ∧ response.entity = some content := by
  obtain ⟨current, hactive, part, content, asked, hcontent, heq⟩ := decide_answers h
  have hasked : c.request = .retrieve part := asked
  cases heq
  refine ⟨current, content, hactive, ?_, rfl⟩
  rw [hasked]
  exact hcontent

/-! ## What changes leave alone -/

/-- To remove something inside a policy is to change its entries. -/
theorem exists_entries_of_removeFrom (p : Policy) {item : PolicyItem} (inside : item ≠ .whole) :
    ∃ entries, item.removeFrom p = { p with entries } := by
  have hexisting : ∀ (l : Label) (f : EntryBody → EntryBody),
      ∃ entries, p.updateExisting l f = { p with entries } := by
    intro l f
    unfold Policy.updateExisting
    cases p.entries.get? l with
    | none => exact ⟨_, rfl⟩
    | some body => exact ⟨_, rfl⟩
  cases item with
  | whole => exact absurd rfl inside
  | entry _ => exact ⟨_, rfl⟩
  | subject l _ | resource l _ => exact hexisting l _

/-- A change of a policy other than its replacement and its deletion is one of the entries. -/
theorem exists_entries_of_after {event : Event .policy PolicyChange} {current modified : Policy}
    (h : current.after event = .ok modified)
    (hreplaced : ∀ replacement, event.change ≠ .replaced replacement)
    (hdeleted : event.change ≠ .removed .whole) :
    ∃ entries, modified = { current with entries } := by
  unfold Policy.after at h
  split at h
  · cases h
  · rename_i hchange
    exact absurd hchange (hreplaced _)
  · rename_i group _
    cases group with
    | entries es =>
      obtain ⟨entries, -, heq⟩ := (bind_eq_ok_iff _ _ _).mp h
      cases heq
      exact ⟨entries, rfl⟩
    | subjects _ _ | resources _ _ =>
      cases h
      exact ⟨_, rfl⟩
  · rename_i piece _
    cases h
    cases piece with
    | entry _ | subject _ _ _ | resource _ _ _ => exact ⟨_, rfl⟩
  · rename_i item hchange
    cases h
    refine exists_entries_of_removeFrom current ?_
    rintro rfl
    exact hdeleted hchange

end GuardedThings.PolicyRules
