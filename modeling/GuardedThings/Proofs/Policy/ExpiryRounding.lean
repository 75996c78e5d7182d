import GuardedThings.Proofs.Policy.CreatorControl
import GuardedThings.Proofs.Policy.MeasuredDocument
import GuardedThings.Proofs.Policy.StandingAdministrator
import GuardedThings.Proofs.Rounding
import Mathlib.Data.List.Nodup

/-!
# Rounded expiries

Subjects come with requests of six kinds: on their own, with all subjects of an
entry, with an entry, with a list of entries, and with a policy that is created
or that replaces another. A request and a change carry a subject if it stands
somewhere in them, under the label of its entry and under its id
(`PolicyRequest.Carries`, `PolicyChange.Carries`).

Whatever the kind, the subjects that an emitted change carries are those of the
request, one by one, each adjusted once (`Setting.Accepts.adjusts`, one case for
each kind): as permanent as before, or with the expiry rounded up and still to
come (`Subject.AdjustedTo`). No subject is refused because of the rounding
(`Setting.exists_adjustSubject_of_countsAt`).

An event puts the subjects that it carries into the policy and leaves the others
alone (`Policy.subject?_of_apply`). Rounding up twice is rounding up once, also
where it ends at the greatest point in time (`Timestamp.roundUp_roundUp`), so in
a policy that was made by commands every expiry is rounded up already
(`expiries_stay_rounded`).
-/

set_option autoImplicit false

namespace GuardedThings

/-! ## The subjects in requests and changes -/

/-- The subject of an entry of this label in a list. -/
def PolicyGroup.Carries (group : PolicyGroup) (l : Label) (id : SubjectId) (subject : Subject) :
    Prop :=
  match group with
  | .entries es => ∃ body, ⟨l, body⟩ ∈ es ∧ body.subjects.get? id = some subject
  | .subjects label given => label = l ∧ given.get? id = some subject
  | .resources _ _ => False

/-- The piece is the subject or holds it. -/
def PolicyPiece.Carries (piece : PolicyPiece) (l : Label) (id : SubjectId) (subject : Subject) :
    Prop :=
  match piece with
  | .entry e => e.label = l ∧ e.body.subjects.get? id = some subject
  | .subject label subjectId s => label = l ∧ subjectId = id ∧ s = subject
  | .resource _ _ _ => False

/-- The subject stands in the payload of the change. -/
def PolicyChange.Carries (change : PolicyChange) (l : Label) (id : SubjectId)
    (subject : Subject) : Prop :=
  match change with
  | .created p | .replaced p => p.subject? l id = some subject
  | .groupReplaced group => group.Carries l id subject
  | .written _ piece => piece.Carries l id subject
  | .removed _ => False

/-- The subject stands in the request. -/
def PolicyRequest.Carries (request : PolicyRequest) (l : Label) (id : SubjectId)
    (subject : Subject) : Prop :=
  match request with
  | .create p | .replace p => p.subject? l id = some subject
  | .replaceGroup group => group.Carries l id subject
  | .write piece => piece.Carries l id subject
  | .remove _ | .retrieve _ => False

/-- What becomes of a subject: its type stays, and it is permanent if it was; else its expiry is
rounded up, and it is still to come. -/
structure Subject.AdjustedTo (given : Subject) (granularity : UInt64) (now : Timestamp)
    (subject : Subject) : Prop where
  type : subject.type = given.type
  isPermanent : subject.isPermanent = given.isPermanent
  expiry : ∀ t, given.expiry = some t →
    subject.expiry = some (t.roundUp granularity) ∧ now.millis < (t.roundUp granularity).millis

/-- Every expiry that was adjusted is rounded up already. -/
theorem Subject.AdjustedTo.roundUp_expiry {given subject : Subject} {granularity : UInt64}
    {now t : Timestamp} (h : given.AdjustedTo granularity now subject)
    (hexpiry : subject.expiry = some t) : t.roundUp granularity = t := by
  cases hgiven : given.expiry with
  | none =>
    have hpermanent : subject.expiry.isNone = given.expiry.isNone := h.isPermanent
    rw [hexpiry, hgiven] at hpermanent
    cases hpermanent
  | some time =>
    rw [(h.expiry time hgiven).1] at hexpiry
    cases hexpiry
    exact time.roundUp_roundUp granularity

/-- The subjects that are made are the given ones, one by one under the same label and id, and
adjusted. -/
structure Adjusts (granularity : UInt64) (now : Timestamp)
    (given made : Label → SubjectId → Subject → Prop) : Prop where
  unique : ∀ l id subject other, given l id subject → given l id other → subject = other
  origin : ∀ l id subject, made l id subject →
    ∃ original, given l id original ∧ original.AdjustedTo granularity now subject
  result : ∀ l id original, given l id original →
    ∃ subject, made l id subject ∧ original.AdjustedTo granularity now subject

namespace PolicyRules.Setting

variable {s : Setting}

/-! ## Adjusting once -/

/-- An adjusted subject has the given type, and the given expiry rounded up. -/
theorem adjustedTo_of_adjustSubject {id : SubjectId} {given subject : Subject}
    (h : s.adjustSubject id given = .ok subject) :
    given.AdjustedTo s.config.expiryGranularity s.now subject := by
  have hcounts := countsAt_adjustSubject h
  rw [adjustSubject_eq_ok h] at hcounts ⊢
  refine ⟨rfl, Option.isNone_map, fun t ht => ?_⟩
  simp only [ht, Option.map_some, true_and]
  simp only [Subject.countsAt, Subject.isExpired, ht, Option.map_some, Timestamp.reached,
    Bool.not_eq_true', decide_eq_false_iff_not] at hcounts
  exact UInt64.not_le.mp hcounts

/-- A subject that counts is not refused, since rounding its expiry up does not end it earlier. -/
theorem exists_adjustSubject_of_countsAt (id : SubjectId) {given : Subject}
    (h : given.countsAt s.now = true) :
    ∃ subject, s.adjustSubject id given = .ok subject ∧
      given.AdjustedTo s.config.expiryGranularity s.now subject := by
  have hunexpired : given.isExpired s.now = false := by
    rwa [Subject.countsAt, Bool.not_eq_true'] at h
  have hrounded := given.isExpired_roundUp s.config.expiryGranularity hunexpired
  have haccepted : ∃ subject, s.adjustSubject id given = .ok subject := by
    obtain ⟨type, expiry⟩ := given
    cases expiry with
    | none => exact ⟨_, rfl⟩
    | some expiry => exact ⟨_, if_neg (Bool.eq_false_iff.mp hrounded)⟩
  obtain ⟨subject, hadjusted⟩ := haccepted
  exact ⟨subject, hadjusted, adjustedTo_of_adjustSubject hadjusted⟩

/-- Adjusted subjects are the given ones, one by one. -/
theorem adjusts_subjects {given subjects : Subjects} (l : Label)
    (h : s.adjustSubjects given = .ok subjects) :
    Adjusts s.config.expiryGranularity s.now
      (fun label id subject => l = label ∧ given.get? id = some subject)
      (fun label id subject => l = label ∧ subjects.get? id = some subject) where
  unique := by
    rintro label id subject other ⟨-, hsubject⟩ ⟨-, hother⟩
    exact Option.some.inj (hsubject.symm.trans hother)
  origin := by
    rintro label id subject ⟨rfl, hsubject⟩
    obtain ⟨original, horiginal, hadjusted⟩ := Dict.exists_of_get?_mapValuesM h hsubject
    exact ⟨original, ⟨rfl, horiginal⟩, adjustedTo_of_adjustSubject hadjusted⟩
  result := by
    rintro label id original ⟨rfl, horiginal⟩
    obtain ⟨subject, hsubject, hadjusted⟩ := Dict.exists_get?_mapValuesM h horiginal
    exact ⟨subject, ⟨rfl, hsubject⟩, adjustedTo_of_adjustSubject hadjusted⟩

/-- Adjusted entries under distinct labels carry the subjects of the given ones, one by one. -/
theorem adjusts_entries {given es : List Entry} (h : given.mapM s.adjustEntry = .ok es)
    (hlabels : (es.map Entry.label).Nodup) :
    Adjusts s.config.expiryGranularity s.now (PolicyGroup.entries given).Carries
      (PolicyGroup.entries es).Carries where
  unique := by
    rintro l id subject other ⟨body, hbody, hsubject⟩ ⟨body', hbody', hother⟩
    rw [map_mapM (fun _ _ => label_of_adjustEntry) h] at hlabels
    have heq := List.inj_on_of_nodup_map hlabels hbody hbody' rfl
    cases heq
    exact Option.some.inj (hsubject.symm.trans hother)
  origin := by
    rintro l id subject ⟨body, hbody, hsubject⟩
    obtain ⟨e, he, hadjusted⟩ := exists_of_mem_mapM h hbody
    obtain ⟨hlabel, hsubjects, -⟩ := (adjustEntry_eq_ok_iff _ _).mp hadjusted
    obtain ⟨original, ⟨-, horiginal⟩, hto⟩ :=
      (adjusts_subjects l hsubjects).origin l id subject ⟨rfl, hsubject⟩
    obtain ⟨_, body'⟩ := e
    cases hlabel
    exact ⟨original, ⟨body', he, horiginal⟩, hto⟩
  result := by
    rintro l id original ⟨body, hbody, horiginal⟩
    obtain ⟨e, he, hadjusted⟩ := exists_mem_mapM_of_mem h hbody
    obtain ⟨hlabel, hsubjects, -⟩ := (adjustEntry_eq_ok_iff _ _).mp hadjusted
    obtain ⟨subject, ⟨-, hsubject⟩, hto⟩ :=
      (adjusts_subjects l hsubjects).result l id original ⟨rfl, horiginal⟩
    obtain ⟨_, body'⟩ := e
    cases hlabel
    exact ⟨subject, ⟨body', he, hsubject⟩, hto⟩

/-- An adjusted policy carries the subjects of the proposed one, one by one. -/
theorem adjusts_policy {proposed p : Policy} (h : s.adjustPolicy proposed = .ok p) :
    Adjusts s.config.expiryGranularity s.now
      (fun l id subject => proposed.subject? l id = some subject)
      (fun l id subject => p.subject? l id = some subject) where
  unique := by
    intro l id subject other hsubject hother
    exact Option.some.inj (hsubject.symm.trans hother)
  origin := by
    intro l id subject hsubject
    obtain ⟨body, hbody, hsubject⟩ := Option.bind_eq_some_iff.mp hsubject
    obtain ⟨given, hgiven, hsubjects, -⟩ := exists_of_get?_adjustPolicy h hbody
    obtain ⟨original, ⟨-, horiginal⟩, hto⟩ :=
      (adjusts_subjects l hsubjects).origin l id subject ⟨rfl, hsubject⟩
    exact ⟨original, Option.bind_eq_some_iff.mpr ⟨given, hgiven, horiginal⟩, hto⟩
  result := by
    intro l id original horiginal
    obtain ⟨given, hgiven, horiginal⟩ := Option.bind_eq_some_iff.mp horiginal
    obtain ⟨body, hbody, hsubjects, -⟩ := exists_get?_adjustPolicy h hgiven
    obtain ⟨subject, ⟨-, hsubject⟩, hto⟩ :=
      (adjusts_subjects l hsubjects).result l id original ⟨rfl, horiginal⟩
    exact ⟨subject, Option.bind_eq_some_iff.mpr ⟨body, hbody, hsubject⟩, hto⟩

/-- Where no subjects come from, none are made. -/
theorem adjusts_nothing {given made : Label → SubjectId → Subject → Prop}
    (hgiven : ∀ l id subject, ¬given l id subject) (hmade : ∀ l id subject, ¬made l id subject) :
    Adjusts s.config.expiryGranularity s.now given made where
  unique l id subject _ h := absurd h (hgiven l id subject)
  origin l id subject h := absurd h (hmade l id subject)
  result l id original h := absurd h (hgiven l id original)

/-- An accepted change carries the subjects of the request, each adjusted. -/
theorem Accepts.adjusts {current : Option Policy} {change : PolicyChange} {response : Response}
    {created deleted : Bool} (h : s.Accepts current change response created deleted) :
    Adjusts s.config.expiryGranularity s.now s.command.request.Carries change.Carries := by
  cases h with
  | created proposed p asked adjusted _ _ =>
    rcases asked with asked | asked
    · rw [asked]
      exact adjusts_policy adjusted
    · rw [asked]
      exact adjusts_policy adjusted
  | replaced _ proposed p asked adjusted _ _ =>
    rw [asked]
    exact adjusts_policy adjusted
  | entriesReplaced _ next given es asked adjusted indexed _ _ =>
    rw [asked]
    obtain ⟨_, hindexed, -⟩ := (bind_eq_ok_iff _ _ _).mp indexed
    exact adjusts_entries adjusted ((Policy.index_eq_ok_iff _ _ _).mp hindexed).1
  | subjectsReplaced _ _ l given subjects asked _ adjusted _ _ =>
    rw [asked]
    exact adjusts_subjects l adjusted
  | entryWritten _ given e asked adjusted _ _ =>
    rw [asked]
    obtain ⟨hlabel, hsubjects, -⟩ := (adjustEntry_eq_ok_iff _ _).mp adjusted
    obtain ⟨_, _⟩ := e
    cases hlabel
    exact adjusts_subjects given.label hsubjects
  | subjectWritten _ _ l id given subject asked _ _ adjusted _ =>
    rw [asked]
    have hto := adjustedTo_of_adjustSubject adjusted
    refine ⟨?_, ?_, ?_⟩
    · rintro _ _ _ _ ⟨-, -, rfl⟩ ⟨-, -, rfl⟩
      rfl
    · rintro _ _ _ ⟨rfl, rfl, rfl⟩
      exact ⟨given, ⟨rfl, rfl, rfl⟩, hto⟩
    · rintro _ _ _ ⟨rfl, rfl, rfl⟩
      exact ⟨subject, ⟨rfl, rfl, rfl⟩, hto⟩
  | resourcesReplaced _ _ _ _ asked _ _ _ | resourceWritten _ _ _ _ _ asked _ _ _
  | deleted _ asked | entryRemoved _ _ _ asked _ _ | subjectRemoved _ _ _ _ asked _ _ _
  | resourceRemoved _ _ _ _ asked _ _ _ =>
    -- Neither the request nor the change carries a subject.
    rw [asked]
    exact adjusts_nothing (fun _ _ _ => not_false) (fun _ _ _ => not_false)

end PolicyRules.Setting

/-! ## What events leave -/

namespace Policy

variable {l : Label} {id : SubjectId} {subject : Subject}

/-- After a group is put, a subject comes from the group or was there before. -/
theorem subject?_of_putGroup {p next : Policy} (group : PolicyGroup) (h : group.put p = .ok next)
    (hsubject : next.subject? l id = some subject) :
    group.Carries l id subject ∨ p.subject? l id = some subject := by
  cases group with
  | entries es =>
    obtain ⟨body, hbody, hsubject⟩ := Option.bind_eq_some_iff.mp hsubject
    exact .inl ⟨body, (get?_setEntries h l body).mp hbody, hsubject⟩
  | subjects label given =>
    cases h
    rw [setSubjects, subject?_updateEntry] at hsubject
    split at hsubject
    · rename_i hl
      exact .inl ⟨hl.symm, hsubject⟩
    · exact .inr hsubject
  | resources label given =>
    cases h
    rw [setResources, p.subject?_updateEntry_of_kept label l ?_ id] at hsubject
    · exact .inr hsubject
    · exact fun _ => rfl

/-- After a piece is put, a subject comes from the piece or was there before. -/
theorem subject?_of_putPiece {p : Policy} (piece : PolicyPiece)
    (hsubject : (piece.put p).subject? l id = some subject) :
    piece.Carries l id subject ∨ p.subject? l id = some subject := by
  cases piece with
  | entry e =>
    obtain ⟨body, hbody, hsubject⟩ := Option.bind_eq_some_iff.mp hsubject
    rw [show (PolicyPiece.put p (.entry e)).entries = p.entries.insert e.label e.body from rfl,
      Dict.get?_insert] at hbody
    split at hbody
    · rename_i hl
      cases hbody
      exact .inl ⟨hl.symm, hsubject⟩
    · exact .inr (Option.bind_eq_some_iff.mpr ⟨body, hbody, hsubject⟩)
  | subject label subjectId given =>
    rw [PolicyPiece.put, setSubject, subject?_updateEntry] at hsubject
    split at hsubject
    · rename_i hl
      rw [Dict.get?_insert] at hsubject
      split at hsubject
      · rename_i hid
        cases hsubject
        exact .inl ⟨hl.symm, hid.symm, rfl⟩
      · rw [hl, subject?_eq_getD]
        exact .inr hsubject
    · exact .inr hsubject
  | resource label key effects =>
    rw [PolicyPiece.put, setResource, p.subject?_updateEntry_of_kept label l ?_ id] at hsubject
    · exact .inr hsubject
    · exact fun _ => rfl

/-- After a removal, every subject was there before. -/
theorem subject?_of_removeFrom {p : Policy} (item : PolicyItem)
    (hsubject : (item.removeFrom p).subject? l id = some subject) :
    p.subject? l id = some subject := by
  cases item with
  | whole => exact hsubject
  | entry label =>
    obtain ⟨body, hbody, hsubject⟩ := Option.bind_eq_some_iff.mp hsubject
    rw [show (PolicyItem.removeFrom p (.entry label)).entries = p.entries.erase label from rfl,
      Dict.get?_erase] at hbody
    split at hbody
    · cases hbody
    · exact Option.bind_eq_some_iff.mpr ⟨body, hbody, hsubject⟩
  | subject label subjectId =>
    refine subject?_of_updateExisting (fun body hbody => ?_) hsubject
    rw [Dict.get?_erase] at hbody
    split at hbody
    · cases hbody
    · exact hbody
  | resource label key =>
    refine subject?_of_updateExisting (fun body hbody => ?_) hsubject
    exact hbody

/-- A subject of a policy after an event came with the event or was there before. -/
theorem subject?_of_apply {event : Event .policy PolicyChange} {policy : Option Policy}
    {next : Policy} (h : Aggregate.apply event policy = .ok next)
    (hsubject : next.subject? l id = some subject) :
    event.change.Carries l id subject ∨
      ∃ current, policy = some current ∧ current.subject? l id = some subject := by
  rcases apply_cases h with
    ⟨created, hchange, -, hentries⟩ | ⟨current, modified, hactive, hafter, hentries, -⟩
  · rw [subject?, hentries] at hsubject
    rw [hchange]
    exact .inl hsubject
  · rw [subject?, hentries] at hsubject
    have hcurrent := (Option.filter_eq_some_iff.mp hactive).1
    unfold after at hafter
    split at hafter
    · cases hafter
    · rename_i replacement hchange
      cases hafter
      rw [hchange]
      exact .inl hsubject
    · rename_i group hchange
      rw [hchange]
      exact (subject?_of_putGroup group hafter hsubject).imp_right fun h => ⟨current, hcurrent, h⟩
    · rename_i how piece hchange
      cases hafter
      rw [hchange]
      exact (subject?_of_putPiece piece hsubject).imp_right fun h => ⟨current, hcurrent, h⟩
    · rename_i item hchange
      cases hafter
      exact .inr ⟨current, hcurrent, subject?_of_removeFrom item hsubject⟩

/-- Every expiry in the policy is rounded up already. -/
def Rounded (p : Policy) (granularity : UInt64) : Prop :=
  ∀ (l : Label) (id : SubjectId) (subject : Subject) (t : Timestamp),
    p.subject? l id = some subject → subject.expiry = some t → t.roundUp granularity = t

end Policy

namespace PolicyRules

/-- Every accepted command emits the subjects that it was given, one by one, each adjusted: as
permanent as before, or with the expiry rounded up and later than now. So in every policy that was
made by commands, deleted or not, rounding up an expiry again changes nothing. -/
theorem expiries_stay_rounded :
    (∀ (config : PolicyConfig) (now : Timestamp) (policy : Option Policy) (c : PolicyCommand)
      (event : Event .policy PolicyChange) (response : Response) (created deleted : Bool),
      (policyRules config).execute now policy c = .mutation event response created deleted →
        Adjusts config.expiryGranularity now c.request.Carries event.change.Carries) ∧
    (∀ (config : PolicyConfig) (id : PolicyId) (steps : List (Timestamp × PolicyCommand))
      (policy : Policy), ((AggregateRoot.new id).run (policyRules config) steps).state =
        some policy → policy.Rounded config.expiryGranularity) := by
  constructor
  · intro config now policy c event response created deleted hexecuted
    obtain ⟨-, decided, next, hdecided, -⟩ := CommandRules.execute_mutation hexecuted
    obtain ⟨change, rfl, haccepts⟩ := decide_mutation hdecided
    exact haccepts.adjusts
  · intro config id steps policy hstate
    refine AggregateRoot.state_invariant (policyRules config)
      (fun state => ∀ p, state = some p → p.Rounded config.expiryGranularity) nofun ?_ id steps
      policy hstate
    intro state now revision c event response created deleted next hrounded hdecided happlied p hp
    cases hp
    obtain ⟨change, rfl, haccepts⟩ := decide_mutation hdecided
    intro l subjectId subject t hsubject hexpiry
    rcases Policy.subject?_of_apply happlied hsubject with hcarried | ⟨current, hcurrent, hbefore⟩
    · obtain ⟨original, -, hto⟩ := haccepts.adjusts.origin l subjectId subject hcarried
      exact hto.roundUp_expiry hexpiry
    · exact hrounded current hcurrent l subjectId subject t hbefore hexpiry

/-- A lodger until the given time. -/
def lodgersUntil (expiry : Timestamp) : Entry :=
  { label := ⟨"lodgers", by decide⟩
    body := ⟨Dict.empty.insert ⟨"nginx:lodger", by decide⟩ ⟨"generated", some expiry⟩, .empty⟩ }

/-- The command that replaces the entries by the owner's and a lodger's, until 400. -/
def admitLodger : PolicyCommand :=
  ⟨ownersPolicy.id, .empty,
    .replaceGroup (.entries (ownersPolicy.entryList ++ [lodgersUntil ⟨400⟩]))⟩

/-- The event of the replacement, with the lodger until 1000. -/
def lodgerAdmitted : Event .policy PolicyChange :=
  admitLodger.event ⟨1⟩ ⟨7⟩
    (.groupReplaced (.entries (ownersPolicy.entryList ++ [lodgersUntil ⟨1000⟩])))

/-- The policy is created and the lodger admitted. -/
def admission : List (Timestamp × PolicyCommand) :=
  [(⟨5⟩, ⟨ownersPolicy.id, .empty, .create ownersPolicy⟩), (⟨7⟩, admitLodger)]

/-- The policy with the lodger, in its second revision. -/
def lodgerPolicy : Policy :=
  { ownersPolicy.setEntry (lodgersUntil ⟨1000⟩) with
    book := ⟨.active, ⟨2⟩, some ⟨5⟩, some ⟨7⟩⟩ }

/-- Where expiries are rounded up to full seconds, the lodger may stay until 1000. -/
theorem expiries_stay_rounded_lodger :
    (∃ response, (policyRules fullSeconds).execute ⟨7⟩ (some ownersPolicy) admitLodger =
        .mutation lodgerAdmitted response false false ∧
      Adjusts 1000 ⟨7⟩ admitLodger.request.Carries lodgerAdmitted.change.Carries) ∧
    ((AggregateRoot.new ownersPolicy.id).run (policyRules fullSeconds) admission).state =
        some lodgerPolicy ∧
      lodgerPolicy.Rounded 1000 := by
  have hdecided : (policyRules fullSeconds).decide ⟨7⟩ (some ownersPolicy)
      (Aggregate.revision (some ownersPolicy)).next admitLodger =
        .mutation lodgerAdmitted
          (Setting.response ⟨fullSeconds, ⟨7⟩, ⟨1⟩, admitLodger⟩ .noContent none) false false := by
    decide +kernel
  have hexecuted := CommandRules.execute_eq_mutation rfl hdecided rfl
  have hstate : ((AggregateRoot.new ownersPolicy.id).run (policyRules fullSeconds)
      admission).state = some lodgerPolicy := by
    decide +kernel
  exact ⟨⟨_, hexecuted, expiries_stay_rounded.1 fullSeconds ⟨7⟩ _ _ _ _ _ _ hexecuted⟩, hstate,
    expiries_stay_rounded.2 fullSeconds ownersPolicy.id admission lodgerPolicy hstate⟩

end PolicyRules

end GuardedThings
