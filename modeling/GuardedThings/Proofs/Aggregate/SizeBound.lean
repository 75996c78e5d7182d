import GuardedThings.Proofs.Aggregate.Run
import GuardedThings.Proofs.Json.Sizes
import GuardedThings.Proofs.Policy.Adjustment
import GuardedThings.Proofs.Policy.DocumentEdits
import GuardedThings.Proofs.Thing.PointerEdits

/-!
# How large stored entities get

The size of a modification is measured on a document that is put together before
anything is stored, and that has the bookkeeping of the current or of the
proposed entity. The event then sets the revision and the times, so what is
stored may be larger than what was measured (`stored_lamp_exceeds_limit`).

Sizes of documents add up, and the bookkeeping takes its own part
(`Bookkeeping.byteSize_document`): at most 84 bytes more than before any event.
What is bounded by the limit is the rest, the bare size. Each accepted change
keeps it so (`PolicyRules.Setting.Accepts.fits_after`,
`ThingRules.Setting.Accepts.fits_after`): a value that is put in place was
measured there, and a removal, which is not measured, does not make a document
larger. A single subject is measured as it was given, and not with its expiry
rounded up; nothing is said about runs in which that makes a difference to a
subject that is written.
-/

set_option autoImplicit false

namespace GuardedThings

/-! ## Bookkeeping -/

namespace Bookkeeping

/-- The bytes that the members of the bookkeeping take in a document. -/
def size (b : Bookkeeping) : Nat := Json.membersSize (Json.present b.members)

/-- The size of the bookkeeping, field by field. -/
theorem size_eq (b : Bookkeeping) :
    b.size = Json.fieldSize "_created" (b.created.map Wire.encode) +
      (Json.fieldSize "_lifecycle" (some (Wire.encode b.lifecycle)) +
        (Json.fieldSize "_modified" (b.modified.map Wire.encode) +
          Json.fieldSize "_revision" (some (Wire.encode b.revision)))) := by
  unfold size members
  simp only [Json.membersSize_present_cons]
  rfl

/-- The bookkeeping takes its own part of a document. -/
theorem byteSize_document (b : Bookkeeping) (content : List (String × Option Json)) :
    (Json.ofFields (b.members ++ content)).byteSize =
      1 + b.size + Json.membersSize (Json.present content) := by
  have happend : Json.present (b.members ++ content) =
      Json.present b.members ++ Json.present content :=
    List.filterMap_append
  have hsize : Json.membersSize (Json.present b.members) = b.size := rfl
  have hlifecycle : 1 ≤ Json.fieldSize "_lifecycle" (some (Wire.encode b.lifecycle)) :=
    Nat.le_add_left 1 _
  have hpos := b.size_eq
  rw [Json.ofFields_eq, Json.byteSize_object, happend, Json.membersSize_append, hsize]
  omega

/-- Beside its name, a field with a time takes at most twenty digits, a colon and a comma. -/
theorem fieldSize_time (name : String) (time : Option Timestamp) :
    Json.fieldSize name (time.map Wire.encode) ≤ Json.nameSize name + 22 := by
  cases time with
  | none => exact Nat.zero_le _
  | some t =>
    have hword : (Wire.encode t : Json).byteSize ≤ 20 := (Json.byteSize_ofWord t.millis).2
    show Json.nameSize name + (Wire.encode t : Json).byteSize + 2 ≤ _
    omega

/-- The bookkeeping of an active entity takes at least what it takes before the first event, and at
most 84 bytes more. -/
theorem size_of_active {b : Bookkeeping} (h : b.lifecycle.isActive = true) :
    fresh.size ≤ b.size ∧ b.size ≤ fresh.size + 84 := by
  have hfresh : fresh.size = 36 := by decide +kernel
  have hactive : b.lifecycle = .active := of_decide_eq_true h
  have hlifecycle : Json.fieldSize "_lifecycle" (some (Wire.encode b.lifecycle)) = 22 := by
    rw [hactive]
    decide +kernel
  have hcreated := fieldSize_time "_created" b.created
  have hmodified := fieldSize_time "_modified" b.modified
  have hrevision : Json.fieldSize "_revision" (some (Wire.encode b.revision)) =
      Json.nameSize "_revision" + (Json.ofWord b.revision.number).byteSize + 2 := rfl
  have hword := Json.byteSize_ofWord b.revision.number
  have hnames : Json.nameSize "_created" = 10 ∧ Json.nameSize "_modified" = 11 ∧
      Json.nameSize "_revision" = 11 := by
    decide +kernel
  rw [hfresh, b.size_eq]
  omega

end Bookkeeping

/-- A document that passed its check fits, with the metadata or without. -/
theorem SizeLimit.byteSize_le_of_check {limit : SizeLimit} {document : Json} {headers : Headers}
    (h : limit.check document headers = .ok ()) : document.byteSize ≤ limit.maxBytes := by
  unfold check at h
  dsimp only at h
  split at h
  · rename_i hmeasured
    unfold measure at hmeasured
    omega
  · cases h

/-! ## Policies -/

namespace Policy

/-- The size of the document without what events record: that of an active policy that has seen
none. -/
def bareSize (p : Policy) : Nat := ({ p with book := .fresh } : Policy).toJson.byteSize

/-- The sizes of a policy with its own and with fresh bookkeeping differ as the bookkeepings do. -/
theorem byteSize_toJson (p : Policy) :
    p.toJson.byteSize + Bookkeeping.fresh.size = p.bareSize + p.book.size := by
  have hstored := p.book.byteSize_document
    [("entries", some p.entriesJson), ("policyId", some (Wire.encode p.id))]
  have hbare := Bookkeeping.fresh.byteSize_document
    [("entries", some p.entriesJson), ("policyId", some (Wire.encode p.id))]
  have hstored' : p.toJson.byteSize = _ := hstored
  have hbare' : p.bareSize = _ := hbare
  omega

/-- The bookkeeping of an active policy adds at most 84 bytes to its document. -/
theorem bareSize_le {p : Policy} (h : p.book.lifecycle.isActive = true) :
    p.bareSize ≤ p.toJson.byteSize ∧ p.toJson.byteSize ≤ p.bareSize + 84 := by
  have hsize := p.byteSize_toJson
  have hbook := Bookkeeping.size_of_active h
  omega

/-- With one bookkeeping, the sizes of policies compare with it as without it. -/
theorem bareSize_mono {p q : Policy} (hbook : p.book = q.book)
    (h : p.toJson.byteSize ≤ q.toJson.byteSize) : p.bareSize ≤ q.bareSize := by
  have hp := p.byteSize_toJson
  have hq := q.byteSize_toJson
  rw [hbook] at hp
  omega

end Policy

/-- A request whose subject, if it is to be stored on its own, has an expiry that takes no more
digits when it is rounded up. -/
def PolicyRequest.RoundsInPlace (granularity : UInt64) : PolicyRequest → Prop
  | write (.subject _ _ subject) => ∀ expiry, subject.expiry = some expiry →
      (Wire.encode (expiry.roundUp granularity) : Json).byteSize ≤
        (Wire.encode expiry : Json).byteSize
  | _ => True

/-- The size of a subject's document, field by field. -/
theorem Subject.byteSize_encode (s : Subject) :
    (Wire.encode s : Json).byteSize =
      1 + max 1 (Json.fieldSize "expiry" (s.expiry.map Wire.encode) +
        Json.fieldSize "type" (some (.string s.type))) := by
  show (Json.ofFields _).byteSize = _
  rw [Json.ofFields_eq, Json.byteSize_object, Json.membersSize_present_cons,
    Json.membersSize_present_cons]
  rfl

namespace PolicyRules

namespace Setting

variable {s : Setting}

/-- An adjusted proposal is active. -/
theorem isActive_adjustPolicy {proposed p : Policy} (h : s.adjustPolicy proposed = .ok p) :
    p.book.lifecycle.isActive = true := by
  rw [(kept_of_adjustPolicy h).2]
  rfl

/-- A subject that rounds in place is written with no more bytes than it was given with. -/
theorem byteSize_adjustSubject {l : Label} {id : SubjectId} {given subject : Subject}
    (h : s.adjustSubject id given = .ok subject)
    (hrounds : (PolicyRequest.write (.subject l id given)).RoundsInPlace
      s.config.expiryGranularity) :
    (Wire.encode subject : Json).byteSize ≤ (Wire.encode given : Json).byteSize := by
  unfold adjustSubject at h
  split at h
  · cases h
    exact Nat.le_refl _
  · rename_i expiry hexpiry
    dsimp only at h
    split at h
    · cases h
    · cases h
      have hword := hrounds expiry hexpiry
      have hfield : Json.fieldSize "expiry"
          (some (Wire.encode (expiry.roundUp s.config.expiryGranularity))) ≤
            Json.fieldSize "expiry" (some (Wire.encode expiry)) :=
        Nat.add_le_add_right (Nat.add_le_add_left hword _) 2
      rw [Subject.byteSize_encode, Subject.byteSize_encode, hexpiry, Option.map_some,
        Option.map_some]
      exact Nat.add_le_add_left (max_le_max_left 1 (Nat.add_le_add_right hfield _)) 1

/-- What passes the check of a policy's size is within the limit. -/
theorem byteSize_le_of_checkSize {document : Json} (h : s.checkSize document = .ok ()) :
    document.byteSize ≤ s.config.maxSizeBytes.toNat :=
  SizeLimit.byteSize_le_of_check h

/-- What an accepted change makes of a policy that fits fits too, as long as it is active. -/
theorem Accepts.fits_after {current modified : Policy} {change : PolicyChange}
    {response : Response} {created deleted : Bool} {event : Event .policy PolicyChange}
    (haccepts : s.Accepts (some current) change response created deleted)
    (hrounds : s.command.request.RoundsInPlace s.config.expiryGranularity)
    (hfits : current.bareSize ≤ s.config.maxSizeBytes.toNat) (hevent : event.change = change)
    (hmodified : current.after event = .ok modified)
    (hactive : modified.book.lifecycle.isActive = true) :
    modified.bareSize ≤ s.config.maxSizeBytes.toNat := by
  unfold Policy.after at hmodified
  rw [hevent] at hmodified
  have hmeasured : modified.toJson.byteSize ≤ s.config.maxSizeBytes.toNat →
      modified.bareSize ≤ s.config.maxSizeBytes.toNat :=
    Nat.le_trans (Policy.bareSize_le hactive).1
  have hremoved : ∀ item : PolicyItem, item ≠ .whole → (item.part.get? current).isSome →
      modified = item.removeFrom current → modified.bareSize ≤ s.config.maxSizeBytes.toNat := by
    rintro item inside found rfl
    obtain ⟨removed, hremoved⟩ := PolicyItem.toJson_removeFrom inside found
    have hshrinks := Json.byteSize_of_removePath? current.tidy_toJson hremoved
    have hbook : (item.removeFrom current).book = current.book := by
      obtain ⟨entries, heq⟩ := exists_entries_of_removeFrom current inside
      rw [heq]
    exact Nat.le_trans (Policy.bareSize_mono hbook hshrinks) hfits
  cases haccepts with
  | replaced _ _ p _ adjusted fits _ =>
    cases hmodified
    have hp := (Policy.bareSize_le (isActive_adjustPolicy adjusted)).1
    exact Nat.le_trans hp (byteSize_le_of_checkSize fits)
  | entriesReplaced _ next given es _ _ indexed fits _ =>
    have heq : modified = next := Except.ok.inj (hmodified.symm.trans indexed)
    subst heq
    apply hmeasured
    rw [PolicyGroup.toJson_put (.entries es) trivial indexed]
    exact byteSize_le_of_checkSize fits
  | subjectsReplaced _ body l _ subjects _ found _ fits _ =>
    cases hmodified
    apply hmeasured
    rw [PolicyGroup.toJson_put (.subjects l subjects) (Option.isSome_of_eq_some found) rfl]
    exact byteSize_le_of_checkSize fits
  | resourcesReplaced _ body l resources _ found fits _ =>
    cases hmodified
    apply hmeasured
    rw [PolicyGroup.toJson_put (.resources l resources) (Option.isSome_of_eq_some found) rfl]
    exact byteSize_le_of_checkSize fits
  | entryWritten _ _ e _ _ fits _ =>
    cases hmodified
    apply hmeasured
    rw [PolicyPiece.toJson_put (.entry e) trivial]
    exact byteSize_le_of_checkSize fits
  | subjectWritten _ body l id given subject asked found fits adjusted _ =>
    cases hmodified
    apply hmeasured
    rw [asked] at hrounds
    rw [PolicyPiece.toJson_put (.subject l id subject) (Option.isSome_of_eq_some found)]
    -- What was measured is the document with the subject as it was given.
    have hsubject := Json.byteSize_setPath_mono (byteSize_adjustSubject adjusted hrounds)
      (PolicyPart.subject l id).place.segments current.toJson
    exact Nat.le_trans hsubject (byteSize_le_of_checkSize fits)
  | resourceWritten _ body l key effects _ found fits _ =>
    cases hmodified
    apply hmeasured
    rw [PolicyPiece.toJson_put (.resource l key effects) (Option.isSome_of_eq_some found)]
    exact byteSize_le_of_checkSize fits
  | deleted _ _ =>
    cases hmodified
    cases hactive
  | entryRemoved _ body l _ found _ =>
    cases hmodified
    refine hremoved (.entry l) nofun ?_ rfl
    show ((current.entries.get? l).map _).isSome = true
    rw [found]
    rfl
  | subjectRemoved _ body l id _ found named _ =>
    cases hmodified
    refine hremoved (.subject l id) nofun ?_ rfl
    show ((current.subject? l id).map _).isSome = true
    unfold Policy.subject?
    rw [found, Option.isSome_map]
    exact named
  | resourceRemoved _ body l key _ found named _ =>
    cases hmodified
    refine hremoved (.resource l key) nofun ?_ rfl
    show ((current.resource? l key).map _).isSome = true
    unfold Policy.resource?
    rw [found, Option.isSome_map]
    exact named

end Setting

end PolicyRules

/-! ## Things -/

namespace Thing

/-- The size of the document without what events record: that of an active thing that has seen
none. -/
def bareSize (t : Thing) : Nat := ({ t with book := .fresh } : Thing).toJson.byteSize

/-- The sizes of a thing with its own and with fresh bookkeeping differ as the bookkeepings do. -/
theorem byteSize_toJson (t : Thing) :
    t.toJson.byteSize + Bookkeeping.fresh.size = t.bareSize + t.book.size := by
  have hstored : t.toJson.byteSize = _ := t.book.byteSize_document t.contentFields
  have hbare : t.bareSize = _ := Bookkeeping.fresh.byteSize_document t.contentFields
  omega

/-- The bookkeeping of an active thing adds at most 84 bytes to its document. -/
theorem bareSize_le {t : Thing} (h : t.book.lifecycle.isActive = true) :
    t.bareSize ≤ t.toJson.byteSize ∧ t.toJson.byteSize ≤ t.bareSize + 84 := by
  have hsize := t.byteSize_toJson
  have hbook := Bookkeeping.size_of_active h
  omega

/-- With one bookkeeping, the sizes of things compare with it as without it. -/
theorem bareSize_mono {t u : Thing} (hbook : t.book = u.book)
    (h : t.toJson.byteSize ≤ u.toJson.byteSize) : t.bareSize ≤ u.bareSize := by
  have ht := t.byteSize_toJson
  have hu := u.byteSize_toJson
  rw [hbook] at ht
  omega

end Thing

/-- A request in which all objects have their members in ascending order, as reading gives them. -/
def ThingRequest.IsTidy : ThingRequest → Prop
  | create t | replace t => t.toJson.Tidy
  | write piece => piece.toJson.Tidy
  | assignPolicy _ | remove _ | retrieve _ => True

namespace ThingRules

namespace Setting

variable {s : Setting}

/-- What passes the check of a thing's size is within the limit. -/
theorem byteSize_le_of_checkSize {document : Json} (h : s.checkSize document = .ok ()) :
    document.byteSize ≤ s.config.maxSizeBytes.toNat :=
  SizeLimit.byteSize_le_of_check h

/-- An accepted thing is active, was measured, and has the attributes and features proposed. -/
theorem acceptThing_eq_ok {proposed t : Thing} {fallback : PolicyId}
    (h : s.acceptThing proposed fallback = .ok t) :
    t.book.lifecycle.isActive = true ∧ t.toJson.byteSize ≤ s.config.maxSizeBytes.toNat ∧
      (proposed.toJson.Tidy → t.toJson.Tidy) := by
  obtain ⟨-, hfits, rfl⟩ := (s.acceptThing_eq_ok_iff proposed t fallback).mp h
  exact ⟨rfl, byteSize_le_of_checkSize hfits, fun htidy => Thing.tidy_toJson_congr htidy rfl rfl⟩

/-- An accepted proposal is within the limit, bookkeeping aside. -/
theorem accepted_bare {proposed t : Thing} {fallback : PolicyId}
    (h : s.acceptThing proposed fallback = .ok t) :
    t.bareSize ≤ s.config.maxSizeBytes.toNat := by
  obtain ⟨hactive, hsize, -⟩ := acceptThing_eq_ok h
  exact Nat.le_trans (Thing.bareSize_le hactive).1 hsize

end Setting

/-- A thing document is tidy, and without what events record it fits. -/
def Fits (config : ThingConfig) (t : Thing) : Prop :=
  t.toJson.Tidy ∧ t.bareSize ≤ config.maxSizeBytes.toNat

/-- What an accepted change makes of a thing that fits fits too, as long as it is active. -/
theorem Setting.Accepts.fits_after {s : Setting} {current modified : Thing} {change : ThingChange}
    {event : Event .thing ThingChange} (haccepts : s.Accepts (some current) change)
    (htidy : s.command.request.IsTidy) (hfits : Fits s.config current)
    (hevent : event.change = change) (hmodified : current.after event = .ok modified)
    (hactive : modified.book.lifecycle.isActive = true) : Fits s.config modified := by
  unfold Thing.after at hmodified
  rw [hevent] at hmodified
  cases haccepts with
  | replaced _ proposed t asked accepted =>
    cases hmodified
    rw [asked] at htidy
    obtain ⟨-, -, hkeeps⟩ := acceptThing_eq_ok accepted
    have hbare : t.bareSize ≤ s.config.maxSizeBytes.toNat := accepted_bare accepted
    exact ⟨Thing.tidy_toJson_congr (hkeeps htidy) rfl rfl, hbare⟩
  | policyAssigned _ id _ fits =>
    cases hmodified
    refine ⟨Thing.tidy_toJson_congr hfits.1 rfl rfl, ?_⟩
    refine Nat.le_trans (Thing.bareSize_le hactive).1 ?_
    rw [current.toJson_policyId id]
    exact byteSize_le_of_checkSize fits
  | written _ piece asked placed owned fits =>
    cases hmodified
    rw [asked] at htidy
    have hdocument := ThingPiece.toJson_put placed owned
    refine ⟨?_, Nat.le_trans (Thing.bareSize_le hactive).1 ?_⟩
    · rw [hdocument]
      exact hfits.1.setPath htidy _
    · rw [hdocument]
      exact byteSize_le_of_checkSize fits
  | deleted _ _ =>
    cases hmodified
    cases hactive
  | removed _ item inside _ placed _ found =>
    cases hmodified
    obtain ⟨removed, hremoved⟩ := ThingItem.toJson_removeFrom inside placed found
    have hbook := (keeps_removeFrom current inside).2.1
    have hshrinks := Json.byteSize_of_removePath? hfits.1 hremoved
    exact ⟨hfits.1.removePath? hremoved,
      Nat.le_trans (Thing.bareSize_mono hbook hshrinks) hfits.2⟩

end ThingRules

/-! ## Runs -/

/-- What a decided mutation stores of a policy fits, if the active policy did. -/
theorem PolicyRules.fits_of_mutation {config : PolicyConfig} {now : Timestamp}
    {policy : Option Policy} {revision : Revision} {c : PolicyCommand}
    {event : Event .policy PolicyChange} {response : Response} {created deleted : Bool}
    {next : Policy} (hrounds : c.request.RoundsInPlace config.expiryGranularity)
    (hfits : ∀ current, Aggregate.active? policy = some current →
      current.bareSize ≤ config.maxSizeBytes.toNat)
    (hdecided : decide config now policy revision c = .mutation event response created deleted)
    (happlied : Aggregate.apply event policy = .ok next)
    (hactive : next.book.lifecycle.isActive = true) :
    next.bareSize ≤ config.maxSizeBytes.toNat := by
  obtain ⟨change, rfl, haccepts⟩ := decide_mutation hdecided
  rcases Aggregate.apply_cases happlied with
    ⟨-, hnone, made, hmade, rfl⟩ | ⟨-, current, modified, hsome, hmodified, rfl⟩
  · rw [hnone] at haccepts
    cases haccepts with
    | created _ p _ adjusted fits _ =>
      cases hmade
      have hp := (Policy.bareSize_le (Setting.isActive_adjustPolicy adjusted)).1
      exact Nat.le_trans hp (Setting.byteSize_le_of_checkSize fits)
  · rw [hsome] at haccepts
    have hstored : modified.bareSize ≤ config.maxSizeBytes.toNat :=
      haccepts.fits_after hrounds (hfits current hsome) rfl hmodified hactive
    exact hstored

/-- What a decided mutation stores of a thing fits, if the active thing did. -/
theorem ThingRules.fits_of_mutation {config : ThingConfig} {now : Timestamp}
    {thing : Option Thing} {revision : Revision} {c : ThingCommand}
    {event : Event .thing ThingChange} {response : Response} {created deleted : Bool}
    {next : Thing} (htidy : c.request.IsTidy)
    (hfits : ∀ current, Aggregate.active? thing = some current → Fits config current)
    (hdecided : decide config now thing revision c = .mutation event response created deleted)
    (happlied : Aggregate.apply event thing = .ok next)
    (hactive : next.book.lifecycle.isActive = true) : Fits config next := by
  obtain ⟨change, rfl, haccepts⟩ := decide_mutation hdecided
  rcases Aggregate.apply_cases happlied with
    ⟨-, hnone, made, hmade, rfl⟩ | ⟨-, current, modified, hsome, hmodified, rfl⟩
  · rw [hnone] at haccepts
    cases haccepts with
    | created proposed t asked accepted =>
      cases hmade
      have hproposed : proposed.toJson.Tidy := by
        rcases asked with hasked | hasked
        · rw [hasked] at htidy
          exact htidy
        · rw [hasked] at htidy
          exact htidy
      obtain ⟨-, -, hkeeps⟩ := Setting.acceptThing_eq_ok accepted
      have hbare : t.bareSize ≤ config.maxSizeBytes.toNat := Setting.accepted_bare accepted
      exact ⟨Thing.tidy_toJson_congr (hkeeps hproposed) rfl rfl, hbare⟩
  · rw [hsome] at haccepts
    have hstored := haccepts.fits_after htidy (hfits current hsome) rfl hmodified hactive
    exact ⟨Thing.tidy_toJson_congr hstored.1 rfl rfl, hstored.2⟩

/-- After every run, the document of an active policy or thing is within the limit without what
events record, and at most 84 bytes above it with that. For policies, the expiries of the subjects
that the run writes on their own must take no more digits when they are rounded up; commands that
are refused write none. -/
theorem stored_documents_fit :
    (∀ (config : PolicyConfig) (id : PolicyId) (steps : List (Timestamp × PolicyCommand))
      (p : Policy),
      (∀ c ∈ (AggregateRoot.new id).accepted (policyRules config) steps,
        c.request.RoundsInPlace config.expiryGranularity) →
      Aggregate.active? ((AggregateRoot.new id).run (policyRules config) steps).state = some p →
        ({ p with book := .fresh } : Policy).toJson.byteSize ≤ config.maxSizeBytes.toNat ∧
          p.toJson.byteSize ≤ config.maxSizeBytes.toNat + 84) ∧
    ∀ (config : ThingConfig) (id : ThingId) (steps : List (Timestamp × ThingCommand)) (t : Thing),
      (∀ step ∈ steps, step.2.request.IsTidy) →
      Aggregate.active? ((AggregateRoot.new id).run (thingRules config) steps).state = some t →
        ({ t with book := .fresh } : Thing).toJson.byteSize ≤ config.maxSizeBytes.toNat ∧
          t.toJson.byteSize ≤ config.maxSizeBytes.toNat + 84 := by
  constructor
  · intro config id steps p hrounds hp
    -- Only active documents have to fit along the run; a deleted one may be of any size.
    have hfits : p.bareSize ≤ config.maxSizeBytes.toNat := by
      refine AggregateRoot.state_invariant_of_allowed (policyRules config)
        (fun c => c.request.RoundsInPlace config.expiryGranularity)
        (fun state => ∀ active, Aggregate.active? state = some active →
          active.bareSize ≤ config.maxSizeBytes.toNat) nofun ?_ id steps hrounds p hp
      intro state now revision c event response created deleted next hc hstate hdecided happlied
        active hnext
      obtain ⟨heq, hactive⟩ := Option.filter_eq_some_iff.mp hnext
      cases heq
      exact PolicyRules.fits_of_mutation hc hstate hdecided happlied hactive
    have hactive := (Option.filter_eq_some_iff.mp hp).2
    exact ⟨hfits, Nat.le_trans (Policy.bareSize_le hactive).2 (Nat.add_le_add_right hfits 84)⟩
  · intro config id steps t htidy ht
    have haccepted : ∀ c ∈ (AggregateRoot.new id).accepted (thingRules config) steps,
        c.request.IsTidy := by
      intro c hc
      obtain ⟨step, hmem, rfl⟩ := AggregateRoot.exists_step_of_mem_accepted hc
      exact htidy step hmem
    have hfits : ThingRules.Fits config t := by
      refine AggregateRoot.state_invariant_of_allowed (thingRules config)
        (fun c => c.request.IsTidy)
        (fun state => ∀ active, Aggregate.active? state = some active →
          ThingRules.Fits config active) nofun ?_ id steps haccepted t ht
      intro state now revision c event response created deleted next hc hstate hdecided happlied
        active hnext
      obtain ⟨heq, hactive⟩ := Option.filter_eq_some_iff.mp hnext
      cases heq
      exact ThingRules.fits_of_mutation hc hstate hdecided happlied hactive
    have hactive := (Option.filter_eq_some_iff.mp ht).2
    exact ⟨hfits.2, Nat.le_trans (Thing.bareSize_le hactive).2 (Nat.add_le_add_right hfits.2 84)⟩

/-- A lamp whose place is known. -/
def placedLamp : Thing :=
  { id := ⟨"org.example:spot", by decide⟩
    attributes := some [("color", .string "red"), ("place", .object [("room", .integer 1)])] }

/-- A thing that is created with a document as large as the limit allows is stored with a larger
one. -/
theorem stored_lamp_exceeds_limit :
    ∃ stored : Thing, Aggregate.active? ((AggregateRoot.new placedLamp.id).run (thingRules ⟨144⟩)
        [(⟨1700000000000⟩, ⟨placedLamp.id, .empty, .create placedLamp⟩)]).state = some stored ∧
      144 < stored.toJson.byteSize := by
  refine ⟨{ placedLamp with
    policyId := some placedLamp.id.toPolicyId
    book := ⟨.active, ⟨1⟩, some ⟨1700000000000⟩, some ⟨1700000000000⟩⟩ }, ?_, ?_⟩
  · decide +kernel
  · decide +kernel

/-- A creation, a removal, and the write of an attribute when the limit is reached. -/
def lampChanges : List (Timestamp × ThingCommand) :=
  [(⟨0⟩, .create placedLamp),
    (⟨0⟩, .remove (.attributeAt (.ofSegments ["place", "room"]))),
    (⟨1700000000000⟩, .write (.attributeAt (.ofSegments ["color"]) (.string "green")))].map
    fun (now, request) => (now, ⟨placedLamp.id, .empty, request⟩)

/-- The lamp after these changes. -/
def greenLamp : Thing :=
  { id := placedLamp.id
    policyId := some placedLamp.id.toPolicyId
    attributes := some [("color", .string "green"), ("place", .object [])]
    book := ⟨.active, ⟨3⟩, some ⟨0⟩, some ⟨1700000000000⟩⟩ }

/-- A policy in which the given subjects may write everything. -/
def familyPolicy (subjects : Subjects) (book : Bookkeeping) : Policy where
  id := ⟨"org.example:flat", by decide⟩
  book := book
  entries := Dict.empty.insert ⟨"family", by decide⟩
    ⟨subjects, Dict.empty.insert (.policy .root) ⟨.write, .empty⟩⟩

/-- The one who lives there. -/
def resident : Subjects := Dict.empty.insert ⟨"nginx:resident", by decide⟩ ⟨"generated", none⟩

/-- The command to write a visitor until the given time. -/
def welcome (label : Label) (expiry : Timestamp) : PolicyCommand :=
  ⟨⟨"org.example:flat", by decide⟩, .empty,
    .write (.subject label ⟨"nginx:visitor", by decide⟩ ⟨"generated", some expiry⟩)⟩

/-- A creation, a visitor until half a second later when the limit is reached, and a visitor whose
expiry would take one more digit, if there were a shed to stay in. -/
def familyChanges : List (Timestamp × PolicyCommand) :=
  [(⟨0⟩, ⟨⟨"org.example:flat", by decide⟩, .empty, .create (familyPolicy resident .fresh)⟩),
    (⟨1700000000000⟩, welcome ⟨"family", by decide⟩ ⟨1700000000500⟩),
    (⟨1700000000000⟩, welcome ⟨"shed", by decide⟩ ⟨9999999999999⟩)]

/-- The policy after these changes: the visitor stays for a full second. -/
def visitedPolicy : Policy :=
  familyPolicy (resident.insert ⟨"nginx:visitor", by decide⟩ ⟨"generated", some ⟨1700000001000⟩⟩)
    ⟨.active, ⟨2⟩, some ⟨0⟩, some ⟨1700000000000⟩⟩

/-- Documents stay within what the limits promise when each change is as large as it may be, also
where a command is refused whose expiry would have grown. -/
theorem stored_documents_fit_family :
    ((∀ c ∈ (AggregateRoot.new visitedPolicy.id).accepted (policyRules ⟨285, 1000, .standard⟩)
        familyChanges, c.request.RoundsInPlace 1000) ∧
      ¬(welcome ⟨"shed", by decide⟩ ⟨9999999999999⟩).request.RoundsInPlace 1000 ∧
      Aggregate.active? ((AggregateRoot.new visitedPolicy.id).run
        (policyRules ⟨285, 1000, .standard⟩) familyChanges).state = some visitedPolicy ∧
      ({ visitedPolicy with book := .fresh } : Policy).toJson.byteSize ≤ 285 ∧
        visitedPolicy.toJson.byteSize ≤ 285 + 84) ∧
    (∀ step ∈ lampChanges, step.2.request.IsTidy) ∧
      Aggregate.active? ((AggregateRoot.new greenLamp.id).run (thingRules ⟨165⟩) lampChanges).state =
        some greenLamp ∧
      ({ greenLamp with book := .fresh } : Thing).toJson.byteSize ≤ 165 ∧
        greenLamp.toJson.byteSize ≤ 165 + 84 := by
  have haccepted : (AggregateRoot.new visitedPolicy.id).accepted
      (policyRules ⟨285, 1000, .standard⟩) familyChanges =
        [⟨⟨"org.example:flat", by decide⟩, .empty, .create (familyPolicy resident .fresh)⟩,
          welcome ⟨"family", by decide⟩ ⟨1700000000500⟩] := by
    decide +kernel
  have hrounds : ∀ c ∈ (AggregateRoot.new visitedPolicy.id).accepted
      (policyRules ⟨285, 1000, .standard⟩) familyChanges, c.request.RoundsInPlace 1000 := by
    intro c hmem
    rw [haccepted] at hmem
    simp only [List.mem_cons, List.not_mem_nil, or_false] at hmem
    rcases hmem with rfl | rfl
    · trivial
    · rintro expiry ⟨rfl⟩
      decide +kernel
  have hgrows : ¬(welcome ⟨"shed", by decide⟩ ⟨9999999999999⟩).request.RoundsInPlace 1000 := by
    intro hrounds
    exact absurd (hrounds ⟨9999999999999⟩ rfl) (by decide +kernel)
  have hvisited : Aggregate.active? ((AggregateRoot.new visitedPolicy.id).run
      (policyRules ⟨285, 1000, .standard⟩) familyChanges).state = some visitedPolicy := by
    decide +kernel
  have hplaced : placedLamp.toJson.Tidy := by
    refine placedLamp.tidy_toJson_iff.mpr ⟨?_, fun features hfeatures => by cases hfeatures⟩
    rintro members ⟨rfl⟩
    refine Json.tidy_object (by unfold Assoc.Sorted; decide) fun name value hmem => ?_
    simp only [List.mem_cons, List.not_mem_nil, or_false, Prod.mk.injEq] at hmem
    rcases hmem with ⟨-, rfl⟩ | ⟨-, rfl⟩
    · exact Json.tidy_of_noObject rfl
    · refine Json.tidy_object (by unfold Assoc.Sorted; decide) fun name value hmem => ?_
      cases List.mem_singleton.mp hmem
      exact Json.tidy_of_noObject rfl
  have htidy : ∀ step ∈ lampChanges, step.2.request.IsTidy := by
    intro step hmem
    simp only [lampChanges, List.map_cons, List.map_nil, List.mem_cons, List.not_mem_nil,
      or_false] at hmem
    rcases hmem with rfl | rfl | rfl
    · exact hplaced
    · trivial
    · exact Json.tidy_of_noObject rfl
  have hgreen : Aggregate.active? ((AggregateRoot.new greenLamp.id).run (thingRules ⟨165⟩)
      lampChanges).state = some greenLamp := by
    decide +kernel
  have hpolicy := stored_documents_fit.1 ⟨285, 1000, .standard⟩ visitedPolicy.id familyChanges
    visitedPolicy hrounds hvisited
  have hthing := stored_documents_fit.2 ⟨165⟩ greenLamp.id lampChanges greenLamp htidy hgreen
  exact ⟨⟨hrounds, hgrows, hvisited, hpolicy⟩, htidy, hgreen, hthing⟩

end GuardedThings
