import GuardedThings.Proofs.Policy.DocumentEdits
import GuardedThings.Proofs.Policy.PartTags
import GuardedThings.Proofs.Policy.WireForm

/-!
# The measured document

Before a part of a policy is written, the size of the policy is measured on its
document with the new content put in place. Apart from the revision and the
times, which the event sets afterwards, this should be the document that is
stored. It is, for all requests but one: what they measure is the content with
its expiries rounded up, as the event carries it. Only a subject that is written
on its own is measured as it was given. If rounding changes its expiry, another
document is stored than was measured (`measured_is_stored_iff`), and it may be
larger than the limit (`measured_subject_outgrows_limit`).

What is measured is named by `Setting.measured?`. That it is this document can be
told from outside: under every limit, the command is carried out exactly if the
document is within the limit, and otherwise its failure names the size of the
document (`Setting.Accepts.measures`).
-/

set_option autoImplicit false

namespace GuardedThings

/-! ## Documents without stamps -/

/-- The names of the members that events set. -/
def Json.stampNames : List String := ["_created", "_modified", "_revision"]

/-- A document without the members that events set. -/
def Json.unstamped (document : Json) : Json := document.without stampNames

/-- To stamp a policy changes nothing else in its document. -/
theorem Policy.unstamped_toJson_stamp (p : Policy) (event : Event .policy PolicyChange) :
    (Aggregate.stamp event p).toJson.unstamped = p.toJson.unstamped := by
  refine Json.without_ofFields_congr ?_ _
  simp [Assoc.without, Json.stampNames, Bookkeeping.members, Aggregate.stamp, Aggregate.withBook,
    Aggregate.book]

/-- Contents put in the place of a part can be told apart from the documents, stamped or not. -/
theorem PolicyPart.unstamped_set_eq_iff {part : PolicyPart} (hpart : part ≠ .whole)
    (document a b : Json) :
    (part.place.set document a).unstamped = (part.place.set document b).unstamped ↔ a = b := by
  constructor
  · intro heq
    obtain ⟨path, hpath⟩ : ∃ path, part.names = "entries" :: path := by
      cases part with
      | whole => exact absurd rfl hpart
      | entries | entry _ | subjects _ | subject _ _ | resources _ | resource _ _ =>
        exact ⟨_, rfl⟩
    have hread : ∀ content : Json,
        (part.place.set document content).unstamped.getPath? part.names = some content := by
      intro content
      unfold Json.unstamped
      rw [hpath, Json.getPath?_without _ (by decide), ← hpath]
      unfold Pointer.set
      rw [PolicyPart.segments_place, Json.getPath?_setPath_self]
    have ha := hread a
    rw [heq, hread b] at ha
    exact (Option.some.inj ha).symm
  · rintro rfl
    rfl

/-! ## What is measured -/

/-- A request that writes a part of a policy. -/
def PolicyRequest.WritesPart (r : PolicyRequest) : Prop :=
  (∃ group, r = replaceGroup group) ∨ ∃ piece, r = write piece

/-- A request whose subject, if it is written on its own, is stored with the expiry it is given. -/
def PolicyRequest.KeepsExpiry (granularity : UInt64) : PolicyRequest → Prop
  | write (.subject _ _ subject) => ∀ expiry, subject.expiry = some expiry →
      expiry.roundUp granularity = expiry
  | _ => True

namespace PolicyRules

namespace Setting

/-- The content that a request to write a part is measured with, if it can be adjusted: a single
subject is taken as it is given. -/
def measured? (s : Setting) (p : Policy) : PolicyRequest → Option Json
  | .replaceGroup (.entries given) =>
    (do return (← p.setEntries (← given.mapM s.adjustEntry)).entriesJson :
      Except Failure Json).toOption
  | .replaceGroup (.subjects _ given) =>
    (do return Wire.encode (← s.adjustSubjects given) : Except Failure Json).toOption
  | .replaceGroup (.resources _ given) => some (Wire.encode given)
  | .write (.entry given) =>
    (do return Wire.encode (← s.adjustEntry given).body : Except Failure Json).toOption
  | .write (.subject _ _ given) => some (Wire.encode given)
  | .write (.resource _ _ given) => some (Wire.encode given)
  | .create _ | .replace _ | .remove _ | .retrieve _ => none

/-- An outcome that is reached if a document is within the limit. -/
def ifFits (s : Setting) (document : Json) (outcome : Outcome .policy PolicyChange) :
    Except Failure (Outcome .policy PolicyChange) :=
  if SizeLimit.measure document s.command.headers ≤ s.config.maxSizeBytes.toNat then .ok outcome
  else .error (.policyTooLarge (SizeLimit.measure document s.command.headers)
    s.config.maxSizeBytes.toNat)

section Outcomes

variable {s : Setting} {p next : Policy} {body : EntryBody} {l : Label}

/-- What follows a check of the size is reached if the document fits. -/
theorem checkSize_bind {document : Json} {outcome : Outcome .policy PolicyChange}
    {rest : Unit → Except Failure (Outcome .policy PolicyChange)} (hrest : rest () = .ok outcome) :
    (s.checkSize document >>= rest) = s.ifFits document outcome := by
  show ((if SizeLimit.measure document s.command.headers ≤ s.config.maxSizeBytes.toNat
    then Except.ok () else .error _) >>= rest) = _
  unfold ifFits
  split
  · exact hrest
  · rfl

/-- What follows the last check is reached if the candidate has an administrator. -/
theorem checkAdministration_bind {candidate : Policy} {failure : String → Failure}
    {outcome : Outcome .policy PolicyChange}
    (administered : s.config.adminRule.isMet candidate = true) :
    (do s.checkAdministration candidate failure; return outcome) = Except.ok outcome := by
  rw [(s.checkAdministration_eq_ok_iff candidate failure).mpr administered]
  rfl

/-- Entries are measured as they are adjusted, and so they are stored. -/
theorem replaceGroup_entries_eq {given es : List Entry}
    (adjusted : given.mapM s.adjustEntry = .ok es) (indexed : p.setEntries es = .ok next)
    (administered : s.config.adminRule.isMet next = true) :
    s.replaceGroup p (.entries given) =
      s.ifFits (PolicyPart.entries.place.set p.toJson next.entriesJson)
        (s.changed (.groupReplaced (.entries es))) := by
  show (given.mapM s.adjustEntry >>= _) = _
  rw [adjusted]
  show (p.setEntries es >>= _) = _
  rw [indexed]
  exact checkSize_bind (checkAdministration_bind administered)

/-- The subjects of an entry are measured as they are adjusted, and so they are stored. -/
theorem replaceGroup_subjects_eq {given subjects : Subjects}
    (found : p.entries.get? l = some body) (adjusted : s.adjustSubjects given = .ok subjects)
    (administered : s.config.adminRule.isMet (p.setSubjects l subjects) = true) :
    s.replaceGroup p (.subjects l given) =
      s.ifFits ((PolicyPart.subjects l).place.set p.toJson (Wire.encode subjects))
        (s.changed (.groupReplaced (.subjects l subjects))) := by
  show (s.existingEntry p l >>= _) = _
  rw [(s.existingEntry_eq_ok_iff p l body).mpr found]
  show (s.adjustSubjects given >>= _) = _
  rw [adjusted]
  exact checkSize_bind (checkAdministration_bind administered)

/-- The resources of an entry are measured as they are given, and so they are stored. -/
theorem replaceGroup_resources_eq {resources : Resources}
    (found : p.entries.get? l = some body)
    (administered : s.config.adminRule.isMet (p.setResources l resources) = true) :
    s.replaceGroup p (.resources l resources) =
      s.ifFits ((PolicyPart.resources l).place.set p.toJson (Wire.encode resources))
        (s.changed (.groupReplaced (.resources l resources))) := by
  show (s.existingEntry p l >>= _) = _
  rw [(s.existingEntry_eq_ok_iff p l body).mpr found]
  exact checkSize_bind (checkAdministration_bind administered)

/-- An entry is measured as it is adjusted, and so it is stored. -/
theorem write_entry_eq {given e : Entry} (adjusted : s.adjustEntry given = .ok e)
    (administered : s.config.adminRule.isMet (p.setEntry e) = true) :
    s.write p (.entry given) =
      s.ifFits ((PolicyPart.entry given.label).place.set p.toJson (Wire.encode e.body))
        (s.put (p.entries.contains e.label) (.entry e)) := by
  rw [← label_of_adjustEntry adjusted]
  show (s.adjustEntry given >>= _) = _
  rw [adjusted]
  exact checkSize_bind (checkAdministration_bind administered)

/-- A single subject is measured before it is adjusted. -/
theorem write_subject_eq {id : SubjectId} {given subject : Subject}
    (found : p.entries.get? l = some body) (adjusted : s.adjustSubject id given = .ok subject)
    (administered : s.config.adminRule.isMet (p.setSubject l id subject) = true) :
    s.write p (.subject l id given) =
      s.ifFits ((PolicyPart.subject l id).place.set p.toJson (Wire.encode given))
        (s.put (body.subjects.contains id) (.subject l id subject)) := by
  show (s.existingEntry p l >>= _) = _
  rw [(s.existingEntry_eq_ok_iff p l body).mpr found]
  refine checkSize_bind ?_
  show (s.adjustSubject id given >>= _) = _
  rw [adjusted]
  exact checkAdministration_bind administered

/-- A resource is measured as it is given, and so it is stored. -/
theorem write_resource_eq {key : ResourceKey} {effects : Effects}
    (found : p.entries.get? l = some body)
    (administered : s.config.adminRule.isMet (p.setResource l key effects) = true) :
    s.write p (.resource l key effects) =
      s.ifFits ((PolicyPart.resource l key).place.set p.toJson (Wire.encode effects))
        (s.put (body.resources.contains key) (.resource l key effects)) := by
  show (s.existingEntry p l >>= _) = _
  rw [(s.existingEntry_eq_ok_iff p l body).mpr found]
  exact checkSize_bind (checkAdministration_bind administered)

end Outcomes

/-- The same setting with another size limit. -/
def limitedTo (s : Setting) (limit : UInt64) : Setting :=
  { s with config := { s.config with maxSizeBytes := limit } }

/-- An adjusted subject is the given one with its expiry rounded up. -/
theorem adjustSubject_eq_ok {s : Setting} {id : SubjectId} {given subject : Subject}
    (h : s.adjustSubject id given = .ok subject) :
    subject = { given with
      expiry := given.expiry.map fun expiry => expiry.roundUp s.config.expiryGranularity } := by
  unfold adjustSubject at h
  split at h
  · rename_i hpermanent
    cases h
    rw [hpermanent]
    obtain ⟨_, _⟩ := given
    cases hpermanent
    rfl
  · rename_i expiry hexpiry
    dsimp only at h
    split at h
    · cases h
    · cases h
      rw [hexpiry]
      rfl

/-- A subject is written as it was given iff its expiry is kept. -/
theorem encode_adjustSubject_iff {s : Setting} {l : Label} {id : SubjectId}
    {given subject : Subject} (h : s.adjustSubject id given = .ok subject) :
    (Wire.encode given : Json) = Wire.encode subject ↔
      (PolicyRequest.write (.subject l id given)).KeepsExpiry s.config.expiryGranularity := by
  rw [adjustSubject_eq_ok h]
  obtain ⟨type, expiry⟩ := given
  constructor
  · intro heq time htime
    have hexpiry := congrArg Subject.expiry (LawfulWire.encode_injective heq)
    rw [show expiry = some time from htime] at hexpiry
    exact (Option.some.inj hexpiry).symm
  · intro hkeeps
    cases expiry with
    | none => rfl
    | some time =>
      show _ = Wire.encode (⟨type, some (time.roundUp _)⟩ : Subject)
      rw [hkeeps time rfl]

/-- What measuring a request to write a part has to do with storing its change: `content` is
measured in the place of the part, and the outcome is reached if the document fits, under whatever
limit; `stored` is what the change puts there. -/
structure Measures (s : Setting) (p : Policy) (change : PolicyChange)
    (outcome : Outcome .policy PolicyChange) (content stored : Json) : Prop where
  measured : s.measured? p s.command.request = some content
  limited : ∀ limit : UInt64, (s.limitedTo limit).onExisting p =
    (s.limitedTo limit).ifFits (s.command.request.part.place.set p.toJson content) outcome
  changed : ∀ (event : Event .policy PolicyChange) (modified : Policy), event.change = change →
    p.after event = .ok modified →
      modified.toJson = s.command.request.part.place.set p.toJson stored
  same : content = stored ↔ s.command.request.KeepsExpiry s.config.expiryGranularity

section Parts

variable {s : Setting} {p : Policy} {outcome : Outcome .policy PolicyChange} {content : Json}

/-- A collection is measured as it is stored. -/
theorem measures_group {given group : PolicyGroup} {next : Policy}
    (asked : s.command.request = .replaceGroup given) (part : given.part = group.part)
    (owned : group.part.IsOwned p) (hput : group.put p = .ok next)
    (measured : s.measured? p (.replaceGroup given) = some (group.toJson next))
    (limited : ∀ limit : UInt64, (s.limitedTo limit).replaceGroup p given =
      (s.limitedTo limit).ifFits (group.part.place.set p.toJson (group.toJson next)) outcome) :
    s.Measures p (.groupReplaced group) outcome (group.toJson next) (group.toJson next) where
  measured := by rw [asked]; exact measured
  limited := by
    intro limit
    have hasked : (s.limitedTo limit).command.request = .replaceGroup given := asked
    unfold onExisting
    rw [hasked, asked]
    show (s.limitedTo limit).replaceGroup p given =
      ifFits _ (given.part.place.set p.toJson _) outcome
    rw [part, limited limit]
  changed := by
    intro event modified hevent hmodified
    unfold Policy.after at hmodified
    rw [hevent] at hmodified
    have heq : modified = next := Except.ok.inj (hmodified.symm.trans hput)
    rw [heq, asked]
    show next.toJson = given.part.place.set p.toJson _
    rw [part]
    exact PolicyGroup.toJson_put group owned hput
  same := by
    rw [asked]
    exact ⟨fun _ => trivial, fun _ => rfl⟩

/-- A piece is measured with some content and stored with its own. -/
theorem measures_piece {given piece : PolicyPiece} {how : Placement}
    (asked : s.command.request = .write given) (part : given.part = piece.part)
    (owned : piece.part.IsOwned p)
    (measured : s.measured? p (.write given) = some content)
    (limited : ∀ limit : UInt64, (s.limitedTo limit).write p given =
      (s.limitedTo limit).ifFits (piece.part.place.set p.toJson content) outcome)
    (same : content = piece.toJson ↔
      (PolicyRequest.write given).KeepsExpiry s.config.expiryGranularity) :
    s.Measures p (.written how piece) outcome content piece.toJson where
  measured := by rw [asked]; exact measured
  limited := by
    intro limit
    have hasked : (s.limitedTo limit).command.request = .write given := asked
    unfold onExisting
    rw [hasked, asked]
    show (s.limitedTo limit).write p given = ifFits _ (given.part.place.set p.toJson _) outcome
    rw [part, limited limit]
  changed := by
    intro event modified hevent hmodified
    unfold Policy.after at hmodified
    rw [hevent] at hmodified
    cases hmodified
    rw [asked]
    show (piece.put p).toJson = given.part.place.set p.toJson _
    rw [part]
    exact PolicyPiece.toJson_put piece owned
  same := by rw [asked]; exact same

end Parts

/-- An accepted request to write a part is measured and stored so. -/
theorem Accepts.measures {s : Setting} {p : Policy} {change : PolicyChange}
    {response : Response} {created deleted : Bool}
    (haccepts : s.Accepts (some p) change response created deleted)
    (hwrites : s.command.request.WritesPart) :
    ∃ content stored, s.Measures p change
      (.mutation (s.command.event s.revision s.now change) response created deleted)
      content stored := by
  have howned : ∀ {l : Label} {body : EntryBody}, p.entries.get? l = some body →
      (p.entries.get? l).isSome = true := fun found => by rw [found]; rfl
  -- In each case the last check measures what the change then stores. A single subject is measured
  -- before it is adjusted.
  cases haccepts with
  | entriesReplaced _ next given es asked adjusted indexed _ administered =>
    have hput : (PolicyGroup.entries es).put p = .ok next := indexed
    refine ⟨_, _, measures_group asked rfl trivial hput ?_
      fun limit => replaceGroup_entries_eq adjusted indexed administered⟩
    show (given.mapM s.adjustEntry >>= _).toOption = _
    rw [adjusted]
    show (p.setEntries es >>= _).toOption = _
    rw [indexed]
    rfl
  | subjectsReplaced _ body l given subjects asked found adjusted _ administered =>
    refine ⟨_, _, measures_group asked rfl (howned found) rfl ?_
      fun limit => replaceGroup_subjects_eq found adjusted administered⟩
    show (s.adjustSubjects given >>= _).toOption = _
    rw [adjusted]
    rfl
  | resourcesReplaced _ body l resources asked found _ administered =>
    exact ⟨_, _, measures_group asked rfl (howned found) rfl rfl
      fun limit => replaceGroup_resources_eq found administered⟩
  | entryWritten _ given e asked adjusted _ administered =>
    have hlabel := label_of_adjustEntry adjusted
    refine ⟨_, _, measures_piece asked (congrArg PolicyPart.entry hlabel.symm) trivial ?_
      (fun limit => ?_) ⟨fun _ => trivial, fun _ => rfl⟩⟩
    · show (s.adjustEntry given >>= _).toOption = _
      rw [adjusted]
      rfl
    · have heq := write_entry_eq (s := s.limitedTo limit) adjusted administered
      rw [← hlabel] at heq
      exact heq
  | subjectWritten _ body l id given subject asked found _ adjusted administered =>
    exact ⟨_, _, measures_piece asked rfl (howned found) rfl
      (fun limit => write_subject_eq found adjusted administered)
      (encode_adjustSubject_iff adjusted)⟩
  | resourceWritten _ body l key effects asked found _ administered =>
    exact ⟨_, _, measures_piece asked rfl (howned found) rfl
      (fun limit => write_resource_eq found administered) ⟨fun _ => trivial, fun _ => rfl⟩⟩
  | replaced _ _ _ asked | deleted _ asked | entryRemoved _ _ _ asked
  | subjectRemoved _ _ _ _ asked | resourceRemoved _ _ _ _ asked =>
    rw [asked] at hwrites
    rcases hwrites with ⟨_, heq⟩ | ⟨_, heq⟩
    · cases heq
    · cases heq

end Setting

/-! ## The stored document -/

/-- A request that writes a part of a policy does not address the whole policy. -/
theorem part_ne_whole_of_writesPart {r : PolicyRequest} (h : r.WritesPart) : r.part ≠ .whole := by
  rcases h with ⟨group, rfl⟩ | ⟨piece, rfl⟩
  · cases group with
    | entries | subjects | resources => exact nofun
  · exact piece.part_ne_whole

section Commands

variable {config : PolicyConfig} {now : Timestamp} {p : Policy} {c : PolicyCommand}
  {event : Event .policy PolicyChange} {response : Response} {created deleted : Bool}

/-- What is decided if an outcome is reached when a document fits. -/
theorem decide_of_ifFits {policy : Option Policy} {revision : Revision} {document : Json}
    {outcome : Outcome .policy PolicyChange} (hactive : Aggregate.active? policy = some p)
    (h : Setting.onExisting ⟨config, now, revision, c⟩ p =
      Setting.ifFits ⟨config, now, revision, c⟩ document outcome) :
    decide config now policy revision c =
      if SizeLimit.measure document c.headers ≤ config.maxSizeBytes.toNat then outcome
      else .failed (.policyTooLarge (SizeLimit.measure document c.headers)
        config.maxSizeBytes.toNat) := by
  unfold decide
  simp only [hactive, h]
  unfold Setting.ifFits
  by_cases hfits : SizeLimit.measure document c.headers ≤ config.maxSizeBytes.toNat
  · simp only [if_pos hfits]
  · simp only [if_neg hfits]

/-- When a part of an active policy is written, the document whose size is measured, under whatever
limit, is the document that is then stored, apart from what the event stamps, unless a single
subject is written whose expiry is rounded: then it is another document. -/
theorem measured_is_stored_iff (hactive : Aggregate.isActive p = true)
    (hwrites : c.request.WritesPart)
    (h : (policyRules config).execute now (some p) c = .mutation event response created deleted) :
    ∃ content next,
      Setting.measured? ⟨config, now, (Aggregate.revision (some p)).next, c⟩ p c.request =
        some content ∧
      (∀ limit : UInt64, (policyRules { config with maxSizeBytes := limit }).execute now (some p) c =
        if SizeLimit.measure (c.request.part.place.set p.toJson content) c.headers ≤ limit.toNat then
          .mutation event response created deleted
        else .failed (.policyTooLarge
          (SizeLimit.measure (c.request.part.place.set p.toJson content) c.headers)
          limit.toNat)) ∧
      Aggregate.apply event (some p) = .ok next ∧
      ((c.request.part.place.set p.toJson content).unstamped = next.toJson.unstamped ↔
        c.request.KeepsExpiry config.expiryGranularity) := by
  obtain ⟨hpassed, decided, next, hdecided, happlied, hresponse⟩ :=
    CommandRules.execute_mutation h
  have hcurrent : Aggregate.active? (some p) = some p :=
    Option.filter_eq_some_iff.mpr ⟨rfl, hactive⟩
  obtain ⟨change, hevent, haccepts⟩ := decide_mutation hdecided
  rw [hcurrent] at haccepts
  obtain ⟨content, stored, hmeasures⟩ := haccepts.measures hwrites
  obtain ⟨modified, hmodified, hnext⟩ := Aggregate.modified_of_apply hcurrent happlied
  refine ⟨content, next, hmeasures.measured, ?_, happlied, ?_⟩
  · intro limit
    -- The conditional headers are checked alike under every limit.
    have hpassed' : (policyRules { config with maxSizeBytes := limit }).checkHeaders (some p) c =
        none := hpassed
    have hlimited := decide_of_ifFits hcurrent (hmeasures.limited limit)
    unfold CommandRules.execute
    rw [hpassed']
    show (policyRules _).attachTag (some p) c (decide _ now (some p) _ c) = _
    rw [hlimited, ← hevent]
    show (policyRules _).attachTag (some p) c (if _ ≤ limit.toNat then _ else _) = _
    split
    · unfold CommandRules.attachTag
      simp only [happlied, hresponse]
      rfl
    · rfl
  · have hdocument : modified.toJson = c.request.part.place.set p.toJson stored :=
      hmeasures.changed event modified (congrArg Event.change hevent) hmodified
    rw [hnext, Policy.unstamped_toJson_stamp, hdocument,
      PolicyPart.unstamped_set_eq_iff (part_ne_whole_of_writesPart hwrites)]
    exact hmeasures.same

end Commands

/-! ## A pupil of the library -/

/-- The policy of a library, where the librarian may write everything. -/
def library : Policy where
  id := ⟨"org.example:library", by decide⟩
  book := ⟨.active, ⟨1⟩, some ⟨0⟩, some ⟨0⟩⟩
  entries := Dict.empty.insert ⟨"staff", by decide⟩
    ⟨Dict.empty.insert ⟨"nginx:librarian", by decide⟩ ⟨"generated", none⟩,
      Dict.empty.insert (.policy .root) ⟨.write, .empty⟩⟩

/-- The librarian and a pupil until the given time. -/
def librarianAndPupil (expiry : Timestamp) : Subjects :=
  (Dict.empty.insert ⟨"nginx:librarian", by decide⟩ ⟨"generated", none⟩).insert
    ⟨"nginx:pupil", by decide⟩ ⟨"generated", some expiry⟩

/-- The command that makes them the subjects of the staff, the pupil for a millisecond. -/
def replaceStaff : PolicyCommand :=
  ⟨library.id, .empty, .replaceGroup (.subjects ⟨"staff", by decide⟩ (librarianAndPupil ⟨1⟩))⟩

/-- The event of the replacement, with the pupil for an hour. -/
def staffReplaced : Event .policy PolicyChange :=
  replaceStaff.event ⟨2⟩ ⟨0⟩
    (.groupReplaced (.subjects ⟨"staff", by decide⟩ (librarianAndPupil ⟨3600000⟩)))

/-- Where expiries are rounded up to full hours, the pupil is measured with the hour when all
subjects are replaced. -/
theorem measured_is_stored_iff_library :
    Aggregate.isActive library = true ∧ replaceStaff.request.WritesPart ∧
      ∃ content response next,
        (policyRules ⟨280, 3600000, .standard⟩).execute ⟨0⟩ (some library) replaceStaff =
          .mutation staffReplaced response false false ∧
        (policyRules ⟨279, 3600000, .standard⟩).execute ⟨0⟩ (some library) replaceStaff =
          .failed (.policyTooLarge 280 279) ∧
        Aggregate.apply staffReplaced (some library) = .ok next ∧
        (replaceStaff.request.part.place.set library.toJson content).unstamped =
          next.toJson.unstamped := by
  have hwrites : replaceStaff.request.WritesPart := .inl ⟨_, rfl⟩
  -- The tag of the response is left open, so that no hash has to be evaluated.
  obtain ⟨response, hexecuted⟩ : ∃ response,
      (policyRules ⟨280, 3600000, .standard⟩).execute ⟨0⟩ (some library) replaceStaff =
        .mutation staffReplaced response false false := by
    have hdecided : (policyRules ⟨280, 3600000, .standard⟩).decide ⟨0⟩ (some library)
        (Aggregate.revision (some library)).next replaceStaff =
          .mutation staffReplaced (Setting.response
            ⟨⟨280, 3600000, .standard⟩, ⟨0⟩, ⟨2⟩, replaceStaff⟩ .noContent none) false false := by
      decide +kernel
    exact ⟨_, CommandRules.execute_eq_mutation rfl hdecided rfl⟩
  obtain ⟨content, next, hmeasured, hlimited, happlied, hsame⟩ :=
    measured_is_stored_iff rfl hwrites hexecuted
  have hsize : SizeLimit.measure (replaceStaff.request.part.place.set library.toJson content)
      replaceStaff.headers = 280 := by
    cases hmeasured
    decide +kernel
  refine ⟨rfl, hwrites, content, response, next, hexecuted, ?_, happlied, hsame.mpr trivial⟩
  have hrefused := hlimited 279
  rw [hsize] at hrefused
  exact hrefused

/-- The command that adds the pupil alone, for a millisecond. -/
def admitPupil : PolicyCommand :=
  ⟨library.id, .empty, .write (.subject ⟨"staff", by decide⟩ ⟨"nginx:pupil", by decide⟩
    ⟨"generated", some ⟨1⟩⟩)⟩

/-- The event of the addition, for an hour. -/
def pupilAdmitted : Event .policy PolicyChange :=
  admitPupil.event ⟨2⟩ ⟨0⟩ (.written .created (.subject ⟨"staff", by decide⟩
    ⟨"nginx:pupil", by decide⟩ ⟨"generated", some ⟨3600000⟩⟩))

/-- Added alone, the pupil is measured with the millisecond and stored with the hour, in a document
that is larger than the limit. -/
theorem measured_subject_outgrows_limit :
    Aggregate.isActive library = true ∧ admitPupil.request.WritesPart ∧
      ∃ content response next,
        (policyRules ⟨274, 3600000, .standard⟩).execute ⟨0⟩ (some library) admitPupil =
          .mutation pupilAdmitted response false false ∧
        Setting.measured? ⟨⟨274, 3600000, .standard⟩, ⟨0⟩, ⟨2⟩, admitPupil⟩ library
          admitPupil.request = some content ∧
        SizeLimit.measure (admitPupil.request.part.place.set library.toJson content)
          admitPupil.headers = 274 ∧
        Aggregate.apply pupilAdmitted (some library) = .ok next ∧
        (admitPupil.request.part.place.set library.toJson content).unstamped ≠
          next.toJson.unstamped ∧
        next.toJson.byteSize = 280 := by
  have hdecided : (policyRules ⟨274, 3600000, .standard⟩).decide ⟨0⟩ (some library)
      (Aggregate.revision (some library)).next admitPupil =
        .mutation pupilAdmitted (Setting.response
          ⟨⟨274, 3600000, .standard⟩, ⟨0⟩, ⟨2⟩, admitPupil⟩ .created
          (some (Wire.encode (⟨"generated", some ⟨3600000⟩⟩ : Subject)))) false false := by
    decide +kernel
  refine ⟨rfl, .inr ⟨_, rfl⟩, _, _, _, CommandRules.execute_eq_mutation rfl hdecided rfl, rfl, ?_,
    rfl, ?_, ?_⟩
  · decide +kernel
  · decide +kernel
  · decide +kernel

end PolicyRules

end GuardedThings
