import GuardedThings.Proofs.Thing.Decisions
import GuardedThings.Proofs.Thing.DocumentEdits

/-!
# Commands as pointer edits

A command on a part of a thing edits the typed thing. On the thing document this
is one edit at one pointer, the place of the addressed part: its value is set
there, or what is there is removed (`ThingRequest.edit?`). Apart from that, only
the revision and the time of the last modification change
(`ThingRules.mutation_edits_document`).

The size of a modification is measured before anything is stored, on the
document with the value put in place. So it is the stored document that is
measured, up to the two members of the bookkeeping: from the size of the edited
document one can tell, for any limit, whether the command is carried out or how
it fails.
-/

set_option autoImplicit false

namespace GuardedThings

/-- The value that a request puts in place. -/
def ThingRequest.value? : ThingRequest → Option Json
  | assignPolicy id => some (Wire.encode id)
  | write piece => some piece.toJson
  | create _ | replace _ | remove _ | retrieve _ => none

/-- The edit of the thing document that a request on a part of it asks for. -/
def ThingRequest.edit? (r : ThingRequest) (document : Json) : Option Json :=
  match r.value? with
  | some value => some (r.part.place.set document value)
  | none => (r.part.place.remove? document).map fun result => result.2

/-- A document with the revision and the time of an event. -/
def Json.stamped {kind : EntityKind} {γ : Type} (document : Json) (event : Event kind γ) : Json :=
  (document.setPath ["_modified"] (Wire.encode event.timestamp)).setPath ["_revision"]
    (Wire.encode event.revision)

/-! ## The two members of the bookkeeping -/

/-- A stamp is only seen by paths that lead to the stamps. -/
theorem Json.getPath?_stamped {kind : EntityKind} {γ : Type} (document : Json)
    (event : Event kind γ) {path : List String} (hne : path ≠ [])
    (hmodified : path.head? ≠ some "_modified") (hrevision : path.head? ≠ some "_revision") :
    (document.stamped event).getPath? path = document.getPath? path := by
  have hapart : ∀ name, path.head? ≠ some name → ¬ [name] <+: path ∧ ¬ path <+: [name] := by
    intro name hname
    refine ⟨?_, ?_⟩
    · rintro ⟨rest, rfl⟩
      exact hname rfl
    · intro hprefix
      rcases List.prefix_cons_iff.mp hprefix with hnil | ⟨rest, rfl, -⟩
      · exact hne hnil
      · exact hname rfl
  unfold stamped
  rw [getPath?_setPath_apart (hapart _ hrevision).1 (hapart _ hrevision).2,
    getPath?_setPath_apart (hapart _ hmodified).1 (hapart _ hmodified).2]

namespace Thing

variable (t : Thing)

/-- A time of modification is set in the document of the thing. -/
theorem toJson_modified (time : Timestamp) :
    ({ t with book := { t.book with modified := some time } } : Thing).toJson =
      t.toJson.setPath ["_modified"] (Wire.encode time) :=
  Json.setPath_ofFields (t.book.members.take 2) (t.book.members.drop 3 ++ t.contentFields)
    (by exact memberNames_ascending) (t.book.modified.map Wire.encode) _

/-- A revision is set in the document of the thing. -/
theorem toJson_revision (revision : Revision) :
    ({ t with book := { t.book with revision } } : Thing).toJson =
      t.toJson.setPath ["_revision"] (Wire.encode revision) :=
  Json.setPath_ofFields (t.book.members.take 3) t.contentFields
    (by exact memberNames_ascending) (some (Wire.encode t.book.revision)) _

/-- To stamp a thing is to set two members of its document. -/
theorem toJson_stamp (event : Event .thing ThingChange) :
    (Aggregate.stamp event t).toJson = t.toJson.stamped event := by
  have hmodified := t.toJson_modified event.timestamp
  have hrevision := toJson_revision
    { t with book := { t.book with modified := some event.timestamp } } event.revision
  rw [hmodified] at hrevision
  exact hrevision

end Thing

namespace ThingRules

variable {config : ThingConfig} {now : Timestamp} {thing : Option Thing} {t : Thing}
  {revision : Revision} {c : ThingCommand} {event : Event .thing ThingChange}
  {response : Response} {created deleted : Bool}

/-! ## The edit -/

/-- What an accepted change of a part makes of a thing is the requested edit of its document. -/
theorem Setting.Accepts.toJson_after {s : Setting} {change : ThingChange} {modified : Thing}
    (haccepts : s.Accepts (some t) change) (hpart : s.command.request.part ≠ .whole)
    (hevent : event.change = change) (hmodified : t.after event = .ok modified) :
    s.command.request.edit? t.toJson = some modified.toJson := by
  unfold Thing.after at hmodified
  rw [hevent] at hmodified
  cases haccepts with
  | replaced _ _ _ asked _ =>
    rw [asked] at hpart
    exact absurd rfl hpart
  | deleted _ asked =>
    rw [asked] at hpart
    exact absurd rfl hpart
  | policyAssigned _ id asked _ =>
    cases hmodified
    rw [asked]
    exact congrArg some (t.toJson_policyId id).symm
  | written _ piece asked placed owned _ =>
    cases hmodified
    rw [asked]
    exact congrArg some (ThingPiece.toJson_put placed owned).symm
  | removed _ item inside asked placed _ found =>
    cases hmodified
    obtain ⟨removed, hremoved⟩ := ThingItem.toJson_removeFrom inside placed found
    rw [asked]
    show (item.part.place.remove? t.toJson).map _ = _
    rw [hremoved]
    rfl

/-- A requested edit leaves what is neither on the way to the addressed place nor below it. -/
theorem getPath?_of_edit {r : ThingRequest} {document edited : Json}
    (hedit : r.edit? document = some edited) {path : List String}
    (hbelow : ¬ r.part.place.segments <+: path) (habove : ¬ path <+: r.part.place.segments) :
    edited.getPath? path = document.getPath? path := by
  unfold ThingRequest.edit? at hedit
  split at hedit
  · cases hedit
    exact Json.getPath?_setPath_apart hbelow habove document _
  · obtain ⟨⟨removed, rest⟩, hremoved, heq⟩ := Option.map_eq_some_iff.mp hedit
    cases heq
    exact Json.getPath?_removePath?_apart hremoved hbelow habove

/-! ## The measured document -/

namespace Setting

/-- What was checked about the part that a piece is written to. -/
theorem Accepts.placed_of_write {s : Setting} {change : ThingChange} {piece : ThingPiece}
    (haccepts : s.Accepts (some t) change) (hwrites : s.command.request = .write piece) :
    piece.part.isMisplaced = false ∧
      ∀ id, piece.part.owner? = some id → (t.feature? id).isSome = true := by
  cases haccepts with
  | written _ piece' asked placed owned _ =>
    rw [hwrites] at asked
    cases asked
    exact ⟨placed, owned⟩
  | replaced _ _ _ asked _ | policyAssigned _ _ asked _ | deleted _ asked
  | removed _ _ _ asked _ _ _ =>
    rw [hwrites] at asked
    cases asked

variable (s : Setting)

/-- The failure of a document that is measured to be too large. -/
def tooLarge (document : Json) : Failure :=
  .thingTooLarge (SizeLimit.measure document s.command.headers) s.config.maxSizeBytes.toNat

/-- The check of the size measures the document with the part set to the content. -/
theorem checkSizeWith_eq (part : ThingPart) (content : Json) :
    s.checkSizeWith t part content =
      if SizeLimit.measure (part.place.set t.toJson content) s.command.headers ≤
          s.config.maxSizeBytes.toNat then .ok ()
      else .error (s.tooLarge (part.place.set t.toJson content)) := rfl

/-- A policy is assigned iff the document with its id in it is within the limit. -/
theorem assignPolicy_eq (id : PolicyId) :
    s.assignPolicy t id =
      if SizeLimit.measure (ThingPart.policyId.place.set t.toJson (Wire.encode id))
          s.command.headers ≤ s.config.maxSizeBytes.toNat then
        .ok (s.changed (.policyAssigned id))
      else .error (s.tooLarge (ThingPart.policyId.place.set t.toJson (Wire.encode id))) := by
  unfold assignPolicy
  rw [checkSizeWith_eq]
  split
  · rfl
  · rfl

/-- The outcome of putting a piece in place. -/
def put (t : Thing) (piece : ThingPiece) : Outcome .thing ThingChange :=
  let existed := (piece.part.get? t).isSome
  let response :=
    if existed then s.response .noContent none else s.response .created (some piece.toJson)
  .mutation (s.command.event s.revision s.now (.written (.of existed) piece)) response false false

/-- A piece that has a place and an owner is written iff the document with it is within the
limit. -/
theorem write_eq {piece : ThingPiece} (placed : piece.part.isMisplaced = false)
    (owned : ∀ id, piece.part.owner? = some id → (t.feature? id).isSome) :
    s.write t piece =
      if SizeLimit.measure (piece.part.place.set t.toJson piece.toJson) s.command.headers ≤
          s.config.maxSizeBytes.toNat then .ok (s.put t piece)
      else .error (s.tooLarge (piece.part.place.set t.toJson piece.toJson)) := by
  unfold write
  rw [(checkPlace_eq_ok_iff _).mpr placed, (s.checkOwner_eq_ok_iff t _).mpr owned,
    checkSizeWith_eq]
  by_cases hfits : SizeLimit.measure (piece.part.place.set t.toJson piece.toJson)
      s.command.headers ≤ s.config.maxSizeBytes.toNat
  · rw [if_pos hfits, if_pos hfits]
    rfl
  · rw [if_neg hfits, if_neg hfits]
    rfl

end Setting

/-- A decision that comes down to the size of one document comes down to it under every limit. -/
theorem decide_of_measured (outcome : Outcome .thing ThingChange) {document : Json}
    (hactive : Aggregate.active? thing = some t)
    (hmeasured : ∀ limit : ThingConfig, Setting.onExisting ⟨limit, now, revision, c⟩ t =
      if SizeLimit.measure document c.headers ≤ limit.maxSizeBytes.toNat then .ok outcome
      else .error (Setting.tooLarge ⟨limit, now, revision, c⟩ document))
    (hdecided : decide config now thing revision c = .mutation event response created deleted)
    (config' : ThingConfig) :
    decide config' now thing revision c =
      if SizeLimit.measure document c.headers ≤ config'.maxSizeBytes.toNat then
        .mutation event response created deleted
      else .failed (.thingTooLarge (SizeLimit.measure document c.headers)
        config'.maxSizeBytes.toNat) := by
  have hform : ∀ limit : ThingConfig, decide limit now thing revision c =
      if SizeLimit.measure document c.headers ≤ limit.maxSizeBytes.toNat then outcome
      else .failed (Setting.tooLarge ⟨limit, now, revision, c⟩ document) := by
    intro limit
    unfold decide
    simp only [hactive, hmeasured]
    by_cases hfits : SizeLimit.measure document c.headers ≤ limit.maxSizeBytes.toNat
    · simp only [if_pos hfits]
    · simp only [if_neg hfits]
  rw [hform config] at hdecided
  split at hdecided
  · subst hdecided
    exact hform config'
  · cases hdecided

/-- Whether a modification that is accepted under some limit is accepted under another one depends
on the size of the edited document alone. -/
theorem decide_sized {value : Json} (hactive : Aggregate.active? thing = some t)
    (hvalue : c.request.value? = some value)
    (hdecided : decide config now thing revision c = .mutation event response created deleted)
    (config' : ThingConfig) :
    decide config' now thing revision c =
      if SizeLimit.measure (c.request.part.place.set t.toJson value) c.headers ≤
          config'.maxSizeBytes.toNat then .mutation event response created deleted
      else .failed (.thingTooLarge
        (SizeLimit.measure (c.request.part.place.set t.toJson value) c.headers)
        config'.maxSizeBytes.toNat) := by
  -- The checks before the size do not look at the limit, so they pass under every other one too.
  cases asked : c.request with
  | create _ | replace _ | remove _ | retrieve _ =>
    rw [asked] at hvalue
    cases hvalue
  | assignPolicy id =>
    rw [asked] at hvalue
    cases hvalue
    refine decide_of_measured (Setting.changed ⟨config, now, revision, c⟩ (.policyAssigned id))
      hactive ?_ hdecided config'
    intro limit
    unfold Setting.onExisting
    simp only [asked]
    exact Setting.assignPolicy_eq ⟨limit, now, revision, c⟩ id
  | write piece =>
    rw [asked] at hvalue
    cases hvalue
    obtain ⟨change, -, haccepts⟩ := decide_mutation hdecided
    rw [hactive] at haccepts
    obtain ⟨placed, owned⟩ := haccepts.placed_of_write asked
    refine decide_of_measured (Setting.put ⟨config, now, revision, c⟩ t piece) hactive ?_ hdecided
      config'
    intro limit
    unfold Setting.onExisting
    simp only [asked]
    exact Setting.write_eq ⟨limit, now, revision, c⟩ placed owned

/-! ## Commands on parts -/

/-- Every mutation of a part of an active thing edits the thing document at the place of the part,
stamps it with the event, and leaves all other paths alone; and a modification is measured on the
edited document, under whatever limit. -/
theorem mutation_edits_document (hactive : Aggregate.isActive t = true)
    (hpart : c.request.part ≠ .whole)
    (h : (thingRules config).execute now (some t) c = .mutation event response created deleted) :
    ∃ next edited, Aggregate.apply event (some t) = .ok next ∧
      c.request.edit? t.toJson = some edited ∧
      next.toJson = edited.stamped event ∧
      (∀ path, ¬ c.request.part.place.segments <+: path →
        ¬ path <+: c.request.part.place.segments →
        path.head? ≠ some "_modified" → path.head? ≠ some "_revision" →
          next.toJson.getPath? path = t.toJson.getPath? path) ∧
      (c.request.value?.isSome = true → ∀ config' : ThingConfig,
        (thingRules config').execute now (some t) c =
          if SizeLimit.measure edited c.headers ≤ config'.maxSizeBytes.toNat then
            .mutation event response created deleted
          else .failed (.thingTooLarge (SizeLimit.measure edited c.headers)
            config'.maxSizeBytes.toNat)) := by
  obtain ⟨hpassed, decided, next, hdecided, happlied, hresponse⟩ :=
    CommandRules.execute_mutation h
  have hcurrent : Aggregate.active? (some t) = some t :=
    Option.filter_eq_some_iff.mpr ⟨rfl, hactive⟩
  obtain ⟨change, hevent, haccepts⟩ := decide_mutation hdecided
  rw [hcurrent] at haccepts
  obtain ⟨modified, hmodified, hnext⟩ := Aggregate.modified_of_apply hcurrent happlied
  have hedit : c.request.edit? t.toJson = some modified.toJson :=
    haccepts.toJson_after hpart (congrArg Event.change hevent) hmodified
  have hstamped : next.toJson = modified.toJson.stamped event := by
    rw [hnext]
    exact modified.toJson_stamp event
  refine ⟨next, modified.toJson, happlied, hedit, hstamped, ?_, ?_⟩
  · intro path hbelow habove hmodifiedAt hrevision
    have hne : path ≠ [] := by
      rintro rfl
      exact habove List.nil_prefix
    rw [hstamped, Json.getPath?_stamped _ _ hne hmodifiedAt hrevision]
    exact getPath?_of_edit hedit hbelow habove
  · intro hvalue config'
    obtain ⟨value, hvalue⟩ := Option.isSome_iff_exists.mp hvalue
    have hset : modified.toJson = c.request.part.place.set t.toJson value := by
      unfold ThingRequest.edit? at hedit
      rw [hvalue] at hedit
      exact (Option.some.inj hedit).symm
    -- The conditional headers are checked alike under every limit.
    have hpassed' : (thingRules config').checkHeaders (some t) c = none := hpassed
    have hsized := decide_sized hcurrent hvalue hdecided config'
    rw [← hset] at hsized
    unfold CommandRules.execute
    rw [hpassed']
    show (thingRules config').attachTag (some t) c (decide config' now (some t) _ c) = _
    rw [hsized]
    split
    · unfold CommandRules.attachTag
      simp only [happlied, hresponse]
      rfl
    · rfl

/-! ## Stocking a shelf -/

/-- A shelf with a label and no books. -/
def shelf : Thing :=
  { id := ⟨"org.example:shelf", by decide⟩, attributes := some [("label", .string "A")] }

/-- The command to count three books, for which there is no object yet. -/
def countBooks : ThingCommand :=
  ⟨shelf.id, .empty, .write (.attributeAt (.ofSegments ["books", "count"]) (.integer 3))⟩

/-- The event of counting the books. -/
def booksCounted : Event .thing ThingChange :=
  countBooks.event ⟨1⟩ ⟨5⟩
    (.written .created (.attributeAt (.ofSegments ["books", "count"]) (.integer 3)))

/-- The books are counted in the document, the label stays, and a shelf with less room than the
edited document needs refuses the count. -/
theorem mutation_edits_document_shelf :
    Aggregate.isActive shelf = true ∧ countBooks.request.part ≠ .whole ∧
      ∃ response next,
        (thingRules .standard).execute ⟨5⟩ (some shelf) countBooks =
          .mutation booksCounted response false false ∧
        Aggregate.apply booksCounted (some shelf) = .ok next ∧
        next.toJson.getPath? ["attributes", "books"] = some (.object [("count", .integer 3)]) ∧
        next.toJson.getPath? ["attributes", "label"] = some (.string "A") ∧
        next.toJson.getPath? ["_revision"] = some (.integer 1) ∧
        ∃ actual, (thingRules ⟨60⟩).execute ⟨5⟩ (some shelf) countBooks =
          .failed (.thingTooLarge actual 60) := by
  have hpart : countBooks.request.part ≠ .whole := nofun
  -- The tag of the response is left open, so that no hash has to be evaluated.
  obtain ⟨response, hexecuted⟩ : ∃ response,
      (thingRules .standard).execute ⟨5⟩ (some shelf) countBooks =
        .mutation booksCounted response false false := by
    have hdecided : (thingRules .standard).decide ⟨5⟩ (some shelf)
        (Aggregate.revision (some shelf)).next countBooks =
          .mutation booksCounted (Setting.response ⟨.standard, ⟨5⟩, ⟨1⟩, countBooks⟩ .created
            (some (.integer 3))) false false := by
      decide +kernel
    obtain ⟨next, happlied⟩ : ∃ next, Aggregate.apply booksCounted (some shelf) = .ok next :=
      ⟨_, rfl⟩
    have hpassed : (thingRules .standard).checkHeaders (some shelf) countBooks = none := rfl
    unfold CommandRules.execute CommandRules.attachTag
    rw [hpassed]
    simp only [hdecided, happlied]
    exact ⟨_, rfl⟩
  obtain ⟨next, edited, happlied, hedit, hstamped, hapart, hmeasured⟩ :=
    mutation_edits_document rfl hpart hexecuted
  cases hedit
  have hlabel := hapart ["attributes", "label"] (by decide) (by decide) nofun nofun
  have hlarge : ¬ SizeLimit.measure
      (countBooks.request.part.place.set shelf.toJson (.integer 3)) countBooks.headers ≤ 60 := by
    decide +kernel
  refine ⟨rfl, hpart, response, next, hexecuted, happlied, ?_, hlabel, ?_, _,
    (hmeasured rfl ⟨60⟩).trans (if_neg hlarge)⟩
  · rw [hstamped]
    decide +kernel
  · rw [hstamped]
    decide +kernel

end ThingRules

end GuardedThings
