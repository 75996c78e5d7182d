import GuardedThings.Proofs.Aggregate.Addressing
import GuardedThings.Proofs.Aggregate.EntityTags
import GuardedThings.Proofs.Aggregate.Revisions

/-!
# Conditional replacements

Clients that read an entity, change it and write it back as a whole do not
overwrite each other's changes if they say which revision they read: a command
that is conditional on one revision alone finds an active entity of this
revision or it fails (`handle_conditional`). Since no two mutations of a run
start from the same revision, at most one of the commands that are conditional
on a revision is carried out, whatever other clients do in between
(`one_replacement_per_revision`).
-/

set_option autoImplicit false

namespace GuardedThings

/-- Whether a command is conditional on the entity being at a revision, and on no other tag. -/
def Command.RequiresRevision {kind : EntityKind} {ρ : Type} (c : Command kind ρ) (n : Revision) :
    Prop :=
  ∃ ms, c.headers.ifMatch = some ms ∧ ∀ m ∈ ms.toList, m = .tag (.ofRevision n)

/-- Whether a request replaces or deletes (or creates) the policy as a whole. -/
def PolicyRequest.ChangesWhole (r : PolicyRequest) : Prop := r.part = .whole ∧ r.isQuery = false

/-- Whether a request replaces or deletes (or creates) the thing as a whole. -/
def ThingRequest.ChangesWhole (r : ThingRequest) : Prop := r.part = .whole ∧ r.isQuery = false

namespace CommandRules

variable {α γ ρ : Type} {kind : EntityKind} [Change γ] [Aggregate α kind γ]

/-- Rules under which the requests of one sort change entities as a whole, which are tagged by their
revisions. -/
structure Versions (rules : CommandRules α kind γ ρ) (changes : ρ → Prop) : Prop where
  numbered : rules.Numbered
  tag_eq : ∀ (request : ρ) (entity : α), changes request →
    rules.tag request entity = some (.ofRevision (Aggregate.book entity).revision)
  isQuery_eq : ∀ request : ρ, changes request → rules.isQuery request = false
  decide_ne_query : ∀ (now : Timestamp) (entity : Option α) (revision : Revision)
    (c : Command kind ρ) (response : Response), changes c.request →
      rules.decide now entity revision c ≠ .query response

variable {rules : CommandRules α kind γ ρ} {changes : ρ → Prop}

/-- What passes a condition on a revision finds an active entity of this revision. -/
theorem Versions.active_of_passed (hversions : rules.Versions changes) {entity : Option α}
    {c : Command kind ρ} {n : Revision} (hchanges : changes c.request)
    (hrequires : c.RequiresRevision n) (hpassed : rules.checkHeaders entity c = none) :
    ∃ current, Aggregate.active? entity = some current ∧
      (Aggregate.book current).revision = n := by
  obtain ⟨ms, hms, honly⟩ := hrequires
  have hmatch := ((rules.checkHeaders_eq_none_iff entity c).mp hpassed).1 ms hms
  unfold currentTag at hmatch
  cases hactive : Aggregate.active? entity with
  | none =>
    rw [hactive] at hmatch
    cases hmatch
  | some current =>
    rw [hactive, Option.bind_some, hversions.tag_eq _ _ hchanges] at hmatch
    exact ⟨current, rfl, TagMatchers.revision_of_matchStrongly honly hmatch⟩

/-- A request that changes the whole is never answered as a query, not even by its headers. -/
theorem Versions.execute_ne_query (hversions : rules.Versions changes) {now : Timestamp}
    {entity : Option α} {c : Command kind ρ} (hchanges : changes c.request) (response : Response) :
    rules.execute now entity c ≠ .query response := by
  intro h
  rcases execute_query h with hheaders | ⟨-, decided, hdecided, -⟩
  · obtain ⟨-, hquery, -, -⟩ := (rules.checkHeaders_eq_query_iff entity c response).mp hheaders
    rw [hversions.isQuery_eq _ hchanges] at hquery
    cases hquery
  · exact hversions.decide_ne_query _ _ _ _ _ hchanges hdecided

end CommandRules

/-- Where requests address parts as they should, those that change the whole have its revision as
their tag. -/
theorem Addressing.Governs.versions {α γ ρ : Type} {kind : EntityKind} [Change γ]
    [Aggregate α kind γ] {rules : CommandRules α kind γ ρ} {A : Addressing ρ} {changes : ρ → Prop}
    (h : A.Governs rules) (hnumbered : rules.Numbered)
    (hwhole : ∀ r, changes r → A.place r = .root ∧ rules.isQuery r = false) :
    rules.Versions changes where
  numbered := hnumbered
  tag_eq := by
    intro r entity hchanges
    obtain ⟨hroot, -⟩ := hwhole r hchanges
    rw [h.tag_eq]
    unfold tagOf
    rw [hroot]
    rfl
  isQuery_eq := fun r hchanges => (hwhole r hchanges).2
  decide_ne_query := by
    intro now entity revision c response hchanges hdecided
    obtain ⟨hquery, -⟩ := h.answers now entity revision c response hdecided
    rw [(hwhole _ hchanges).2] at hquery
    cases hquery

/-- Policies are replaced and deleted as wholes, tagged by their revisions. -/
theorem PolicyRules.versions (config : PolicyConfig) :
    (policyRules config).Versions PolicyRequest.ChangesWhole :=
  (PolicyRules.governs config).versions (PolicyRules.numbered config)
    fun _ hchanges => ⟨congrArg PolicyPart.place hchanges.1, hchanges.2⟩

/-- Things are replaced and deleted as wholes, tagged by their revisions. -/
theorem ThingRules.versions (config : ThingConfig) :
    (thingRules config).Versions ThingRequest.ChangesWhole :=
  (ThingRules.governs config).versions (ThingRules.numbered config)
    fun _ hchanges => ⟨congrArg ThingPart.place hchanges.1, hchanges.2⟩

namespace AggregateRoot

variable {α γ ρ : Type} {kind : EntityKind} [Change γ] [Aggregate α kind γ]
  {rules : CommandRules α kind γ ρ} {changes : ρ → Prop}

/-! ## One conditional command -/

/-- A conditional command is carried out on an active entity of the revision it names, or it fails
and leaves the root as it is. -/
theorem handle_conditional (hversions : rules.Versions changes) (root : AggregateRoot α kind)
    (now : Timestamp) (c : Command kind ρ) {n : Revision} (hchanges : changes c.request)
    (hrequires : c.RequiresRevision n) :
    (∃ current event next response created deleted,
        Aggregate.active? root.state = some current ∧ (Aggregate.book current).revision = n ∧
        Aggregate.apply event root.state = .ok next ∧
        root.handle rules now c =
          (root.store event next, .mutation event response created deleted)) ∨
      ∃ failure, root.handle rules now c = (root, .failed failure) := by
  unfold handle
  split
  · exact .inr ⟨_, rfl⟩
  · cases hexecuted : rules.execute now root.state c with
    | query response => exact absurd hexecuted (hversions.execute_ne_query hchanges response)
    | failed failure => exact .inr ⟨failure, rfl⟩
    | mutation event response created deleted =>
      obtain ⟨hpassed, -, next, -, happlied, -⟩ := CommandRules.execute_mutation hexecuted
      obtain ⟨current, hactive, hrevision⟩ :=
        hversions.active_of_passed hchanges hrequires hpassed
      refine .inl ⟨current, event, next, response, created, deleted, hactive, hrevision,
        happlied, ?_⟩
      simp only [happlied]
      rfl

/-! ## All commands of a run -/

/-- Whether a step of a run is a command that is conditional on a revision, and is carried out. -/
def ReplacesAt (rules : CommandRules α kind γ ρ) (changes : ρ → Prop) (root : AggregateRoot α kind)
    (steps : List (Timestamp × Command kind ρ)) (n : Revision) (i : Nat) : Prop :=
  ∃ now c outcome, steps[i]? = some (now, c) ∧ changes c.request ∧ c.RequiresRevision n ∧
    (root.outcomes rules steps)[i]? = some outcome ∧ outcome.isMutation = true

/-- A conditional command that is carried out finds as many records as its revision says, and adds
one. -/
theorem ReplacesAt.journal [LawfulAggregate α] (hversions : rules.Versions changes)
    {id : EntityId kind} {steps : List (Timestamp × Command kind ρ)} {n : Revision} {i : Nat}
    (h : ReplacesAt rules changes (new id) steps n i) :
    n = ⟨saturate ((new id).run rules (steps.take i)).journal.length⟩ ∧
      ((new id).run rules (steps.take (i + 1))).journal.length =
        ((new id).run rules (steps.take i)).journal.length + 1 := by
  obtain ⟨now, c, outcome, hstep, hchanges, hrequires, houtcome, hmutation⟩ := h
  rw [getElem?_outcomes rules (new id) hstep] at houtcome
  cases houtcome
  have hcounts := counts_run hversions.numbered id (steps.take i)
  have hlength := length_journal_handle rules ((new id).run rules (steps.take i)) now c
  rw [hmutation, if_pos rfl] at hlength
  refine ⟨?_, ?_⟩
  · rcases handle_conditional hversions ((new id).run rules (steps.take i)) now c hchanges
      hrequires with ⟨current, _, _, _, _, _, hactive, hrevision, -, -⟩ | ⟨failure, hfailed⟩
    · obtain ⟨hstate, -⟩ := Option.filter_eq_some_iff.mp hactive
      unfold Counts at hcounts
      rw [hstate] at hcounts
      exact hrevision.symm.trans hcounts
    · rw [hfailed] at hmutation
      cases hmutation
  · rw [run_take_succ rules (new id) hstep]
    exact hlength

/-- Of two commands conditional on the same revision, the later one is not carried out after the
earlier one. -/
theorem ReplacesAt.not_later [LawfulAggregate α] (hversions : rules.Versions changes)
    {id : EntityId kind} {steps : List (Timestamp × Command kind ρ)} {n : Revision} {i j : Nat}
    (hbound : ((new id).outcomes rules steps).countP Outcome.isMutation < UInt64.size - 1)
    (hi : ReplacesAt rules changes (new id) steps n i)
    (hj : ReplacesAt rules changes (new id) steps n j) : ¬ i < j := by
  intro hlt
  obtain ⟨hfirst, hrecorded⟩ := hi.journal hversions
  obtain ⟨hsecond, hlast⟩ := hj.journal hversions
  have hbetween := length_journal_take_le rules (new id) steps (show i + 1 ≤ j from hlt)
  have hrest : ((new id).run rules (steps.take (j + 1))).journal.length ≤
      ((new id).run rules steps).journal.length := by
    have hle := length_journal_le_run rules ((new id).run rules (steps.take (j + 1)))
      (steps.drop (j + 1))
    rwa [← run_append, List.take_append_drop] at hle
  have htotal := length_journal_run rules (new id) steps
  have hempty : (new id : AggregateRoot α kind).journal.length = 0 := rfl
  -- Both found as many records as the revision says, but the earlier one has added a record since.
  have hsame : ((new id).run rules (steps.take i)).journal.length =
      ((new id).run rules (steps.take j)).journal.length := by
    apply eq_of_saturate_eq
    · omega
    · omega
    · exact congrArg Revision.number (hfirst.symm.trans hsecond)
  omega

/-- At most one step of a run replaces a given revision. -/
theorem ReplacesAt.unique [LawfulAggregate α] (hversions : rules.Versions changes)
    {id : EntityId kind} {steps : List (Timestamp × Command kind ρ)} {n : Revision} {i j : Nat}
    (hbound : ((new id).outcomes rules steps).countP Outcome.isMutation < UInt64.size - 1)
    (hi : ReplacesAt rules changes (new id) steps n i)
    (hj : ReplacesAt rules changes (new id) steps n j) : i = j := by
  have hij := hi.not_later hversions hbound hj
  have hji := hj.not_later hversions hbound hi
  omega

/-- What holds in a run of the commands that change the whole and are conditional on a revision: at
most one of them is carried out, and this one on an active entity of the revision; all others fail
and leave entity and journal alone. -/
structure OncePerRevision (rules : CommandRules α kind γ ρ) (changes : ρ → Prop) (id : EntityId kind)
    (steps : List (Timestamp × Command kind ρ)) (n : Revision) : Prop where
  once : ((new id).outcomes rules steps).countP Outcome.isMutation < UInt64.size - 1 →
    ∀ i j, ReplacesAt rules changes (new id) steps n i →
      ReplacesAt rules changes (new id) steps n j → i = j
  onRevision : ∀ (i : Nat) (now : Timestamp) (c : Command kind ρ), steps[i]? = some (now, c) →
    changes c.request → c.RequiresRevision n →
      let root : AggregateRoot α kind := (new id).run rules (steps.take i)
      (∃ current event next response created deleted,
          Aggregate.active? root.state = some current ∧ (Aggregate.book current).revision = n ∧
          Aggregate.apply event root.state = .ok next ∧
          root.handle rules now c =
            (root.store event next, .mutation event response created deleted)) ∨
        ∃ failure, root.handle rules now c = (root, .failed failure)

/-- The facts about a single conditional command, gathered over a run from the start. -/
theorem oncePerRevision [LawfulAggregate α] (hversions : rules.Versions changes)
    (id : EntityId kind) (steps : List (Timestamp × Command kind ρ)) (n : Revision) :
    OncePerRevision rules changes id steps n where
  once := fun hbound _ _ hi hj => hi.unique hversions hbound hj
  onRevision := fun _ now c _ hchanges hrequires =>
    handle_conditional hversions _ now c hchanges hrequires

/-- No update is lost, in any run from the start with commands of whatever clients in whatever
order: of policies and of things, under any settings, and for every revision. -/
theorem one_replacement_per_revision :
    (∀ (config : PolicyConfig) (id : PolicyId) (steps : List (Timestamp × PolicyCommand))
        (n : Revision),
      OncePerRevision (policyRules config) PolicyRequest.ChangesWhole id steps n) ∧
    (∀ (config : ThingConfig) (id : ThingId) (steps : List (Timestamp × ThingCommand))
        (n : Revision),
      OncePerRevision (thingRules config) ThingRequest.ChangesWhole id steps n) :=
  ⟨fun config => oncePerRevision (PolicyRules.versions config),
    fun config => oncePerRevision (ThingRules.versions config)⟩

/-! ## Two clients of a lamp -/

/-- A lamp that is switched on or off. -/
def lamp (isOn : Bool) : Thing :=
  { id := ⟨"org.example:desk-lamp", by decide⟩, attributes := some [("on", .bool isOn)] }

/-- A command to the lamp, conditional on a revision or on none. -/
def operate (request : ThingRequest) (required : Option Revision) : Timestamp × ThingCommand :=
  let ifMatch := required.map fun n => TagMatchers.only _ (EntityTag.isListable_ofRevision n)
  (⟨0⟩, ⟨(lamp true).id, { ifMatch }, request⟩)

/-- The lamp is created, switched off and on again by two clients that saw the new lamp, and then
deleted, created again, and deleted by another client that saw the first lamp. -/
def lampRun : List (Timestamp × ThingCommand) :=
  [operate (.create (lamp true)) none,
    operate (.replace (lamp false)) (some ⟨1⟩),
    operate (.replace (lamp true)) (some ⟨1⟩),
    operate (.remove .whole) none,
    operate (.create (lamp true)) none,
    operate (.remove .whole) (some ⟨1⟩)]

/-- Of the three commands that are conditional on the first revision only the first is carried
out. -/
theorem one_replacement_per_revision_lamp :
    let start : AggregateRoot Thing .thing := new (lamp true).id
    let rules := thingRules .standard
    (start.outcomes rules lampRun).map Outcome.isMutation = [true, true, false, true, true, false] ∧
      ReplacesAt rules ThingRequest.ChangesWhole start lampRun ⟨1⟩ 1 ∧
      ∀ i, ReplacesAt rules ThingRequest.ChangesWhole start lampRun ⟨1⟩ i → i = 1 := by
  intro start rules
  have houtcomes : (start.outcomes rules lampRun).map Outcome.isMutation =
      [true, true, false, true, true, false] := by
    decide +kernel
  have hcount : (start.outcomes rules lampRun).countP Outcome.isMutation < UInt64.size - 1 :=
    calc (start.outcomes rules lampRun).countP Outcome.isMutation
        = ((start.outcomes rules lampRun).map Outcome.isMutation).countP fun done => done := by
          rw [List.countP_map]
          rfl
      _ = 4 := by
        rw [houtcomes]
        rfl
      _ < UInt64.size - 1 := by decide
  have hreplaces : ReplacesAt rules ThingRequest.ChangesWhole start lampRun ⟨1⟩ 1 := by
    obtain ⟨outcome, houtcome, hmutation⟩ : ∃ outcome,
        (start.outcomes rules lampRun)[1]? = some outcome ∧ outcome.isMutation = true := by
      have hsecond := congrArg (fun l => l[1]?) houtcomes
      rw [List.getElem?_map] at hsecond
      exact Option.map_eq_some_iff.mp hsecond
    refine ⟨_, _, outcome, rfl, ⟨rfl, rfl⟩, ⟨_, rfl, ?_⟩, houtcome, hmutation⟩
    intro m hmem
    exact List.mem_singleton.mp hmem
  refine ⟨houtcomes, hreplaces, ?_⟩
  intro i hi
  exact (one_replacement_per_revision.2 .standard (lamp true).id lampRun ⟨1⟩).once hcount i 1 hi
    hreplaces

end AggregateRoot

end GuardedThings
