import GuardedThings.Aggregate.Root
import GuardedThings.Proofs.Results

/-!
# Runs of a root

A run hands a root one command after another, each at a time of its own. All a
single command can do is described by `handle_cases`: the root stays as it is,
or the command is addressed to it, passes its conditional headers, is decided
to be a mutation, and the event applies and is stored (`Stores`). What every
stored event preserves therefore holds after every run (`run_invariant`), and
what is said about the entity alone needs no root (`state_invariant`); both also
for runs in which the commands that were accepted are restricted
(`run_invariant_of_allowed`, `state_invariant_of_allowed`).
-/

set_option autoImplicit false

namespace GuardedThings

namespace Aggregate

variable {α γ : Type} {kind : EntityKind} [Change γ] [Aggregate α kind γ]

/-- What an applied event made of an entity: a creation event brings a new one to life where there
is no active one, any other event modifies the active one; either way the entity is stamped. -/
theorem apply_cases {event : Event kind γ} {entity : Option α} {next : α}
    (h : apply event entity = .ok next) :
    (Change.isCreation event.change = true ∧ active? entity = none ∧
      ∃ created, create event = .ok created ∧
        next = stamp event (withCreated created event.timestamp)) ∨
    (Change.isCreation event.change = false ∧
      ∃ current modified, active? entity = some current ∧ modify event current = .ok modified ∧
        next = stamp event modified) := by
  unfold apply at h
  split at h
  · cases h
  · split at h
    · cases h
    · rename_i hcreation hactive
      obtain ⟨created, hcreated, heq⟩ := (bind_eq_ok_iff _ _ _).mp h
      cases heq
      exact .inl ⟨hcreation, hactive, created, hcreated, rfl⟩
    · rename_i current hcreation hactive
      obtain ⟨modified, hmodified, heq⟩ := (bind_eq_ok_iff _ _ _).mp h
      cases heq
      exact .inr ⟨hcreation, current, modified, hactive, hmodified, rfl⟩
    · cases h

/-- Whatever an event makes of an entity carries its stamp. -/
theorem exists_stamp_of_apply {event : Event kind γ} {entity : Option α} {next : α}
    (h : apply event entity = .ok next) : ∃ before, next = stamp event before := by
  rcases apply_cases h with ⟨-, -, created, -, hnext⟩ | ⟨-, current, modified, -, -, hnext⟩
  · exact ⟨_, hnext⟩
  · exact ⟨_, hnext⟩

/-- An event applies to its own entity only. -/
theorem id_of_apply {event : Event kind γ} {current next : α}
    (h : apply event (some current) = .ok next) : id current = event.entityId := by
  unfold apply at h
  split at h
  · cases h
  · rename_i hown
    exact Decidable.not_not.mp fun hne => hown (decide_eq_true hne)

/-- What an event makes of an active entity. -/
theorem modified_of_apply {event : Event kind γ} {entity : Option α} {current next : α}
    (hactive : active? entity = some current) (h : apply event entity = .ok next) :
    ∃ modified, modify event current = .ok modified ∧ next = stamp event modified := by
  rcases apply_cases h with ⟨-, hnone, -⟩ | ⟨-, current', modified, hsome, hmodified, hnext⟩
  · rw [hactive] at hnone
    cases hnone
  · rw [hactive] at hsome
    cases hsome
    exact ⟨modified, hmodified, hnext⟩

end Aggregate

namespace CommandRules

variable {α γ ρ : Type} {kind : EntityKind} [Change γ] [Aggregate α kind γ]

/-- Conditional headers answer or refuse, but change nothing. -/
theorem checkHeaders_ne_mutation (rules : CommandRules α kind γ ρ) (entity : Option α)
    (c : Command kind ρ) (event : Event kind γ) (response : Response) (created deleted : Bool) :
    rules.checkHeaders entity c ≠ some (.mutation event response created deleted) := by
  intro h
  simp only [checkHeaders] at h
  split at h
  · cases h
  · split at h
    · split at h
      · cases h
      · cases h
    · cases h

/-- A header with tags to match stops no command iff the tag matches, where there is one. -/
theorem filter_ifMatch_eq_none_iff (header : Option TagMatchers) (tag : Option EntityTag) :
    (header.filter fun ms => !ms.matchStrongly tag) = none ↔
      ∀ ms, header = some ms → ms.matchStrongly tag = true := by
  rw [Option.filter_eq_none_iff]
  simp only [Bool.not_eq_true', Bool.not_eq_false]

/-- A command passes its conditional headers if the tag of the addressed part meets both. -/
theorem checkHeaders_eq_none_iff (rules : CommandRules α kind γ ρ) (entity : Option α)
    (c : Command kind ρ) :
    rules.checkHeaders entity c = none ↔
      (∀ ms, c.headers.ifMatch = some ms →
        ms.matchStrongly (rules.currentTag entity c.request) = true) ∧
      (∀ ms, c.headers.ifNoneMatch = some ms →
        ms.matchWeakly (rules.currentTag entity c.request) = false) := by
  have hnone : (c.headers.ifNoneMatch.filter fun ms =>
      ms.matchWeakly (rules.currentTag entity c.request)) = none ↔
        ∀ ms, c.headers.ifNoneMatch = some ms →
          ms.matchWeakly (rules.currentTag entity c.request) = false := by
    rw [Option.filter_eq_none_iff]
    simp only [Bool.not_eq_true]
  rw [← filter_ifMatch_eq_none_iff, ← hnone]
  simp only [checkHeaders]
  constructor
  · intro h
    split at h
    · cases h
    · rename_i hmatches
      split at h
      · split at h
        · cases h
        · cases h
      · rename_i hother
        exact ⟨hmatches, hother⟩
  · rintro ⟨hmatches, hother⟩
    rw [hmatches, hother]

/-- A command without conditions passes. -/
theorem checkHeaders_of_unconditional (rules : CommandRules α kind γ ρ) (entity : Option α)
    {c : Command kind ρ} (hmatch : c.headers.ifMatch = none)
    (hnone : c.headers.ifNoneMatch = none) : rules.checkHeaders entity c = none := by
  rw [checkHeaders_eq_none_iff, hmatch, hnone]
  exact ⟨nofun, nofun⟩

/-- Of the entity, the conditional headers look at the tag of the addressed part only. -/
theorem checkHeaders_congr (rules : CommandRules α kind γ ρ) {entity entity' : Option α}
    {c : Command kind ρ}
    (h : rules.currentTag entity c.request = rules.currentTag entity' c.request) :
    rules.checkHeaders entity c = rules.checkHeaders entity' c := by
  unfold checkHeaders
  rw [h]

/-- The conditional headers answer a command if it is a query whose result the client has
already. -/
theorem checkHeaders_eq_query_iff (rules : CommandRules α kind γ ρ) (entity : Option α)
    (c : Command kind ρ) (response : Response) :
    rules.checkHeaders entity c = some (.query response) ↔
      (∀ ms, c.headers.ifMatch = some ms →
        ms.matchStrongly (rules.currentTag entity c.request) = true) ∧
      rules.isQuery c.request = true ∧
      (∃ ms, c.headers.ifNoneMatch = some ms ∧
        ms.matchWeakly (rules.currentTag entity c.request) = true) ∧
      response = rules.notModified c (rules.currentTag entity c.request) := by
  rw [← filter_ifMatch_eq_none_iff]
  simp only [checkHeaders]
  constructor
  · intro h
    split at h
    · cases h
    · rename_i hmatches
      split at h
      · rename_i ms hnone
        obtain ⟨hms, hmatch⟩ := Option.filter_eq_some_iff.mp hnone
        split at h
        · rename_i hquery
          cases h
          exact ⟨hmatches, hquery, ⟨ms, hms, hmatch⟩, rfl⟩
        · cases h
      · cases h
  · rintro ⟨hmatches, hquery, ⟨ms, hms, hmatch⟩, rfl⟩
    have hnone : (c.headers.ifNoneMatch.filter fun ms =>
        ms.matchWeakly (rules.currentTag entity c.request)) = some ms :=
      Option.filter_eq_some_iff.mpr ⟨hms, hmatch⟩
    simp only [hmatches, hnone, hquery, if_true]

/-- An executed command that ends in a mutation passed its conditional headers and was decided to be
that mutation; the event applies, and the response got the tag of the part as it is afterwards. -/
theorem execute_mutation {rules : CommandRules α kind γ ρ} {now : Timestamp}
    {entity : Option α} {c : Command kind ρ} {event : Event kind γ} {response : Response}
    {created deleted : Bool}
    (h : rules.execute now entity c = .mutation event response created deleted) :
    rules.checkHeaders entity c = none ∧
      ∃ decided next, rules.decide now entity (Aggregate.revision entity).next c =
          .mutation event decided created deleted ∧
        Aggregate.apply event entity = .ok next ∧
        response = decided.withTag (rules.currentTag (some next) c.request) := by
  unfold execute at h
  split at h
  · rename_i outcome hheaders
    subst h
    exact absurd hheaders (checkHeaders_ne_mutation rules entity c event response created deleted)
  · rename_i hheaders
    refine ⟨hheaders, ?_⟩
    unfold attachTag at h
    split at h
    · rename_i hdecided
      split at h
      · rename_i next happlied
        cases h
        exact ⟨_, next, hdecided, happlied, rfl⟩
      · cases h
    · cases h
    · cases h

/-- A command that passes its conditional headers and is decided to be a mutation whose event
applies ends in this mutation. -/
theorem execute_eq_mutation {rules : CommandRules α kind γ ρ} {now : Timestamp}
    {entity : Option α} {c : Command kind ρ} {event : Event kind γ} {decided : Response}
    {created deleted : Bool} {next : α} (hpassed : rules.checkHeaders entity c = none)
    (hdecided : rules.decide now entity (Aggregate.revision entity).next c =
      .mutation event decided created deleted)
    (happlied : Aggregate.apply event entity = .ok next) :
    rules.execute now entity c =
      .mutation event (decided.withTag (rules.currentTag (some next) c.request)) created
        deleted := by
  unfold execute
  rw [hpassed]
  show rules.attachTag entity c (rules.decide now entity _ c) = _
  rw [hdecided]
  unfold attachTag
  simp only [happlied]

/-- An executed command that ends in an answer was answered by its conditional headers, or it passed
them and was decided to be answered; then the answer got the tag of the part. -/
theorem execute_query {rules : CommandRules α kind γ ρ} {now : Timestamp} {entity : Option α}
    {c : Command kind ρ} {response : Response}
    (h : rules.execute now entity c = .query response) :
    rules.checkHeaders entity c = some (.query response) ∨
      (rules.checkHeaders entity c = none ∧
        ∃ decided, rules.decide now entity (Aggregate.revision entity).next c = .query decided ∧
          response = decided.withTag (rules.currentTag entity c.request)) := by
  unfold execute at h
  split at h
  · rename_i outcome hheaders
    subst h
    exact .inl hheaders
  · rename_i hheaders
    refine .inr ⟨hheaders, ?_⟩
    unfold attachTag at h
    split at h
    · split at h
      · cases h
      · cases h
    · rename_i decided hdecided
      cases h
      exact ⟨decided, hdecided, rfl⟩
    · cases h

end CommandRules

/-- Whether something is to be stored. -/
def Outcome.isMutation {kind : EntityKind} {γ : Type} : Outcome kind γ → Bool
  | .mutation .. => true
  | .query _ | .failed _ => false

/-- Something is to be stored iff the outcome is a mutation, with an event. -/
theorem Outcome.isMutation_iff {kind : EntityKind} {γ : Type} {outcome : Outcome kind γ} :
    outcome.isMutation = true ↔ ∃ event response created deleted,
      outcome = .mutation event response created deleted := by
  constructor
  · intro h
    cases outcome with
    | mutation event response created deleted => exact ⟨event, response, created, deleted, rfl⟩
    | query response => cases h
    | failed failure => cases h
  · rintro ⟨event, response, created, deleted, rfl⟩
    rfl

namespace AggregateRoot

variable {α γ ρ : Type} {kind : EntityKind} [Change γ] [Aggregate α kind γ]

/-- A command that is addressed to a root and decided to be a mutation whose event applies. -/
structure Stores (rules : CommandRules α kind γ ρ) (root : AggregateRoot α kind)
    (now : Timestamp) (c : Command kind ρ) (event : Event kind γ) (next : α) : Prop where
  addressed : c.entityId = root.id
  passed : rules.checkHeaders root.state c = none
  decided : ∃ response created deleted,
    rules.decide now root.state (Aggregate.revision root.state).next c =
      .mutation event response created deleted
  applied : Aggregate.apply event root.state = .ok next

/-- The root with an event stored. -/
def store (root : AggregateRoot α kind) (event : Event kind γ) (next : α) :
    AggregateRoot α kind :=
  { root with state := some next, journal := root.journal ++ [event.toRecord] }

/-- All that handling a command can do: nothing, or store the event of a mutation. -/
theorem handle_cases (rules : CommandRules α kind γ ρ) (root : AggregateRoot α kind)
    (now : Timestamp) (c : Command kind ρ) :
    (root.handle rules now c).1 = root ∨
      (root.handle rules now c).2.isMutation = true ∧
        ∃ event next, root.Stores rules now c event next ∧
          (root.handle rules now c).1 = root.store event next := by
  unfold handle
  split
  · exact .inl rfl
  · rename_i haddressed
    split
    · rename_i event response created deleted hexecuted
      obtain ⟨hpassed, decided, next, hdecided, happlied, -⟩ :=
        CommandRules.execute_mutation hexecuted
      rw [happlied]
      refine .inr ⟨rfl, event, next, ?_, rfl⟩
      exact ⟨Decidable.not_not.mp haddressed, hpassed, ⟨_, _, _, hdecided⟩, happlied⟩
    · exact .inl rfl

/-- The root after a sequence of commands, each handled at its time. -/
def run (root : AggregateRoot α kind) (rules : CommandRules α kind γ ρ) :
    List (Timestamp × Command kind ρ) → AggregateRoot α kind
  | [] => root
  | (now, c) :: rest => (root.handle rules now c).1.run rules rest

/-- The commands of a run that end in mutations. -/
def accepted (root : AggregateRoot α kind) (rules : CommandRules α kind γ ρ) :
    List (Timestamp × Command kind ρ) → List (Command kind ρ)
  | [] => []
  | (now, c) :: rest =>
    let later := (root.handle rules now c).1.accepted rules rest
    if (root.handle rules now c).2.isMutation then c :: later else later

/-- Only commands of the run are accepted in it. -/
theorem exists_step_of_mem_accepted {rules : CommandRules α kind γ ρ} {root : AggregateRoot α kind}
    {steps : List (Timestamp × Command kind ρ)} {c : Command kind ρ}
    (h : c ∈ root.accepted rules steps) : ∃ step ∈ steps, step.2 = c := by
  induction steps generalizing root with
  | nil => cases h
  | cons step rest ih =>
    unfold accepted at h
    dsimp only at h
    split at h
    · rcases List.mem_cons.mp h with rfl | hlater
      · exact ⟨step, List.mem_cons_self, rfl⟩
      · obtain ⟨later, hmem, heq⟩ := ih hlater
        exact ⟨later, List.mem_cons_of_mem _ hmem, heq⟩
    · obtain ⟨later, hmem, heq⟩ := ih h
      exact ⟨later, List.mem_cons_of_mem _ hmem, heq⟩

/-- What every stored event of an allowed command preserves holds after every run in which only
allowed commands are accepted. -/
theorem run_invariant_of_allowed (rules : CommandRules α kind γ ρ)
    (allowed : Command kind ρ → Prop) (inv : AggregateRoot α kind → Prop)
    (step : ∀ (root : AggregateRoot α kind) (now : Timestamp) (c : Command kind ρ)
      (event : Event kind γ) (next : α), allowed c → inv root →
        root.Stores rules now c event next → inv (root.store event next))
    (root : AggregateRoot α kind) (steps : List (Timestamp × Command kind ρ))
    (hallowed : ∀ c ∈ root.accepted rules steps, allowed c) (initial : inv root) :
    inv (root.run rules steps) := by
  -- By induction on the steps; the root they start from moves along.
  induction steps generalizing root with
  | nil => exact initial
  | cons entry rest ih =>
    obtain ⟨now, c⟩ := entry
    have haccepted : root.accepted rules ((now, c) :: rest) =
        if (root.handle rules now c).2.isMutation then
          c :: (root.handle rules now c).1.accepted rules rest
        else (root.handle rules now c).1.accepted rules rest := rfl
    rw [haccepted] at hallowed
    refine ih _ (fun later hmem => hallowed later ?_) ?_
    · split
      · exact List.mem_cons_of_mem _ hmem
      · exact hmem
    · rcases handle_cases rules root now c with
        hsame | ⟨hmutation, event, next, hstores, hstored⟩
      · rw [hsame]
        exact initial
      · rw [if_pos hmutation] at hallowed
        rw [hstored]
        exact step root now c event next (hallowed c List.mem_cons_self) initial hstores

/-- What every stored event preserves holds after every run. -/
theorem run_invariant (rules : CommandRules α kind γ ρ) (inv : AggregateRoot α kind → Prop)
    (step : ∀ (root : AggregateRoot α kind) (now : Timestamp) (c : Command kind ρ)
      (event : Event kind γ) (next : α), inv root → root.Stores rules now c event next →
        inv (root.store event next))
    (root : AggregateRoot α kind) (steps : List (Timestamp × Command kind ρ))
    (initial : inv root) : inv (root.run rules steps) :=
  run_invariant_of_allowed rules (fun _ => True) inv
    (fun root now c event next _ => step root now c event next) root steps
    (fun _ _ => trivial) initial

/-- What every applied event of an allowed command that is decided to be a mutation preserves holds
of the entity after every run that starts without one and accepts only allowed commands. -/
theorem state_invariant_of_allowed (rules : CommandRules α kind γ ρ)
    (allowed : Command kind ρ → Prop) (inv : Option α → Prop) (initial : inv none)
    (step : ∀ (entity : Option α) (now : Timestamp) (revision : Revision) (c : Command kind ρ)
      (event : Event kind γ) (response : Response) (created deleted : Bool) (next : α),
      allowed c → inv entity →
        rules.decide now entity revision c = .mutation event response created deleted →
          Aggregate.apply event entity = .ok next → inv (some next))
    (id : EntityId kind) (steps : List (Timestamp × Command kind ρ))
    (hallowed : ∀ c ∈ (new id).accepted rules steps, allowed c) :
    inv ((new id).run rules steps).state := by
  refine run_invariant_of_allowed rules allowed (fun root => inv root.state) ?_ (new id) steps
    hallowed initial
  intro root now c event next hc hinv hstores
  obtain ⟨response, created, deleted, hdecided⟩ := hstores.decided
  exact step root.state now _ c event response created deleted next hc hinv hdecided
    hstores.applied

/-- What every applied event of a decided mutation preserves holds of the entity after every run
that starts without one. -/
theorem state_invariant (rules : CommandRules α kind γ ρ) (inv : Option α → Prop)
    (initial : inv none)
    (step : ∀ (entity : Option α) (now : Timestamp) (revision : Revision) (c : Command kind ρ)
      (event : Event kind γ) (response : Response) (created deleted : Bool) (next : α),
      inv entity → rules.decide now entity revision c = .mutation event response created deleted →
        Aggregate.apply event entity = .ok next → inv (some next))
    (id : EntityId kind) (steps : List (Timestamp × Command kind ρ)) :
    inv ((new id).run rules steps).state :=
  state_invariant_of_allowed rules (fun _ => True) inv initial
    (fun entity now revision c event response created deleted next _ =>
      step entity now revision c event response created deleted next)
    id steps fun _ _ => trivial

end AggregateRoot

end GuardedThings
