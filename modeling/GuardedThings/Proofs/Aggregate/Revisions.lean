import GuardedThings.Proofs.Aggregate.Recovery

/-!
# Revisions along a run

The revision of an entity counts the records of its journal (`counts_run`):
* every event carries the revision after the current one
  (`CommandRules.Numbered`), whatever the content of the command says;
* the entity an event leads to has the revision of the event, since what is
  written into the bookkeeping is read back from it (`LawfulAggregate`);
* a deleted entity is kept, so that the count goes on when it is created again.

The count stops at the greatest word. A run with fewer mutations than that
(`length_journal_run`) therefore never has two events of one revision.
-/

set_option autoImplicit false

namespace GuardedThings

/-! ## Words -/

/-- Counting on from a capped count is counting on and then capping. -/
theorem saturate_toNat_add_one (n : Nat) : saturate ((saturate n).toNat + 1) = saturate (n + 1) := by
  apply UInt64.toNat_inj.mp
  rw [toNat_saturate, toNat_saturate, toNat_saturate]
  omega

/-- Below the greatest word nothing is capped. -/
theorem eq_of_saturate_eq {m n : Nat} (hm : m < UInt64.size) (hn : n < UInt64.size)
    (h : saturate m = saturate n) : m = n := by
  have hnat := congrArg UInt64.toNat h
  rw [toNat_saturate, toNat_saturate] at hnat
  omega

/-! ## What is asked of a kind of entity and of its rules -/

/-- A kind of entity whose bookkeeping is what was written into it. -/
class LawfulAggregate (α : Type) {kind : EntityKind} {γ : Type} [Change γ] [Aggregate α kind γ] :
    Prop where
  book_withBook : ∀ (entity : α) (book : Bookkeeping),
    Aggregate.book (Aggregate.withBook entity book) = book

instance : LawfulAggregate Policy := ⟨fun _ _ => rfl⟩

instance : LawfulAggregate Thing := ⟨fun _ _ => rfl⟩

/-- The events that commands emit have the revision that is next. -/
def CommandRules.Numbered {α γ ρ : Type} {kind : EntityKind} [Change γ] [Aggregate α kind γ]
    (rules : CommandRules α kind γ ρ) : Prop :=
  ∀ (now : Timestamp) (entity : Option α) (revision : Revision) (c : Command kind ρ)
    (event : Event kind γ) (response : Response) (created deleted : Bool),
    rules.decide now entity revision c = .mutation event response created deleted →
      event.revision = revision

/-- The events of policy commands have the revision that the rules are given. -/
theorem PolicyRules.numbered (config : PolicyConfig) : (policyRules config).Numbered := by
  intro now entity revision c event response created deleted h
  obtain ⟨change, rfl, -⟩ := PolicyRules.decide_mutation h
  rfl

/-- The events of thing commands have the revision that the rules are given. -/
theorem ThingRules.numbered (config : ThingConfig) : (thingRules config).Numbered := by
  intro now entity revision c event response created deleted h
  obtain ⟨change, rfl, -⟩ := ThingRules.decide_mutation h
  rfl

namespace AggregateRoot

variable {α γ ρ : Type} {kind : EntityKind} [Change γ] [Aggregate α kind γ]

/-! ## The count -/

/-- An entity has the revision of the event that was applied last. -/
theorem revision_of_apply [LawfulAggregate α] {event : Event kind γ} {entity : Option α} {next : α}
    (h : Aggregate.apply event entity = .ok next) :
    Aggregate.revision (some next) = event.revision := by
  obtain ⟨before, rfl⟩ := Aggregate.exists_stamp_of_apply h
  exact congrArg Bookkeeping.revision (LawfulAggregate.book_withBook _ _)

/-- The revision of the entity is the number of journal records, as far as words go. -/
def Counts (root : AggregateRoot α kind) : Prop :=
  Aggregate.revision root.state = ⟨saturate root.journal.length⟩

/-- One event more is one revision more. -/
theorem Counts.store [LawfulAggregate α] {rules : CommandRules α kind γ ρ}
    {root : AggregateRoot α kind} {now : Timestamp} {c : Command kind ρ} {event : Event kind γ}
    {next : α} (hnumbered : rules.Numbered) (hcounts : root.Counts)
    (hstores : root.Stores rules now c event next) : (root.store event next).Counts := by
  obtain ⟨response, created, deleted, hdecided⟩ := hstores.decided
  unfold Counts at hcounts ⊢
  calc Aggregate.revision (some next)
      = event.revision := revision_of_apply hstores.applied
    _ = (Aggregate.revision root.state).next := hnumbered _ _ _ _ _ _ _ _ hdecided
    _ = ⟨saturate (root.journal ++ [event.toRecord]).length⟩ := by
      rw [hcounts, List.length_append, List.length_singleton, ← saturate_toNat_add_one]
      rfl

/-- After every run the revision of the entity is the number of its records. -/
theorem counts_run [LawfulAggregate α] {rules : CommandRules α kind γ ρ}
    (hnumbered : rules.Numbered) (id : EntityId kind)
    (steps : List (Timestamp × Command kind ρ)) :
    ((new id : AggregateRoot α kind).run rules steps).Counts := by
  refine run_invariant rules Counts ?_ (new id) steps rfl
  intro root now c event next hcounts hstores
  exact hcounts.store hnumbered hstores

/-! ## Prefixes of a run -/

/-- A run in two pieces is one run after the other. -/
theorem run_append (rules : CommandRules α kind γ ρ) (root : AggregateRoot α kind)
    (first rest : List (Timestamp × Command kind ρ)) :
    root.run rules (first ++ rest) = (root.run rules first).run rules rest := by
  induction first generalizing root with
  | nil => rfl
  | cons step first ih => exact ih _

/-- The root that the step after the first `i` leaves behind. -/
theorem run_take_succ (rules : CommandRules α kind γ ρ) (root : AggregateRoot α kind)
    {steps : List (Timestamp × Command kind ρ)} {i : Nat} {now : Timestamp} {c : Command kind ρ}
    (h : steps[i]? = some (now, c)) :
    root.run rules (steps.take (i + 1)) =
      ((root.run rules (steps.take i)).handle rules now c).1 := by
  rw [List.take_add_one, h, run_append]
  rfl

/-- A journal only grows. -/
theorem length_journal_le_run (rules : CommandRules α kind γ ρ) (root : AggregateRoot α kind)
    (steps : List (Timestamp × Command kind ρ)) :
    root.journal.length ≤ (root.run rules steps).journal.length := by
  refine run_invariant rules (fun after => root.journal.length ≤ after.journal.length) ?_ root
    steps (Nat.le_refl _)
  intro after now c event next hle _
  show root.journal.length ≤ (after.journal ++ [event.toRecord]).length
  rw [List.length_append]
  omega

/-- The journal never gets shorter along a run. -/
theorem length_journal_take_le (rules : CommandRules α kind γ ρ) (root : AggregateRoot α kind)
    (steps : List (Timestamp × Command kind ρ)) {i j : Nat} (h : i ≤ j) :
    (root.run rules (steps.take i)).journal.length ≤
      (root.run rules (steps.take j)).journal.length := by
  have hsplit : steps.take j = steps.take i ++ (steps.drop i).take (j - i) := by
    rw [← List.take_add, Nat.add_sub_cancel' h]
  rw [hsplit, run_append]
  exact length_journal_le_run rules _ _

/-! ## Outcomes -/

/-- How the commands of a run end. -/
def outcomes (root : AggregateRoot α kind) (rules : CommandRules α kind γ ρ) :
    List (Timestamp × Command kind ρ) → List (Outcome kind γ)
  | [] => []
  | (now, c) :: rest =>
    (root.handle rules now c).2 :: (root.handle rules now c).1.outcomes rules rest

/-- The outcome of a step is that of its command after the steps before it. -/
theorem getElem?_outcomes (rules : CommandRules α kind γ ρ) (root : AggregateRoot α kind)
    {steps : List (Timestamp × Command kind ρ)} {i : Nat} {now : Timestamp} {c : Command kind ρ}
    (h : steps[i]? = some (now, c)) :
    (root.outcomes rules steps)[i]? =
      some ((root.run rules (steps.take i)).handle rules now c).2 := by
  induction steps generalizing root i with
  | nil => cases h
  | cons step steps ih =>
    cases i with
    | zero =>
      cases h
      rfl
    | succ i => exact ih _ h

/-- A command adds a record iff it is carried out. -/
theorem length_journal_handle (rules : CommandRules α kind γ ρ) (root : AggregateRoot α kind)
    (now : Timestamp) (c : Command kind ρ) :
    (root.handle rules now c).1.journal.length =
      root.journal.length + if (root.handle rules now c).2.isMutation then 1 else 0 := by
  have hleaves := leaves_handle rules root now c
  cases hmutation : (root.handle rules now c).2.isMutation with
  | true =>
    obtain ⟨event, next, -, hstored⟩ := hleaves.exists_store hmutation
    rw [hstored]
    exact List.length_append
  | false =>
    rw [hleaves.eq_self hmutation]
    rfl

/-- The journal has a record for every mutation. -/
theorem length_journal_run (rules : CommandRules α kind γ ρ) (root : AggregateRoot α kind)
    (steps : List (Timestamp × Command kind ρ)) :
    (root.run rules steps).journal.length =
      root.journal.length + (root.outcomes rules steps).countP Outcome.isMutation := by
  -- By induction on the steps; the root they start from moves along.
  induction steps generalizing root with
  | nil => rfl
  | cons step steps ih =>
    obtain ⟨now, c⟩ := step
    show (((root.handle rules now c).1).run rules steps).journal.length = _ +
      (_ :: ((root.handle rules now c).1).outcomes rules steps).countP Outcome.isMutation
    rw [ih, length_journal_handle, List.countP_cons]
    omega

end AggregateRoot

end GuardedThings
