import GuardedThings.Proofs.Policy.Decisions

/-!
# Every stored policy keeps an administrator

Each kind of change is checked on a candidate before its event is emitted, and
the stored policy is what the event makes of the current one. Whether the rule
is met depends on the entries alone (`isMet_congr`), and the event leads to
exactly the entries of the candidate (`keeps_administrator`, one case for each
kind of change); a deletion is not checked, but leaves nothing active. So the
rule is met by the active policy after any run of commands that starts without
a policy (`run_keeps_administrator`).
-/

set_option autoImplicit false

namespace GuardedThings

/-- Whether a rule is met depends on the entries of the policy only. -/
theorem AdminRule.isMet_congr (rule : AdminRule) {p q : Policy} (h : p.entries = q.entries) :
    rule.isMet p = rule.isMet q := by
  have hindex : (Enforcer.permanentOnly p).subjects = (Enforcer.permanentOnly q).subjects := by
    show p.entries.values.foldl _ _ = q.entries.values.foldl _ _
    rw [h]
  unfold isMet administrators Enforcer.subjectsWith Enforcer.subjectsWhere
  rw [hindex]

namespace Policy

/-- An applied event either is a creation, which is stored with its entries, or it turns the active
policy into one with the entries and the lifecycle that are stored. -/
theorem apply_cases {event : Event .policy PolicyChange} {policy : Option Policy} {next : Policy}
    (h : Aggregate.apply event policy = .ok next) :
    (∃ created, event.change = .created created ∧ Aggregate.active? policy = none ∧
      next.entries = created.entries) ∨
    (∃ current modified, Aggregate.active? policy = some current ∧
      current.after event = .ok modified ∧ next.entries = modified.entries ∧
      next.book.lifecycle = modified.book.lifecycle) := by
  rcases Aggregate.apply_cases h with
    ⟨_, hnone, created, hcreated, rfl⟩ | ⟨_, current, modified, hsome, hmodified, rfl⟩
  · have hcreation : ofCreation event = .ok created := hcreated
    unfold ofCreation at hcreation
    split at hcreation
    · rename_i proposed hchange
      cases hcreation
      exact .inl ⟨proposed, hchange, hnone, rfl⟩
    · cases hcreation
  · exact .inr ⟨current, modified, hsome, hmodified, rfl, rfl⟩

end Policy

namespace PolicyRules

/-- An accepted change, once applied, leaves a policy that is deleted or has an administrator. -/
theorem Setting.Accepts.keeps_administrator {s : Setting} {policy : Option Policy}
    {change : PolicyChange} {response : Response} {created deleted : Bool} {next : Policy}
    (h : s.Accepts (Aggregate.active? policy) change response created deleted)
    (happlied : Aggregate.apply (s.command.event s.revision s.now change) policy = .ok next) :
    next.book.lifecycle = .deleted ∨ s.config.adminRule.isMet next = true := by
  generalize hactive : Aggregate.active? policy = active at h
  rcases Policy.apply_cases happlied with
    ⟨stored, hchange, hnone, hentries⟩ | ⟨current, modified, hsome, hafter, hentries, hlifecycle⟩
  · rw [s.config.adminRule.isMet_congr hentries]
    rw [hnone] at hactive
    subst hactive
    cases h with
    | created proposed p asked adjusted fits administered =>
      cases hchange
      exact .inr administered
  · rw [s.config.adminRule.isMet_congr hentries, hlifecycle]
    rw [hsome] at hactive
    subst hactive
    cases h with
    | replaced _ _ p _ _ _ administered =>
      cases hafter
      exact .inr ((AdminRule.isMet_congr _ rfl).trans administered)
    | entriesReplaced _ candidate given es _ _ indexed _ administered =>
      have heq : modified = candidate := Except.ok.inj (hafter.symm.trans indexed)
      subst heq
      exact .inr administered
    | deleted =>
      cases hafter
      exact .inl rfl
    | subjectsReplaced _ _ _ _ _ _ _ _ _ administered
    | resourcesReplaced _ _ _ _ _ _ _ administered
    | entryWritten _ _ _ _ _ _ administered
    | subjectWritten _ _ _ _ _ _ _ _ _ _ administered
    | resourceWritten _ _ _ _ _ _ _ _ administered
    | entryRemoved _ _ _ _ _ administered
    | subjectRemoved _ _ _ _ _ _ _ administered
    | resourceRemoved _ _ _ _ _ _ _ administered =>
      -- The event edits the current policy as the candidate was made.
      cases hafter
      exact .inr administered

/-- After every run of commands that starts without a policy, the active policy, if there is one,
has a permanent subject that holds what the settings require. -/
theorem run_keeps_administrator (config : PolicyConfig) (id : PolicyId)
    (steps : List (Timestamp × PolicyCommand)) (policy : Policy)
    (hactive : Aggregate.active? ((AggregateRoot.new id).run (policyRules config) steps).state =
      some policy) :
    config.adminRule.isMet policy = true := by
  refine AggregateRoot.state_invariant (policyRules config)
    (fun state => ∀ active, Aggregate.active? state = some active →
      config.adminRule.isMet active = true) ?_ ?_ id steps policy hactive
  · intro active h
    cases h
  · intro state now revision c event response created deleted next _ hdecided happlied active h
    obtain ⟨change, rfl, haccepts⟩ := decide_mutation hdecided
    obtain ⟨hnext, hlive⟩ := Option.filter_eq_some_iff.mp h
    cases hnext
    rcases haccepts.keeps_administrator happlied with hdeleted | hmet
    · have hbook : (next.book.lifecycle).isActive = true := hlive
      rw [hdeleted] at hbook
      cases hbook
    · exact hmet

/-- A policy in which one permanent subject holds write access to everything. -/
def ownersPolicy : Policy :=
  (Policy.new ⟨"org.example:home", by decide⟩).setEntry
    { label := ⟨"owner", by decide⟩
      body := ⟨Dict.empty.insert ⟨"nginx:owner", by decide⟩ ⟨"generated", none⟩,
        Dict.empty.insert (.policy .root) ⟨.write, .empty⟩⟩ }

/-- A creation, an attempt to remove the only entry, a deletion, and a creation by replacement. -/
def recreation : List (Timestamp × PolicyCommand) :=
  [.create ownersPolicy, .remove (.entry ⟨"owner", by decide⟩), .remove .whole,
    .replace ownersPolicy].map fun request => (⟨0⟩, ⟨ownersPolicy.id, .empty, request⟩)

/-- The policy that is active after a deletion and a creation, in its third revision. -/
def recreated : Policy := { ownersPolicy with book := ⟨.active, ⟨3⟩, some ⟨0⟩, some ⟨0⟩⟩ }

/-- A policy that was deleted and created again has an administrator. -/
theorem run_keeps_administrator_recreation :
    Aggregate.active? ((AggregateRoot.new ownersPolicy.id).run (policyRules .standard)
        recreation).state = some recreated ∧
      AdminRule.standard.isMet recreated = true := by
  have hactive : Aggregate.active? ((AggregateRoot.new ownersPolicy.id).run
      (policyRules .standard) recreation).state = some recreated := by
    decide +kernel
  exact ⟨hactive, run_keeps_administrator .standard ownersPolicy.id recreation recreated hactive⟩

end PolicyRules

end GuardedThings
