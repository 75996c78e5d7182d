import GuardedThings.Proofs.Policy.Adjustment
import GuardedThings.Proofs.Policy.WireForm

/-!
# Entries and the labels they are stored under

A policy stores the bodies of its entries by label. Where whole entries are stored
by label instead (`LabelledPolicy`), each of them carries a second label, and
nothing in the layout keeps the two from disagreeing. They never do: every way to
make such a policy and every edit of it says of the bodies what the policy without
the second label does, and puts the label back (`LabelledPolicy.edit_ofPolicy`). So
what can be reached are the policies themselves, each entry under its own label
(`LabelledPolicy.Reached.exists_eq`).

Entries that are stored together are stored as they are given if their labels are
told apart, and are refused for the first label that occurs again otherwise
(`Policy.index_eq_error_iff`). The entries of a policy have different labels, so it
can always be rebuilt from them (`Policy.setEntries_entryList`).
-/

set_option autoImplicit false

namespace GuardedThings

namespace Entry

/-- The entry without subjects and resources. -/
def empty (label : Label) : Entry := ⟨label, .empty⟩

/-- The entry with other subjects. -/
def withSubjects (e : Entry) (subjects : Subjects) : Entry := ⟨e.label, ⟨subjects, e.resources⟩⟩

/-- The entry with other resources. -/
def withResources (e : Entry) (resources : Resources) : Entry := ⟨e.label, ⟨e.subjects, resources⟩⟩

end Entry

/-- A change of a policy. -/
inductive PolicyEdit where
  | setEntry (entry : Entry)
  | setEntries (entries : List Entry)
  | removeEntry (label : Label)
  | setSubject (label : Label) (id : SubjectId) (subject : Subject)
  | setSubjects (label : Label) (subjects : Subjects)
  | removeSubject (label : Label) (id : SubjectId)
  | setResource (label : Label) (key : ResourceKey) (effects : Effects)
  | setResources (label : Label) (resources : Resources)
  | removeResource (label : Label) (key : ResourceKey)
  | removeExpired (now : Timestamp)
  | setLifecycle (lifecycle : Lifecycle)
  | setRevision (revision : Revision)
  | setCreated (created : Timestamp)
  | setModified (modified : Timestamp)

/-- What a change does to the bookkeeping. -/
def PolicyEdit.book (b : Bookkeeping) : PolicyEdit → Bookkeeping
  | setLifecycle lifecycle => { b with lifecycle }
  | setRevision revision => { b with revision }
  | setCreated created => { b with created := some created }
  | setModified modified => { b with modified := some modified }
  | _ => b

/-! ## Policies -/

namespace Policy

/-- The policy after a change. -/
def edit (p : Policy) : PolicyEdit → Except Failure Policy
  | .setEntry entry => .ok (p.setEntry entry)
  | .setEntries entries => p.setEntries entries
  | .removeEntry label => .ok (p.removeEntry label)
  | .setSubject label id subject => .ok (p.setSubject label id subject)
  | .setSubjects label subjects => .ok (p.setSubjects label subjects)
  | .removeSubject label id => .ok (p.removeSubject label id)
  | .setResource label key effects => .ok (p.setResource label key effects)
  | .setResources label resources => .ok (p.setResources label resources)
  | .removeResource label key => .ok (p.removeResource label key)
  | .removeExpired now => .ok (p.removeExpired now)
  | e => .ok { p with book := e.book p.book }

/-- The bodies of entries under their labels. -/
def pairs (entries : List Entry) : List (Label × EntryBody) :=
  entries.map fun e => (e.label, e.body)

/-- The labels of the pairs are those of the entries. -/
theorem map_fst_pairs (entries : List Entry) :
    (pairs entries).map Prod.fst = entries.map Entry.label := by
  unfold pairs
  rw [List.map_map]
  rfl

/-- The pairs make up the entries again. -/
theorem map_pairs (entries : List Entry) :
    (pairs entries).map (fun (l, b) => ⟨l, b⟩) = entries := by
  unfold pairs
  rw [List.map_map]
  exact List.map_id entries

/-- Entries with different labels are stored as they are given. -/
theorem exists_index_of_nodup {entries : List Entry} (h : (entries.map Entry.label).Nodup) :
    ∃ d, index .empty entries = .ok d ∧ d.toList.Perm (pairs entries) := by
  have hkeys : ((pairs entries).map Prod.fst).Nodup := by
    rw [map_fst_pairs]
    exact h
  exact ⟨Dict.ofList (pairs entries), (index_eq_ok_iff _ _ _).mpr ⟨h, fun _ _ => rfl, rfl⟩,
    Dict.toList_ofList_perm hkeys⟩

/-- Entries are refused for the first label that was met before. -/
theorem index_eq_error_iff (indexed : Dict Label EntryBody) (entries : List Entry)
    (failure : Failure) :
    index indexed entries = .error failure ↔
      ∃ front e back, entries = front ++ e :: back ∧
        ((front.map Entry.label).Nodup ∧ ∀ e' ∈ front, indexed.contains e'.label = false) ∧
        (e.label ∈ front.map Entry.label ∨ indexed.contains e.label = true) ∧
        failure = .duplicateLabel e.label.text := by
  -- What is indexed grows along the list: a label is met again where it is in the front or was
  -- indexed before.
  induction entries generalizing indexed with
  | nil =>
    constructor
    · intro h
      cases h
    · rintro ⟨front, e, back, heq, -⟩
      simp at heq
  | cons first rest ih =>
    rw [index]
    cases hfirst : indexed.contains first.label with
    | true =>
      constructor
      · intro h
        cases h
        have hnone := List.forall_mem_nil fun e : Entry => indexed.contains e.label = false
        exact ⟨[], first, rest, rfl, ⟨List.nodup_nil, hnone⟩, .inr hfirst, rfl⟩
      · rintro ⟨front, e, back, heq, ⟨-, hnew⟩, -, rfl⟩
        cases front with
        | nil =>
          cases heq
          rfl
        | cons e' front =>
          cases heq
          have habsent := hnew first List.mem_cons_self
          rw [hfirst] at habsent
          cases habsent
    | false =>
      have hinsert := fun l => Dict.contains_insert indexed first.label l first.body
      have hnew_iff : ∀ l, (indexed.insert first.label first.body).contains l = false ↔
          l ≠ first.label ∧ indexed.contains l = false := by
        intro l
        rw [← Bool.not_eq_true, hinsert, not_or, Bool.not_eq_true]
      refine (ih (indexed.insert first.label first.body)).trans ?_
      simp only [hnew_iff, hinsert]
      constructor
      · rintro ⟨front, e, back, rfl, ⟨hnodup, hnew⟩, hmet, rfl⟩
        refine ⟨first :: front, e, back, rfl, ⟨?_, ?_⟩, ?_, rfl⟩
        · refine List.nodup_cons.mpr ⟨fun hmem => ?_, hnodup⟩
          obtain ⟨e', he', heq⟩ := List.mem_map.mp hmem
          exact (hnew e' he').1 heq
        · exact List.forall_mem_cons.mpr ⟨hfirst, fun e' he' => (hnew e' he').2⟩
        · rw [List.map_cons, List.mem_cons, or_assoc, or_left_comm]
          exact hmet
      · rintro ⟨front, e, back, heq, ⟨hnodup, hnew⟩, hmet, rfl⟩
        cases front with
        | nil =>
          cases heq
          rw [hfirst] at hmet
          simp at hmet
        | cons e' front =>
          cases heq
          obtain ⟨hother, hnodup⟩ := List.nodup_cons.mp hnodup
          refine ⟨front, e, back, rfl, ⟨hnodup, fun e' he' => ⟨fun heq => ?_, ?_⟩⟩, ?_, rfl⟩
          · exact hother (heq ▸ List.mem_map_of_mem he')
          · exact hnew e' (List.mem_cons_of_mem _ he')
          · rw [List.map_cons, List.mem_cons, or_assoc, or_left_comm] at hmet
            exact hmet

/-- The entries of a policy can be stored again and give the policy. -/
theorem index_entryList (p : Policy) : index .empty p.entryList = .ok p.entries := by
  have hpairs : pairs p.entryList = p.entries.toList := by
    unfold pairs entryList
    rw [List.map_map]
    exact List.map_id _
  refine (index_eq_ok_iff _ _ _).mpr ⟨?_, fun _ _ => rfl, ?_⟩
  · rw [← map_fst_pairs, hpairs]
    exact p.entries.nodup_keys
  · exact (Dict.ofList_of_perm (hpairs ▸ List.Perm.refl _)).symm

/-- A policy is given its own entries without a change. -/
theorem setEntries_entryList (p : Policy) : p.setEntries p.entryList = .ok p := by
  unfold setEntries
  rw [index_entryList]
  rfl

end Policy

/-! ## Policies with a second label -/

/-- A policy that stores whole entries by label, so that an entry could be stored under a label that
is not its own. -/
structure LabelledPolicy where
  id : PolicyId
  book : Bookkeeping
  entries : Dict Label Entry

namespace LabelledPolicy

/-- The active policy without entries. -/
def new (id : PolicyId) : LabelledPolicy := ⟨id, .fresh, .empty⟩

/-- The entries, by the labels they are stored under. -/
def entryList (p : LabelledPolicy) : List Entry := p.entries.values

/-- The dictionary of the entries; the first label that occurs again is reported. -/
def index : Dict Label Entry → List Entry → Except Failure (Dict Label Entry)
  | indexed, [] => .ok indexed
  | indexed, entry :: rest =>
    if indexed.contains entry.label then .error (.duplicateLabel entry.label.text)
    else index (indexed.insert entry.label entry) rest

/-- The policy of the given entries, whose labels must differ. -/
def ofEntries (id : PolicyId) (entries : List Entry) : Except Failure LabelledPolicy :=
  return { new id with entries := ← index .empty entries }

/-- The policy with exactly the given entries, whose labels must differ. -/
def setEntries (p : LabelledPolicy) (entries : List Entry) : Except Failure LabelledPolicy :=
  return { p with entries := ← index .empty entries }

/-- The policy with an entry added or replaced, under the label it carries. -/
def setEntry (p : LabelledPolicy) (entry : Entry) : LabelledPolicy :=
  { p with entries := p.entries.insert entry.label entry }

/-- The policy without an entry. -/
def removeEntry (p : LabelledPolicy) (label : Label) : LabelledPolicy :=
  { p with entries := p.entries.erase label }

/-- The entry under a label; a missing entry counts as empty. -/
def entryOrEmpty (p : LabelledPolicy) (label : Label) : Entry :=
  (p.entries.get? label).getD (.empty label)

/-- The policy with the entry under a label changed and stored under the label it then carries. -/
def updateEntry (p : LabelledPolicy) (label : Label) (f : Entry → Entry) : LabelledPolicy :=
  p.setEntry (f (p.entryOrEmpty label))

/-- The same, if there is an entry under the label. -/
def updateExisting (p : LabelledPolicy) (label : Label) (f : Entry → Entry) : LabelledPolicy :=
  match p.entries.get? label with
  | some entry => p.setEntry (f entry)
  | none => p

/-- The policy without the subjects that are expired at `now`. -/
def removeExpired (p : LabelledPolicy) (now : Timestamp) : LabelledPolicy :=
  { p with
    entries := p.entries.mapValues fun _ entry =>
      entry.withSubjects (entry.subjects.withoutExpired now) }

/-- The policy after a change. -/
def edit (p : LabelledPolicy) : PolicyEdit → Except Failure LabelledPolicy
  | .setEntry entry => .ok (p.setEntry entry)
  | .setEntries entries => p.setEntries entries
  | .removeEntry label => .ok (p.removeEntry label)
  | .setSubject label id subject =>
    .ok (p.updateEntry label fun e => e.withSubjects (e.subjects.insert id subject))
  | .setSubjects label subjects => .ok (p.updateEntry label fun e => e.withSubjects subjects)
  | .removeSubject label id =>
    .ok (p.updateExisting label fun e => e.withSubjects (e.subjects.erase id))
  | .setResource label key effects =>
    .ok (p.updateEntry label fun e => e.withResources (e.resources.insert key effects))
  | .setResources label resources => .ok (p.updateEntry label fun e => e.withResources resources)
  | .removeResource label key =>
    .ok (p.updateExisting label fun e => e.withResources (e.resources.erase key))
  | .removeExpired now => .ok (p.removeExpired now)
  | e => .ok { p with book := e.book p.book }

/-- The policy of a document, in which the body of an entry stands under its label. -/
def ofPolicy (p : Policy) : LabelledPolicy :=
  ⟨p.id, p.book, p.entries.mapValues fun label body => ⟨label, body⟩⟩

/-- Reads a policy from its document. -/
def decode {σ : Type} [Source σ] (s : σ) : Except Mismatch LabelledPolicy :=
  return ofPolicy (← (Wire.decode s : Except Mismatch Policy))

/-- The policies that can be made and edited. -/
inductive Reached : LabelledPolicy → Prop where
  | new (id : PolicyId) : Reached (new id)
  | ofEntries {id : PolicyId} {entries : List Entry} {p : LabelledPolicy}
      (h : LabelledPolicy.ofEntries id entries = .ok p) : Reached p
  | decoded {σ : Type} [Source σ] {s : σ} {p : LabelledPolicy} (h : decode s = .ok p) : Reached p
  | edited {p q : LabelledPolicy} {e : PolicyEdit} (hp : Reached p) (h : p.edit e = .ok q) :
      Reached q

/-! ## The second label is put back -/

section OfPolicy

variable (p : Policy)

/-- Under each label the body is stored together with the label. -/
theorem get?_ofPolicy (label : Label) :
    (ofPolicy p).entries.get? label = (p.entries.get? label).map fun body => ⟨label, body⟩ :=
  Dict.get?_mapValues _ p.entries label

/-- Both layouts have the same list of entries. -/
theorem entryList_ofPolicy : (ofPolicy p).entryList = p.entryList := by
  unfold entryList Policy.entryList Dict.values ofPolicy Dict.mapValues
  rw [List.map_map]
  rfl

/-- Both layouts index entries alike, whatever they have indexed before. -/
theorem index_mapValues (indexed : Dict Label EntryBody) (entries : List Entry) :
    index (indexed.mapValues fun label body => ⟨label, body⟩) entries =
      (Policy.index indexed entries).map (Dict.mapValues fun label body => ⟨label, body⟩) := by
  induction entries generalizing indexed with
  | nil => rfl
  | cons entry rest ih =>
    rw [index, Policy.index, Dict.contains_mapValues]
    split
    · rfl
    · rw [← ih, Dict.mapValues_insert]

/-- Both layouts index entries alike from the start. -/
theorem index_empty (entries : List Entry) :
    index .empty entries =
      (Policy.index .empty entries).map (Dict.mapValues fun label body => ⟨label, body⟩) :=
  index_mapValues .empty entries

/-- Both layouts add or replace an entry alike. -/
theorem setEntry_ofPolicy (entry : Entry) :
    (ofPolicy p).setEntry entry = ofPolicy (p.setEntry entry) := by
  unfold setEntry ofPolicy Policy.setEntry
  rw [Dict.mapValues_insert]

/-- Both layouts remove an entry alike. -/
theorem removeEntry_ofPolicy (label : Label) :
    (ofPolicy p).removeEntry label = ofPolicy (p.removeEntry label) := by
  unfold removeEntry ofPolicy Policy.removeEntry
  rw [Dict.mapValues_erase]

/-- An entry that is changed keeps its label, so it is stored where it was. -/
theorem updateEntry_ofPolicy (label : Label) {f : Entry → Entry} {g : EntryBody → EntryBody}
    (h : ∀ body, f ⟨label, body⟩ = ⟨label, g body⟩) :
    (ofPolicy p).updateEntry label f = ofPolicy (p.updateEntry label g) := by
  have hentry : (ofPolicy p).entryOrEmpty label = ⟨label, (p.entries.get? label).getD .empty⟩ := by
    unfold entryOrEmpty
    rw [get?_ofPolicy]
    cases p.entries.get? label with
    | none => rfl
    | some body => rfl
  unfold updateEntry
  rw [hentry, h, setEntry_ofPolicy]
  rfl

/-- Both layouts update an entry alike if the update keeps its label. -/
theorem updateExisting_ofPolicy (label : Label) {f : Entry → Entry} {g : EntryBody → EntryBody}
    (h : ∀ body, f ⟨label, body⟩ = ⟨label, g body⟩) :
    (ofPolicy p).updateExisting label f = ofPolicy (p.updateExisting label g) := by
  unfold updateExisting Policy.updateExisting
  rw [get?_ofPolicy]
  cases p.entries.get? label with
  | none => rfl
  | some body =>
    show (ofPolicy p).setEntry (f ⟨label, body⟩) = _
    rw [h, setEntry_ofPolicy]
    rfl

/-- Both layouts drop expired subjects alike. -/
theorem removeExpired_ofPolicy (now : Timestamp) :
    (ofPolicy p).removeExpired now = ofPolicy (p.removeExpired now) := by
  unfold removeExpired ofPolicy Policy.removeExpired Dict.mapValues
  simp only [List.map_map]
  rfl

/-- Both layouts accept the same entries, and refuse others for the same reason. -/
theorem setEntries_ofPolicy (entries : List Entry) :
    (ofPolicy p).setEntries entries = (p.setEntries entries).map ofPolicy := by
  unfold setEntries Policy.setEntries
  rw [index_empty]
  cases Policy.index .empty entries with
  | error failure => rfl
  | ok d => rfl

/-- An edit does the same to both. -/
theorem edit_ofPolicy (e : PolicyEdit) : (ofPolicy p).edit e = (p.edit e).map ofPolicy := by
  cases e with
  | setEntry entry => exact congrArg Except.ok (setEntry_ofPolicy p entry)
  | setEntries entries => exact setEntries_ofPolicy p entries
  | removeEntry label => exact congrArg Except.ok (removeEntry_ofPolicy p label)
  | setSubject label _ _ | setSubjects label _ | setResource label _ _ | setResources label _ =>
    exact congrArg Except.ok (updateEntry_ofPolicy p label fun _ => rfl)
  | removeSubject label _ | removeResource label _ =>
    exact congrArg Except.ok (updateExisting_ofPolicy p label fun _ => rfl)
  | removeExpired now => exact congrArg Except.ok (removeExpired_ofPolicy p now)
  | setLifecycle _ | setRevision _ | setCreated _ | setModified _ => rfl

end OfPolicy

/-- Every policy can be made in the layout with whole entries. -/
theorem reached_ofPolicy (p : Policy) : (ofPolicy p).Reached := by
  refine .decoded (s := (Wire.encode p : Json)) ?_
  unfold decode
  rw [LawfulWire.decode_encode]
  rfl

/-- What is mapped into the other layout comes from a policy. -/
theorem exists_of_map {x : Except Failure Policy} {p : LabelledPolicy}
    (h : x.map ofPolicy = .ok p) : ∃ q, p = ofPolicy q := by
  cases x with
  | error failure => cases h
  | ok q =>
    cases h
    exact ⟨q, rfl⟩

/-- What can be reached is a policy with every entry under its own label. -/
theorem Reached.exists_eq {p : LabelledPolicy} (h : p.Reached) : ∃ q, p = ofPolicy q := by
  induction h with
  | new id => exact ⟨.new id, rfl⟩
  | ofEntries h => exact exists_of_map ((setEntries_ofPolicy (.new _) _).symm.trans h)
  | decoded h =>
    obtain ⟨q, -, heq⟩ := (bind_eq_ok_iff _ _ _).mp h
    cases heq
    exact ⟨q, rfl⟩
  | edited _ h ih =>
    obtain ⟨q, rfl⟩ := ih
    exact exists_of_map ((edit_ofPolicy q _).symm.trans h)

/-! ## Entries stored together -/

/-- A policy with this id and bookkeeping stores the entries as they are given if their labels are
told apart, and otherwise they are refused for the first label that occurs again. -/
structure StoresGiven (id : PolicyId) (book : Bookkeeping) (entries : List Entry)
    (result : Except Failure LabelledPolicy) : Prop where
  stored : (entries.map Entry.label).Nodup → ∃ p, result = .ok p ∧ p.id = id ∧ p.book = book ∧
    p.entryList.Perm entries
  refused : ¬ (entries.map Entry.label).Nodup → ∃ front e back, entries = front ++ e :: back ∧
    (front.map Entry.label).Nodup ∧ e.label ∈ front.map Entry.label ∧
      result = .error (.duplicateLabel e.label.text)

/-- Given entries are stored as they are, or refused for the first label that occurs again. -/
theorem storesGiven_setEntries (p : LabelledPolicy) (entries : List Entry) :
    StoresGiven p.id p.book entries (p.setEntries entries) where
  stored h := by
    obtain ⟨d, hd, hperm⟩ := Policy.exists_index_of_nodup h
    refine ⟨{ p with entries := d.mapValues fun label body => ⟨label, body⟩ }, ?_, rfl, rfl, ?_⟩
    · unfold setEntries
      rw [index_empty, hd]
      rfl
    · have hmapped := hperm.map fun (l, b) => (⟨l, b⟩ : Entry)
      rw [Policy.map_pairs] at hmapped
      refine List.Perm.trans (List.Perm.of_eq ?_) hmapped
      unfold entryList Dict.values Dict.mapValues
      rw [List.map_map]
      rfl
  refused h := by
    cases hindex : Policy.index .empty entries with
    | ok d => exact absurd ((Policy.index_eq_ok_iff _ _ _).mp hindex).1 h
    | error failure =>
      obtain ⟨front, e, back, heq, ⟨hnodup, -⟩, hmet, rfl⟩ :=
        (Policy.index_eq_error_iff _ _ _).mp hindex
      refine ⟨front, e, back, heq, hnodup, hmet.resolve_right Bool.false_ne_true, ?_⟩
      unfold setEntries
      rw [index_empty, hindex]
      rfl

/-- In every policy that is made by `new`, from entries or from a document and then edited, each
entry is stored under its own label, and the policy can be rebuilt from its entries. Entries that
are given together are stored exactly if their labels are told apart. These are the policies without
the second label, and editing does the same to both. -/
theorem entries_under_own_labels :
    (∀ p : LabelledPolicy, p.Reached →
      (∀ label entry, p.entries.get? label = some entry → entry.label = label) ∧
        p.setEntries p.entryList = .ok p) ∧
    (∀ (id : PolicyId) (entries : List Entry),
      StoresGiven id .fresh entries (ofEntries id entries)) ∧
    (∀ (p : LabelledPolicy) (entries : List Entry),
      StoresGiven p.id p.book entries (p.setEntries entries)) ∧
    ∀ p : Policy, (ofPolicy p).Reached ∧ (ofPolicy p).entryList = p.entryList ∧
      p.setEntries p.entryList = .ok p ∧ ∀ e, (ofPolicy p).edit e = (p.edit e).map ofPolicy := by
  refine ⟨fun p hp => ?_, fun id entries => storesGiven_setEntries (new id) entries,
    storesGiven_setEntries, fun p => ?_⟩
  · obtain ⟨q, rfl⟩ := hp.exists_eq
    constructor
    · intro label entry hget
      rw [get?_ofPolicy] at hget
      obtain ⟨body, -, rfl⟩ := Option.map_eq_some_iff.mp hget
      rfl
    · rw [entryList_ofPolicy, setEntries_ofPolicy, q.setEntries_entryList]
      rfl
  · exact ⟨reached_ofPolicy p, entryList_ofPolicy p, p.setEntries_entryList, edit_ofPolicy p⟩

/-- The entry of a porter, without resources. -/
def porterEntry : Entry where
  label := ⟨"porter", by decide⟩
  body := ⟨Dict.empty.insert ⟨"nginx:porter", by decide⟩ ⟨"generated", none⟩, .empty⟩

/-- The policy with this entry, to which a resource was then added. -/
def lodgePolicy : LabelledPolicy :=
  ((new ⟨"org.example:lodge", by decide⟩).setEntry porterEntry).updateEntry porterEntry.label
    fun e => e.withResources (e.resources.insert (.thing .root) ⟨.read, .empty⟩)

/-- The changed entry has kept its label, and the same entry given twice is refused. -/
theorem entries_under_own_labels_lodgePolicy :
    lodgePolicy.Reached ∧
      (∃ entry, lodgePolicy.entries.get? porterEntry.label = some entry ∧
        entry.label = porterEntry.label ∧ entry ≠ porterEntry) ∧
      lodgePolicy.setEntries lodgePolicy.entryList = .ok lodgePolicy ∧
      ofEntries lodgePolicy.id [porterEntry, porterEntry] = .error (.duplicateLabel "porter") := by
  have hreached : lodgePolicy.Reached := by
    have hentry : ((new ⟨"org.example:lodge", by decide⟩).setEntry porterEntry).Reached :=
      .edited (e := .setEntry porterEntry) (.new _) rfl
    exact .edited (e := .setResource porterEntry.label (.thing .root) ⟨.read, .empty⟩) hentry rfl
  obtain ⟨hlabels, hrebuilt⟩ := entries_under_own_labels.1 lodgePolicy hreached
  refine ⟨hreached, ?_, hrebuilt, ?_⟩
  · have hkept : (lodgePolicy.entries.get? porterEntry.label).any (· ≠ porterEntry) = true := by
      decide
    obtain ⟨entry, hget, hne⟩ := (Option.any_eq_true _ _).mp hkept
    exact ⟨entry, hget, hlabels _ entry hget, of_decide_eq_true hne⟩
  · obtain ⟨front, e, back, heq, -, -, hresult⟩ :=
      (entries_under_own_labels.2.1 lodgePolicy.id [porterEntry, porterEntry]).refused (by decide)
    have hmem : e ∈ [porterEntry, porterEntry] := by
      rw [heq]
      simp
    have he : e = porterEntry := by simpa using hmem
    rw [hresult, he]
    rfl

end LabelledPolicy

end GuardedThings
