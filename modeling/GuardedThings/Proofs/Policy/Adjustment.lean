import GuardedThings.Proofs.Access.Administrability
import GuardedThings.Proofs.Policy.Decisions
import GuardedThings.Proofs.Wire.Dictionaries

/-!
# What adjusting a policy changes

A proposed policy is stored with the expiries of its subjects rounded up, and
only if all of them are then still to come. Adjusting goes entry by entry and
subject by subject, stops at the first subject that is over, and rebuilds the
dictionaries. What comes out has the same entries with the same resources and
the same subjects in them (`Setting.exists_of_get?_adjustPolicy`,
`Setting.exists_get?_adjustPolicy`), and all of the subjects count
(`Setting.countsAt_adjustSubject`).

So the stored policy says at the time of the command what the proposed one says
when every membership is taken to count, those included that were over already
and have been brought back by rounding (`Setting.gives_adjustPolicy_iff`).
-/

set_option autoImplicit false

namespace GuardedThings

/-! ## Dictionaries mapped value by value -/

namespace Dict

variable {κ α β ε : Type} [Key κ] [DecidableEq κ] {f : κ → α → Except ε β} {d : Dict κ α}
  {d' : Dict κ β}

/-- The pairs of a mapped dictionary are made of the pairs of the dictionary, under the same
keys. -/
theorem mapValuesM_eq_ok (h : d.mapValuesM f = .ok d') :
    ∃ entries, d.toList.mapM (fun entry => do return (entry.1, ← f entry.1 entry.2)) =
        .ok entries ∧ ∀ k b, d'.get? k = some b ↔ (k, b) ∈ entries := by
  obtain ⟨entries, hentries, heq⟩ := (bind_eq_ok_iff _ _ _).mp h
  cases heq
  have hkey : ∀ (entry : κ × α) (entry' : κ × β),
      (do return (entry.1, ← f entry.1 entry.2)) = Except.ok entry' → entry'.1 = entry.1 := by
    intro entry entry' hentry
    obtain ⟨b, -, heq⟩ := (bind_eq_ok_iff _ _ _).mp hentry
    cases heq
    rfl
  have hnodup : (entries.map Prod.fst).Nodup := by
    rw [map_mapM hkey hentries]
    exact d.sorted.nodup_keys
  refine ⟨entries, hentries, fun key b => ?_⟩
  rw [ofList, get?_foldl_insert hnodup]
  simp

/-- A value of a mapped dictionary is made of the one under the same key. -/
theorem exists_of_get?_mapValuesM (h : d.mapValuesM f = .ok d') {k : κ} {b : β}
    (hb : d'.get? k = some b) : ∃ a, d.get? k = some a ∧ f k a = .ok b := by
  obtain ⟨entries, hentries, hget⟩ := mapValuesM_eq_ok h
  obtain ⟨⟨k', a⟩, ha, hmade⟩ := exists_of_mem_mapM hentries ((hget k b).mp hb)
  obtain ⟨b', hb', heq⟩ := (bind_eq_ok_iff _ _ _).mp hmade
  cases heq
  exact ⟨a, (d.mem_toList_iff k' a).mp ha, hb'⟩

/-- A value of a dictionary is made into one under the same key. -/
theorem exists_get?_mapValuesM (h : d.mapValuesM f = .ok d') {k : κ} {a : α}
    (ha : d.get? k = some a) : ∃ b, d'.get? k = some b ∧ f k a = .ok b := by
  obtain ⟨entries, hentries, hget⟩ := mapValuesM_eq_ok h
  obtain ⟨entry, hmem, hmade⟩ := exists_mem_mapM_of_mem hentries ((d.mem_toList_iff k a).mpr ha)
  obtain ⟨b, hb, heq⟩ := (bind_eq_ok_iff _ _ _).mp hmade
  cases heq
  exact ⟨b, (hget k b).mpr hmem, hb⟩

end Dict

/-! ## Entries stored by label -/

namespace Policy

/-- Indexing entries stores their bodies one by one, each under a new label. -/
theorem index_eq_foldlM (indexed : Dict Label EntryBody) (entries : List Entry) :
    index indexed entries =
      (entries.map fun e => (e.label, e.body)).foldlM (fun (d : Dict Label EntryBody) e =>
        if d.contains e.1 then .error (Failure.duplicateLabel e.1.text)
        else .ok (d.insert e.1 e.2)) indexed := by
  induction entries generalizing indexed with
  | nil => rfl
  | cons e rest ih =>
    rw [index, List.map_cons, List.foldlM_cons]
    split
    · rfl
    · exact ih _

/-- Entries are indexed iff no label occurs twice, and then they are stored one by one. -/
theorem index_eq_ok_iff (indexed d : Dict Label EntryBody) (entries : List Entry) :
    index indexed entries = .ok d ↔
      (entries.map Entry.label).Nodup ∧ (∀ e ∈ entries, indexed.get? e.label = none) ∧
        d = (entries.map fun e => (e.label, e.body)).foldl (fun d e => d.insert e.1 e.2)
          indexed := by
  have hlabels : (entries.map fun e => (e.label, e.body)).map Prod.fst = entries.map Entry.label :=
    List.map_map
  have hstored := Dict.foldlM_insert_eq_ok_iff (α := EntryBody) fun l : Label =>
    Failure.duplicateLabel l.text
  rw [index_eq_foldlM]
  refine (hstored _ indexed d).trans ?_
  rw [hlabels, and_assoc, List.forall_mem_map]
  simp only [Dict.contains, Option.isSome_eq_false_iff, Option.isNone_iff_eq_none]

/-- A policy with given entries has exactly these. -/
theorem get?_setEntries {p q : Policy} {entries : List Entry} (h : p.setEntries entries = .ok q)
    (l : Label) (body : EntryBody) : q.entries.get? l = some body ↔ ⟨l, body⟩ ∈ entries := by
  obtain ⟨d, hd, heq⟩ := (bind_eq_ok_iff _ _ _).mp h
  cases heq
  obtain ⟨hnodup, -, rfl⟩ := (index_eq_ok_iff _ _ _).mp hd
  have hkeys : ((entries.map fun e => (e.label, e.body)).map Prod.fst).Nodup := by
    rw [List.map_map]
    exact hnodup
  show (((entries.map fun e => (e.label, e.body)).foldl _ Dict.empty).get? l = some body) ↔ _
  rw [Dict.get?_foldl_insert hkeys]
  constructor
  · rintro (hmem | ⟨-, hnone⟩)
    · obtain ⟨e, he, heq⟩ := List.mem_map.mp hmem
      cases heq
      exact he
    · cases hnone
  · intro hmem
    exact .inl (List.mem_map.mpr ⟨_, hmem, rfl⟩)

/-- The entries of a policy are the bodies found under their labels. -/
theorem mem_entryList_iff (p : Policy) (l : Label) (body : EntryBody) :
    (⟨l, body⟩ : Entry) ∈ p.entryList ↔ p.entries.get? l = some body := by
  rw [entryList, ← Dict.mem_toList_iff, List.mem_map]
  constructor
  · rintro ⟨⟨l', body'⟩, hmem, heq⟩
    cases heq
    exact hmem
  · intro hmem
    exact ⟨(l, body), hmem, rfl⟩

/-! ## Subjects of changed entries -/

/-- The subjects after one entry was updated, or created and updated. -/
theorem subject?_updateEntry (p : Policy) (label l : Label) (f : EntryBody → EntryBody)
    (id : SubjectId) :
    (p.updateEntry label f).subject? l id =
      if l = label then (f ((p.entries.get? label).getD .empty)).subjects.get? id
      else p.subject? l id := by
  unfold updateEntry subject?
  rw [Dict.get?_insert]
  split
  · rfl
  · rfl

/-- The subjects after one entry was updated if it was there. -/
theorem subject?_updateExisting (p : Policy) (label l : Label) (f : EntryBody → EntryBody)
    (id : SubjectId) :
    (p.updateExisting label f).subject? l id =
      if l = label then (p.entries.get? label).bind fun body => (f body).subjects.get? id
      else p.subject? l id := by
  unfold updateExisting subject?
  cases hfound : p.entries.get? label with
  | none =>
    by_cases hl : l = label
    · rw [if_pos hl, hl]
      simp only [hfound]
      rfl
    · rw [if_neg hl]
  | some body =>
    simp only [Dict.get?_insert]
    by_cases hl : l = label
    · rw [if_pos hl, if_pos hl]
      rfl
    · rw [if_neg hl, if_neg hl]

/-- A missing entry is as good as an empty one. -/
theorem subject?_eq_getD (p : Policy) (label : Label) (id : SubjectId) :
    p.subject? label id = ((p.entries.get? label).getD .empty).subjects.get? id := by
  unfold subject?
  cases p.entries.get? label with
  | none => rfl
  | some body => rfl

/-- A change that keeps the subjects of the entry names nobody and forgets nobody. -/
theorem subject?_updateEntry_of_kept (p : Policy) (label l : Label) {f : EntryBody → EntryBody}
    (hkept : ∀ body, (f body).subjects = body.subjects) (id : SubjectId) :
    (p.updateEntry label f).subject? l id = p.subject? l id := by
  rw [subject?_updateEntry, hkept]
  split
  · rename_i hl
    rw [hl, subject?_eq_getD]
  · rfl

/-- A change of an existing entry that names nobody else leaves only subjects that were there. -/
theorem subject?_of_updateExisting {p : Policy} {label l : Label} {f : EntryBody → EntryBody}
    {id : SubjectId} {subject : Subject}
    (hnobody : ∀ body : EntryBody, (f body).subjects.get? id = some subject →
      body.subjects.get? id = some subject)
    (h : (p.updateExisting label f).subject? l id = some subject) :
    p.subject? l id = some subject := by
  rw [subject?_updateExisting] at h
  split at h
  · rename_i hl
    obtain ⟨body, hbody, hsubject⟩ := Option.bind_eq_some_iff.mp h
    rw [hl]
    exact Option.bind_eq_some_iff.mpr ⟨body, hbody, hnobody body hsubject⟩
  · exact h

end Policy

/-! ## Adjusted subjects, entries and policies -/

namespace PolicyRules.Setting

variable {s : Setting}

/-- A subject that is accepted counts at the time of the command. -/
theorem countsAt_adjustSubject {id : SubjectId} {given subject : Subject}
    (h : s.adjustSubject id given = .ok subject) : subject.countsAt s.now = true := by
  unfold adjustSubject at h
  split at h
  · rename_i hpermanent
    cases h
    unfold Subject.countsAt Subject.isExpired
    rw [hpermanent]
    rfl
  · dsimp only at h
    split at h
    · cases h
    · rename_i hlater
      cases h
      unfold Subject.countsAt Subject.isExpired
      rw [Bool.not_eq_true', ← Bool.not_eq_true]
      exact hlater

/-- An adjusted entry is one with the same label and the same resources. -/
theorem adjustEntry_eq_ok_iff (given e : Entry) :
    s.adjustEntry given = .ok e ↔
      e.label = given.label ∧ s.adjustSubjects given.body.subjects = .ok e.body.subjects ∧
        e.body.resources = given.body.resources := by
  unfold adjustEntry
  constructor
  · intro h
    obtain ⟨subjects, hsubjects, heq⟩ := (bind_eq_ok_iff _ _ _).mp h
    cases heq
    exact ⟨rfl, hsubjects, rfl⟩
  · rintro ⟨hlabel, hsubjects, hresources⟩
    refine (bind_eq_ok_iff _ _ _).mpr ⟨e.body.subjects, hsubjects, ?_⟩
    obtain ⟨l, subjects, resources⟩ := e
    cases hlabel
    cases hresources
    rfl

/-- The entries of an adjusted policy are the adjusted entries of the proposed one. -/
theorem adjustPolicy_eq_ok {proposed p : Policy} (h : s.adjustPolicy proposed = .ok p) :
    ∃ entries, proposed.entryList.mapM s.adjustEntry = .ok entries ∧
      ∀ l body, p.entries.get? l = some body ↔ ⟨l, body⟩ ∈ entries := by
  unfold adjustPolicy at h
  split at h
  · cases h
  · obtain ⟨entries, hentries, h⟩ := (bind_eq_ok_iff _ _ _).mp h
    obtain ⟨q, hq, heq⟩ := (bind_eq_ok_iff _ _ _).mp h
    cases heq
    exact ⟨entries, hentries, fun l body => Policy.get?_setEntries hq l body⟩

/-- An entry of an adjusted policy is one of the proposed policy, with adjusted subjects. -/
theorem exists_of_get?_adjustPolicy {proposed p : Policy} (h : s.adjustPolicy proposed = .ok p)
    {l : Label} {body : EntryBody} (hbody : p.entries.get? l = some body) :
    ∃ given, proposed.entries.get? l = some given ∧
      s.adjustSubjects given.subjects = .ok body.subjects ∧ body.resources = given.resources := by
  obtain ⟨entries, hentries, hget⟩ := adjustPolicy_eq_ok h
  obtain ⟨given, hgiven, hadjusted⟩ := exists_of_mem_mapM hentries ((hget l body).mp hbody)
  obtain ⟨rfl, hsubjects, hresources⟩ := (adjustEntry_eq_ok_iff _ _).mp hadjusted
  exact ⟨given.body, (proposed.mem_entryList_iff _ _).mp hgiven, hsubjects, hresources⟩

/-- An entry of the proposed policy is one of the adjusted policy, with adjusted subjects. -/
theorem exists_get?_adjustPolicy {proposed p : Policy} (h : s.adjustPolicy proposed = .ok p)
    {l : Label} {given : EntryBody} (hgiven : proposed.entries.get? l = some given) :
    ∃ body, p.entries.get? l = some body ∧
      s.adjustSubjects given.subjects = .ok body.subjects ∧ body.resources = given.resources := by
  obtain ⟨entries, hentries, hget⟩ := adjustPolicy_eq_ok h
  obtain ⟨e, he, hadjusted⟩ :=
    exists_mem_mapM_of_mem hentries ((proposed.mem_entryList_iff l given).mpr hgiven)
  obtain ⟨hlabel, hsubjects, hresources⟩ := (adjustEntry_eq_ok_iff _ _).mp hadjusted
  obtain ⟨_, body⟩ := e
  cases hlabel
  exact ⟨body, (hget l body).mpr he, hsubjects, hresources⟩

/-- At the time of the command an adjusted policy says what the proposed one says when all of its
memberships count. -/
theorem gives_adjustPolicy_iff {proposed p : Policy} (h : s.adjustPolicy proposed = .ok p)
    (id : SubjectId) (on : ResourceKey) (effect : Effect) (permission : Permission) :
    p.Gives (Subject.countsAt s.now) id on effect permission ↔
      proposed.Gives (fun _ => true) id on effect permission := by
  simp only [Policy.Gives, Policy.mem_statements_iff]
  refine exists_congr fun e => and_congr_left fun _ => ?_
  constructor
  · rintro ⟨l, body, subject, hl, hs, -, hk⟩
    obtain ⟨given, hgiven, hsubjects, hresources⟩ := exists_of_get?_adjustPolicy h hl
    obtain ⟨subject', hs', -⟩ := Dict.exists_of_get?_mapValuesM hsubjects hs
    exact ⟨l, given, subject', hgiven, hs', trivial, hresources ▸ hk⟩
  · rintro ⟨l, given, subject', hgiven, hs', -, hk⟩
    obtain ⟨body, hl, hsubjects, hresources⟩ := exists_get?_adjustPolicy h hgiven
    obtain ⟨subject, hs, hadjusted⟩ := Dict.exists_get?_mapValuesM hsubjects hs'
    exact ⟨l, body, subject, hl, hs, countsAt_adjustSubject hadjusted, hresources ▸ hk⟩

end PolicyRules.Setting

end GuardedThings
