import GuardedThings.Dict
import Mathlib.Data.List.Nodup

/-!
# Keys and entries of dictionaries

A dictionary has each of its keys once, so its size follows the keys that are
stored and erased, and it is made of its entries in any order
(`Dict.ofList_of_perm`). Storing pairs one by one keeps all of them exactly if
their keys are told apart (`Dict.foldlM_insert_eq_ok_iff`).
-/

set_option autoImplicit false

namespace GuardedThings

variable {κ α : Type} [Key κ]

/-- The keys of ascending entries differ. -/
theorem Assoc.Sorted.nodup_keys {entries : List (κ × α)} (h : Assoc.Sorted entries) :
    (entries.map Prod.fst).Nodup := by
  rw [List.Nodup, List.pairwise_map]
  exact h.imp fun hlt => hlt.ne

namespace Dict

/-! ## Keys -/

/-- The keys of a dictionary differ. -/
theorem nodup_keys (d : Dict κ α) : d.keys.Nodup := d.sorted.nodup_keys

/-- A dictionary has as many entries as keys. -/
theorem size_eq_length_keys (d : Dict κ α) : d.size = d.keys.length := by
  unfold size keys
  rw [List.length_map]

variable [DecidableEq κ]

/-- The keys of a dictionary are those that it contains. -/
theorem mem_keys_iff (d : Dict κ α) (k : κ) : k ∈ d.keys ↔ d.contains k = true := by
  unfold keys contains
  rw [List.mem_map, Option.isSome_iff_exists]
  constructor
  · rintro ⟨⟨_, a⟩, hmem, rfl⟩
    exact ⟨a, (d.mem_toList_iff _ a).mp hmem⟩
  · rintro ⟨a, hget⟩
    exact ⟨(k, a), (d.mem_toList_iff k a).mpr hget, rfl⟩

/-- An insertion adds its key and no other. -/
theorem contains_insert (d : Dict κ α) (k q : κ) (a : α) :
    (d.insert k a).contains q = true ↔ q = k ∨ d.contains q = true := by
  unfold contains
  rw [get?_insert]
  by_cases h : q = k
  · simp [h]
  · simp [h]

/-- An erasure takes its key away and no other. -/
theorem contains_erase (d : Dict κ α) (k q : κ) :
    (d.erase k).contains q = true ↔ q ≠ k ∧ d.contains q = true := by
  unfold contains
  rw [get?_erase]
  by_cases h : q = k
  · simp [h]
  · simp [h]

/-- A value stored under a key that was there replaces the other one. -/
theorem size_insert_of_contains {d : Dict κ α} {k : κ} (h : d.contains k = true) (a : α) :
    (d.insert k a).size = d.size := by
  have hperm : (d.insert k a).keys.Perm d.keys := by
    refine (List.perm_ext_iff_of_nodup (nodup_keys _) (nodup_keys _)).mpr fun q => ?_
    rw [mem_keys_iff, mem_keys_iff, contains_insert]
    constructor
    · rintro (rfl | hq)
      · exact h
      · exact hq
    · exact .inr
  rw [size_eq_length_keys, size_eq_length_keys, hperm.length_eq]

/-- An insertion at a new key adds one entry. -/
theorem size_insert_of_not_contains {d : Dict κ α} {k : κ} (h : d.contains k = false) (a : α) :
    (d.insert k a).size = d.size + 1 := by
  have hnew : k ∉ d.keys := by
    rw [mem_keys_iff, h]
    exact Bool.false_ne_true
  have hperm : (d.insert k a).keys.Perm (k :: d.keys) := by
    refine (List.perm_ext_iff_of_nodup (nodup_keys _)
      (List.nodup_cons.mpr ⟨hnew, nodup_keys _⟩)).mpr fun q => ?_
    rw [mem_keys_iff, List.mem_cons, mem_keys_iff, contains_insert]
  rw [size_eq_length_keys, size_eq_length_keys, hperm.length_eq, List.length_cons]

/-- An erasure at a key that is there takes away one entry. -/
theorem size_erase_of_contains {d : Dict κ α} {k : κ} (h : d.contains k = true) :
    (d.erase k).size + 1 = d.size := by
  have hgone : k ∉ (d.erase k).keys := by
    rw [mem_keys_iff, contains_erase]
    exact fun hk => hk.1 rfl
  have hperm : d.keys.Perm (k :: (d.erase k).keys) := by
    refine (List.perm_ext_iff_of_nodup (nodup_keys _)
      (List.nodup_cons.mpr ⟨hgone, nodup_keys _⟩)).mpr fun q => ?_
    rw [mem_keys_iff, List.mem_cons, mem_keys_iff, contains_erase]
    by_cases hq : q = k
    · simp [hq, h]
    · simp [hq]
  rw [size_eq_length_keys, size_eq_length_keys, hperm.length_eq, List.length_cons]

/-! ## Pairs stored one by one -/

/-- What is found after the pairs of a list with different keys were stored one by one. -/
theorem get?_foldl_insert {entries : List (κ × α)} (hnodup : (entries.map Prod.fst).Nodup)
    (d : Dict κ α) (k : κ) (a : α) :
    (entries.foldl (fun d entry => d.insert entry.1 entry.2) d).get? k = some a ↔
      (k, a) ∈ entries ∨ (k ∉ entries.map Prod.fst ∧ d.get? k = some a) := by
  induction entries generalizing d with
  | nil => simp
  | cons entry rest ih =>
    obtain ⟨k', a'⟩ := entry
    rw [List.map_cons, List.nodup_cons] at hnodup
    rw [List.foldl_cons, ih hnodup.2, get?_insert]
    by_cases hk : k = k'
    · subst hk
      have habsent : ∀ b, (k, b) ∉ rest := fun b hmem =>
        hnodup.1 (List.mem_map.mpr ⟨_, hmem, rfl⟩)
      simp [hnodup.1, habsent, eq_comm]
    · simp [hk]

/-- A dictionary is made of its pairs in any order. -/
theorem ofList_of_perm {d : Dict κ α} {entries : List (κ × α)} (h : entries.Perm d.toList) :
    ofList entries = d := by
  have hnodup : (entries.map Prod.fst).Nodup :=
    (h.map Prod.fst).nodup_iff.mpr d.sorted.nodup_keys
  refine ext_get? fun k => ?_
  ext a
  rw [ofList, get?_foldl_insert hnodup, h.mem_iff, mem_toList_iff]
  simp

/-- The entries of a dictionary made of pairs with different keys are these pairs. -/
theorem toList_ofList_perm {entries : List (κ × α)} (hnodup : (entries.map Prod.fst).Nodup) :
    (ofList entries).toList.Perm entries := by
  refine (List.perm_ext_iff_of_nodup ?_ (List.Nodup.of_map _ hnodup)).mpr fun (k, a) => ?_
  · exact List.Nodup.of_map _ (ofList entries).sorted.nodup_keys
  · rw [mem_toList_iff, ofList, get?_foldl_insert hnodup]
    simp

/-- Pairs are stored one by one, each under a new key, exactly if their keys differ from one another
and from those that are there. -/
theorem foldlM_insert_eq_ok_iff {ε : Type} (refuse : κ → ε) (entries : List (κ × α))
    (d d' : Dict κ α) :
    entries.foldlM (fun (d : Dict κ α) entry =>
        if d.contains entry.1 then .error (refuse entry.1)
        else (.ok (d.insert entry.1 entry.2) : Except ε _)) d = .ok d' ↔
      ((entries.map Prod.fst).Nodup ∧ ∀ k ∈ entries.map Prod.fst, d.contains k = false) ∧
        d' = entries.foldl (fun d entry => d.insert entry.1 entry.2) d := by
  induction entries generalizing d with
  | nil =>
    constructor
    · intro h
      cases h
      exact ⟨⟨List.nodup_nil, nofun⟩, rfl⟩
    · rintro ⟨-, rfl⟩
      rfl
  | cons entry rest ih =>
    obtain ⟨k, a⟩ := entry
    have hinsert : ∀ q, (d.insert k a).contains q = false ↔ q ≠ k ∧ d.contains q = false := by
      intro q
      rw [← Bool.not_eq_true, contains_insert, not_or, Bool.not_eq_true]
    rw [List.foldlM_cons, List.map_cons, List.nodup_cons, List.forall_mem_cons, List.foldl_cons]
    cases hk : d.contains k with
    | true =>
      constructor
      · intro h
        cases h
      · rintro ⟨⟨-, habsent, -⟩, -⟩
        cases habsent
    | false =>
      refine (ih (d.insert k a)).trans (and_congr_left fun _ => ?_)
      simp only [hinsert]
      constructor
      · rintro ⟨hnodup, hnew⟩
        exact ⟨⟨fun hmem => (hnew k hmem).1 rfl, hnodup⟩, trivial, fun q hq => (hnew q hq).2⟩
      · rintro ⟨⟨hk, hnodup⟩, -, hnew⟩
        refine ⟨hnodup, fun q hq => ⟨?_, hnew q hq⟩⟩
        rintro rfl
        exact hk hq

/-! ## Values mapped one by one -/

variable {β : Type}

/-- A change of all values commutes with an insertion. -/
theorem mapValues_insert (f : κ → α → β) (d : Dict κ α) (k : κ) (a : α) :
    (d.insert k a).mapValues f = (d.mapValues f).insert k (f k a) := by
  refine ext_get? fun q => ?_
  rw [get?_mapValues, get?_insert, get?_insert, get?_mapValues]
  by_cases hq : q = k
  · rw [if_pos hq, if_pos hq, hq]
    rfl
  · rw [if_neg hq, if_neg hq]

/-- A change of all values commutes with an erasure. -/
theorem mapValues_erase (f : κ → α → β) (d : Dict κ α) (k : κ) :
    (d.erase k).mapValues f = (d.mapValues f).erase k := by
  refine ext_get? fun q => ?_
  rw [get?_mapValues, get?_erase, get?_erase, get?_mapValues]
  by_cases hq : q = k
  · rw [if_pos hq, if_pos hq]
    rfl
  · rw [if_neg hq, if_neg hq]

omit [DecidableEq κ] in
/-- A change of all values leaves the number of entries. -/
theorem size_mapValues (f : κ → α → β) (d : Dict κ α) : (d.mapValues f).size = d.size := by
  unfold size mapValues
  rw [List.length_map]

/-- A change of all values leaves the keys. -/
theorem contains_mapValues (f : κ → α → β) (d : Dict κ α) (k : κ) :
    (d.mapValues f).contains k = d.contains k := by
  unfold contains
  rw [get?_mapValues, Option.isSome_map]

end Dict

end GuardedThings
