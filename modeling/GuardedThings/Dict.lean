/-!
# Dictionaries sorted by key

`Assoc` holds the operations on lists of pairs that keep them sorted by key:
one pass for insertion, replacement on a hit. `Dict` bundles such a list with
the proof that its keys ascend, so two dictionaries with the same lookups are
equal (`Dict.ext_get?`), and nothing depends on the order of insertion.

Keys are ordered by the list of names they stand for, name by name, and names
by their characters. A plain string is its own single name; a resource key is
its type followed by the segments of its path.
-/

set_option autoImplicit false

namespace GuardedThings

/-- A type whose values are told apart and ordered by a list of names. -/
class Key (κ : Type) where
  /-- The names a key stands for, in the order in which they are compared. -/
  names : κ → List String
  /-- Keys with the same names are the same. -/
  names_injective : ∀ {a b : κ}, names a = names b → a = b

instance : Key String where
  names s := [s]
  names_injective h := by simpa using h

namespace Key

variable {κ : Type} [Key κ]

/-- Key `a` comes before key `b`. -/
def Before (a b : κ) : Prop := names a < names b

instance (a b : κ) : Decidable (Before a b) := inferInstanceAs (Decidable (names a < names b))

theorem Before.irrefl (a : κ) : ¬ Before a a := Std.lt_irrefl

/-- The order of keys is transitive. -/
theorem Before.trans {a b c : κ} (h : Before a b) (h' : Before b c) : Before a c :=
  Std.lt_trans h h'

/-- A key that comes before another differs from it. -/
theorem Before.ne {a b : κ} (h : Before a b) : a ≠ b := by
  rintro rfl
  exact Before.irrefl a h

/-- Of two keys only one comes before the other. -/
theorem Before.asymm {a b : κ} (h : Before a b) : ¬ Before b a :=
  fun h' => Before.irrefl a (h.trans h')

/-- Of two different keys one comes before the other. -/
theorem before_or_after {a b : κ} (h : a ≠ b) : Before a b ∨ Before b a := by
  rcases Std.lt_trichotomy (names a) (names b) with h' | h' | h'
  · exact .inl h'
  · exact absurd (names_injective h') h
  · exact .inr h'

end Key

namespace Assoc

variable {κ α β : Type}

/-- The first value stored under key `k`. -/
def get? [DecidableEq κ] (k : κ) : List (κ × α) → Option α
  | [] => none
  | (k', a) :: rest => if k' = k then some a else get? k rest

/-- Stores `a` under `k`: before the first greater key, or in place of an equal one. -/
def insert [Key κ] [DecidableEq κ] (k : κ) (a : α) : List (κ × α) → List (κ × α)
  | [] => [(k, a)]
  | (k', a') :: rest =>
    if Key.Before k k' then (k, a) :: (k', a') :: rest
    else if k' = k then (k, a) :: rest
    else (k', a') :: insert k a rest

/-- Drops every pair with key `k`. -/
def erase [DecidableEq κ] (k : κ) (entries : List (κ × α)) : List (κ × α) :=
  entries.filter (fun entry => entry.1 ≠ k)

/-- The keys of the list strictly ascend. -/
def Sorted [Key κ] (entries : List (κ × α)) : Prop :=
  entries.Pairwise (fun a b => Key.Before a.1 b.1)

section Lookup

variable [DecidableEq κ]

@[simp] theorem get?_nil (k : κ) : get? k ([] : List (κ × α)) = none := rfl

/-- A look-up tries the entry in front and goes on with the rest. -/
theorem get?_cons (k k' : κ) (a : α) (rest : List (κ × α)) :
    get? k ((k', a) :: rest) = if k' = k then some a else get? k rest := rfl

@[simp] theorem get?_insert_self [Key κ] (k : κ) (a : α) (entries : List (κ × α)) :
    get? k (insert k a entries) = some a := by
  induction entries with
  | nil => simp [insert, get?_cons]
  | cons entry rest ih =>
    obtain ⟨k', a'⟩ := entry
    by_cases hlt : Key.Before k k'
    · simp [insert, hlt, get?_cons]
    · by_cases heq : k' = k
      · subst heq
        simp [insert, hlt, get?_cons]
      · simp [insert, hlt, heq, get?_cons, ih]

/-- Inserting at one key leaves what is found at another. -/
theorem get?_insert_of_ne [Key κ] {k q : κ} (h : q ≠ k) (a : α) (entries : List (κ × α)) :
    get? q (insert k a entries) = get? q entries := by
  have hk : k ≠ q := fun e => h e.symm
  induction entries with
  | nil => simp [insert, get?_cons, hk]
  | cons entry rest ih =>
    obtain ⟨k', a'⟩ := entry
    by_cases hlt : Key.Before k k'
    · simp [insert, hlt, get?_cons, hk]
    · by_cases heq : k' = k
      · subst heq
        simp [insert, hlt, get?_cons, hk]
      · simp [insert, hlt, heq, get?_cons, ih]

@[simp] theorem get?_erase_self (k : κ) (entries : List (κ × α)) :
    get? k (erase k entries) = none := by
  induction entries with
  | nil => rfl
  | cons entry rest ih =>
    obtain ⟨k', a'⟩ := entry
    by_cases heq : k' = k
    · simpa [erase, heq] using ih
    · simpa [erase, heq, get?_cons] using ih

/-- Erasing one key leaves what is found at another. -/
theorem get?_erase_of_ne {k q : κ} (h : q ≠ k) (entries : List (κ × α)) :
    get? q (erase k entries) = get? q entries := by
  induction entries with
  | nil => rfl
  | cons entry rest ih =>
    obtain ⟨k', a'⟩ := entry
    by_cases heq : k' = k
    · have hk : k ≠ q := fun e => h e.symm
      simpa [erase, heq, get?_cons, hk] using ih
    · by_cases hq : k' = q
      · simp [erase, get?_cons, hq, h]
      · simpa [erase, heq, get?_cons, hq] using ih

/-- Nothing is found at a key that no entry has. -/
theorem get?_eq_none_of_forall {k : κ} {entries : List (κ × α)}
    (h : ∀ entry ∈ entries, entry.1 ≠ k) : get? k entries = none := by
  induction entries with
  | nil => rfl
  | cons entry rest ih =>
    obtain ⟨k', a'⟩ := entry
    have hne : k' ≠ k := h (k', a') (by simp)
    simp only [get?_cons, hne, if_false]
    exact ih fun e he => h e (by simp [he])

/-- What is found at a key stands in an entry with this key. -/
theorem mem_of_get? {k : κ} {a : α} {entries : List (κ × α)} (h : get? k entries = some a) :
    (k, a) ∈ entries := by
  induction entries with
  | nil => simp at h
  | cons entry rest ih =>
    obtain ⟨k', a'⟩ := entry
    by_cases heq : k' = k
    · simp only [get?_cons, heq, if_true, Option.some.injEq] at h
      simp [heq, h]
    · simp only [get?_cons, heq, if_false] at h
      exact List.mem_cons_of_mem _ (ih h)

end Lookup

section Order

variable [Key κ]

theorem sorted_nil : Sorted ([] : List (κ × α)) := List.Pairwise.nil

/-- Entries ascend iff the rest ascends and starts behind the one in front. -/
theorem sorted_cons {entry : κ × α} {rest : List (κ × α)} :
    Sorted (entry :: rest) ↔ (∀ e ∈ rest, Key.Before entry.1 e.1) ∧ Sorted rest :=
  List.pairwise_cons

/-- Leaving entries out keeps the order. -/
theorem Sorted.filter (p : κ × α → Bool) {entries : List (κ × α)} (h : Sorted entries) :
    Sorted (entries.filter p) := List.Pairwise.filter p h

theorem Sorted.erase [DecidableEq κ] (k : κ) {entries : List (κ × α)} (h : Sorted entries) :
    Sorted (Assoc.erase k entries) := h.filter _

/-- New values at the same keys keep the order. -/
theorem Sorted.mapValues (f : κ → α → β) {entries : List (κ × α)} (h : Sorted entries) :
    Sorted (entries.map fun entry => (entry.1, f entry.1 entry.2)) := by
  unfold Sorted
  rw [List.pairwise_map]
  exact h

/-- After an insertion there is the inserted entry and none that was not there before. -/
theorem mem_insert [DecidableEq κ] {k : κ} {a : α} {e : κ × α} {entries : List (κ × α)}
    (h : e ∈ insert k a entries) : e = (k, a) ∨ e ∈ entries := by
  induction entries with
  | nil => simpa [insert] using h
  | cons entry rest ih =>
    obtain ⟨k', a'⟩ := entry
    by_cases hlt : Key.Before k k'
    · simpa [insert, hlt] using h
    · by_cases heq : k' = k
      · subst heq
        simp only [insert, hlt, if_false, if_true, List.mem_cons] at h
        rcases h with h | h
        · exact .inl h
        · exact .inr (List.mem_cons_of_mem _ h)
      · simp only [insert, hlt, heq, if_false, List.mem_cons] at h
        rcases h with h | h
        · exact .inr (by simp [h])
        · rcases ih h with h | h
          · exact .inl h
          · exact .inr (List.mem_cons_of_mem _ h)

/-- An insertion puts its entry where the order wants it. -/
theorem Sorted.insert [DecidableEq κ] (k : κ) (a : α) {entries : List (κ × α)}
    (h : Sorted entries) : Sorted (Assoc.insert k a entries) := by
  induction entries with
  | nil => exact sorted_cons.2 ⟨by simp, sorted_nil⟩
  | cons entry rest ih =>
    obtain ⟨k', a'⟩ := entry
    obtain ⟨hall, hrest⟩ := sorted_cons.1 h
    by_cases hlt : Key.Before k k'
    · simp only [Assoc.insert, hlt, if_true]
      refine sorted_cons.2 ⟨fun e he => ?_, h⟩
      rcases List.mem_cons.1 he with rfl | he
      · exact hlt
      · exact hlt.trans (hall e he)
    · by_cases heq : k' = k
      · subst heq
        simp only [Assoc.insert, hlt, if_false, if_true]
        exact sorted_cons.2 ⟨hall, hrest⟩
      · simp only [Assoc.insert, hlt, heq, if_false]
        refine sorted_cons.2 ⟨fun e he => ?_, ih hrest⟩
        rcases mem_insert he with rfl | he
        · rcases Key.before_or_after heq with h' | h'
          · exact h'
          · exact absurd h' hlt
        · exact hall e he

/-- In ascending entries the value of an entry is found at its key. -/
theorem get?_of_mem [DecidableEq κ] {k : κ} {a : α} {entries : List (κ × α)}
    (h : Sorted entries) (hm : (k, a) ∈ entries) : get? k entries = some a := by
  induction entries with
  | nil => simp at hm
  | cons entry rest ih =>
    obtain ⟨k', a'⟩ := entry
    obtain ⟨hall, hrest⟩ := sorted_cons.1 h
    rcases List.mem_cons.1 hm with heq | hm
    · simp only [Prod.mk.injEq] at heq
      simp [get?_cons, heq]
    · have hne : k' ≠ k := (hall (k, a) hm).ne
      simp [get?_cons, hne, ih hrest hm]

/-- Sorted lists with the same lookups are equal. -/
theorem Sorted.ext [DecidableEq κ] {left right : List (κ × α)} (hl : Sorted left)
    (hr : Sorted right) (h : ∀ k, get? k left = get? k right) : left = right := by
  induction left generalizing right with
  | nil =>
    cases right with
    | nil => rfl
    | cons entry rest =>
      obtain ⟨k, a⟩ := entry
      have := h k
      simp [get?_cons] at this
  | cons entry rest ih =>
    obtain ⟨k, a⟩ := entry
    obtain ⟨hall, hrest⟩ := sorted_cons.1 hl
    cases right with
    | nil =>
      have := h k
      simp [get?_cons] at this
    | cons entry' rest' =>
      obtain ⟨k', a'⟩ := entry'
      obtain ⟨hall', hrest'⟩ := sorted_cons.1 hr
      -- Each first key is found on the other side too, where nothing stands before the first.
      have hk : k = k' := by
        by_cases heq : k = k'
        · exact heq
        · exfalso
          have hleft : (k', a') ∈ (k, a) :: rest :=
            mem_of_get? ((h k').trans (by simp [get?_cons]))
          have hright : (k, a) ∈ (k', a') :: rest' :=
            mem_of_get? ((h k).symm.trans (by simp [get?_cons]))
          have h1 : Key.Before k k' := by
            rcases List.mem_cons.1 hleft with e | hm
            · exact absurd (congrArg Prod.fst e).symm heq
            · exact hall _ hm
          have h2 : Key.Before k' k := by
            rcases List.mem_cons.1 hright with e | hm
            · exact absurd (congrArg Prod.fst e) heq
            · exact hall' _ hm
          exact h1.asymm h2
      subst hk
      have ha : a = a' := by
        have := h k
        simpa [get?_cons] using this
      subst ha
      have : rest = rest' := by
        refine ih hrest hrest' fun q => ?_
        by_cases hq : k = q
        · subst hq
          rw [get?_eq_none_of_forall fun e he => (hall e he).ne.symm,
            get?_eq_none_of_forall fun e he => (hall' e he).ne.symm]
        · have := h q
          simpa [get?_cons, hq] using this
      rw [this]

end Order

end Assoc

/-- A finite map from keys to values, listed in ascending order of the keys. -/
structure Dict (κ α : Type) [Key κ] where
  /-- The pairs of the dictionary. -/
  toList : List (κ × α)
  /-- The keys strictly ascend. -/
  sorted : Assoc.Sorted toList
deriving DecidableEq

namespace Dict

variable {κ α β : Type} [Key κ]

instance : Inhabited (Dict κ α) := ⟨⟨[], Assoc.sorted_nil⟩⟩

/-- The dictionary without entries. -/
def empty : Dict κ α := ⟨[], Assoc.sorted_nil⟩

/-- The keys, ascending. -/
def keys (d : Dict κ α) : List κ := d.toList.map (·.1)

/-- The values, in the order of their keys. -/
def values (d : Dict κ α) : List α := d.toList.map (·.2)

/-- The number of entries. -/
def size (d : Dict κ α) : Nat := d.toList.length

/-- Whether there are no entries. -/
def isEmpty (d : Dict κ α) : Bool := d.toList.isEmpty

/-- Applies `f` to every value. -/
def mapValues (f : κ → α → β) (d : Dict κ α) : Dict κ β :=
  ⟨d.toList.map fun entry => (entry.1, f entry.1 entry.2), d.sorted.mapValues f⟩

/-- The entries that satisfy `p`. -/
def filter (p : κ → α → Bool) (d : Dict κ α) : Dict κ α :=
  ⟨d.toList.filter fun entry => p entry.1 entry.2, d.sorted.filter _⟩

variable [DecidableEq κ]

/-- The value stored under a key. -/
def get? (d : Dict κ α) (k : κ) : Option α := Assoc.get? k d.toList

/-- Whether a value is stored under the key. -/
def contains (d : Dict κ α) (k : κ) : Bool := (d.get? k).isSome

/-- The dictionary with `a` stored under `k`. -/
def insert (d : Dict κ α) (k : κ) (a : α) : Dict κ α :=
  ⟨Assoc.insert k a d.toList, d.sorted.insert k a⟩

/-- The dictionary without key `k`. -/
def erase (d : Dict κ α) (k : κ) : Dict κ α :=
  ⟨Assoc.erase k d.toList, d.sorted.erase k⟩

/-- The dictionary of the given pairs; of several values for one key the last is stored. -/
def ofList (entries : List (κ × α)) : Dict κ α :=
  entries.foldl (fun d entry => d.insert entry.1 entry.2) empty

/-- Applies `f` to every value and stops at the first failure. -/
def mapValuesM {ε : Type} (f : κ → α → Except ε β) (d : Dict κ α) : Except ε (Dict κ β) := do
  return ofList (← d.toList.mapM fun entry => do return (entry.1, ← f entry.1 entry.2))

/-- Dictionaries with the same lookups are equal. -/
theorem ext_get? {d e : Dict κ α} (h : ∀ k, d.get? k = e.get? k) : d = e := by
  obtain ⟨l, hl⟩ := d
  obtain ⟨r, hr⟩ := e
  have : l = r := hl.ext hr h
  subst this
  rfl

@[simp] theorem get?_empty (k : κ) : (empty : Dict κ α).get? k = none := rfl

@[simp] theorem get?_insert_self (d : Dict κ α) (k : κ) (a : α) :
    (d.insert k a).get? k = some a := Assoc.get?_insert_self k a d.toList

/-- Inserting at one key leaves what is found at another. -/
theorem get?_insert_of_ne (d : Dict κ α) {k q : κ} (h : q ≠ k) (a : α) :
    (d.insert k a).get? q = d.get? q := Assoc.get?_insert_of_ne h a d.toList

/-- What an insertion puts at its key is found there, and at other keys what was there before. -/
theorem get?_insert (d : Dict κ α) (k q : κ) (a : α) :
    (d.insert k a).get? q = if q = k then some a else d.get? q := by
  by_cases h : q = k
  · simp [h]
  · simp [h, get?_insert_of_ne]

@[simp] theorem get?_erase_self (d : Dict κ α) (k : κ) : (d.erase k).get? k = none :=
  Assoc.get?_erase_self k d.toList

/-- Erasing one key leaves what is found at another. -/
theorem get?_erase_of_ne (d : Dict κ α) {k q : κ} (h : q ≠ k) :
    (d.erase k).get? q = d.get? q := Assoc.get?_erase_of_ne h d.toList

/-- Nothing is found at an erased key, and at other keys what was there before. -/
theorem get?_erase (d : Dict κ α) (k q : κ) :
    (d.erase k).get? q = if q = k then none else d.get? q := by
  by_cases h : q = k
  · simp [h]
  · simp [h, get?_erase_of_ne]

/-- The entries of a dictionary are the keys with what is found at them. -/
theorem mem_toList_iff (d : Dict κ α) (k : κ) (a : α) :
    (k, a) ∈ d.toList ↔ d.get? k = some a :=
  ⟨Assoc.get?_of_mem d.sorted, Assoc.mem_of_get?⟩

/-- A filter acts on what is found at each key. -/
theorem get?_filter (p : κ → α → Bool) (d : Dict κ α) (k : κ) :
    (d.filter p).get? k = (d.get? k).filter (p k) := by
  ext a
  rw [Option.filter_eq_some_iff, ← mem_toList_iff, ← mem_toList_iff]
  exact List.mem_filter

/-- A change of all values acts on what is found at each key. -/
theorem get?_mapValues (f : κ → α → β) (d : Dict κ α) (k : κ) :
    (d.mapValues f).get? k = (d.get? k).map (f k) := by
  ext b
  rw [Option.map_eq_some_iff, ← mem_toList_iff]
  simp only [← mem_toList_iff]
  constructor
  · intro h
    obtain ⟨⟨k', a⟩, hmem, heq⟩ := List.mem_map.1 h
    cases heq
    exact ⟨a, hmem, rfl⟩
  · rintro ⟨a, hmem, rfl⟩
    exact List.mem_map.2 ⟨(k, a), hmem, rfl⟩

end Dict

end GuardedThings
