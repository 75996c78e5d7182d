import GuardedThings.Dict

/-!
# Sets sorted by key

A `KeySet` is a dictionary without values: its elements ascend, so sets with
the same members are equal (`KeySet.ext_contains`).
-/

set_option autoImplicit false

namespace GuardedThings

/-- A finite set of keys. -/
structure KeySet (κ : Type) [Key κ] where
  /-- The elements, as the keys of a dictionary. -/
  members : Dict κ Unit
deriving DecidableEq

namespace KeySet

variable {κ : Type} [Key κ]

instance : Inhabited (KeySet κ) := ⟨⟨default⟩⟩

/-- The set without elements. -/
def empty : KeySet κ := ⟨Dict.empty⟩

/-- The elements, ascending. -/
def toList (s : KeySet κ) : List κ := s.members.keys

/-- The number of elements. -/
def size (s : KeySet κ) : Nat := s.members.size

/-- Whether there are no elements. -/
def isEmpty (s : KeySet κ) : Bool := s.members.isEmpty

/-- The elements that satisfy `p`. -/
def filter (p : κ → Bool) (s : KeySet κ) : KeySet κ := ⟨s.members.filter fun k _ => p k⟩

variable [DecidableEq κ]

/-- Whether `k` is an element. -/
def contains (s : KeySet κ) (k : κ) : Bool := s.members.contains k

/-- The set with `k` added. -/
def insert (s : KeySet κ) (k : κ) : KeySet κ := ⟨s.members.insert k ()⟩

/-- The set of the listed elements. -/
def ofList (ks : List κ) : KeySet κ := ks.foldl insert empty

/-- The set of a single element. -/
def singleton (k : κ) : KeySet κ := empty.insert k

/-- The elements of either set. -/
def union (s t : KeySet κ) : KeySet κ := t.toList.foldl insert s

/-- Whether every element of `t` is an element of `s`. -/
def containsAll (s t : KeySet κ) : Bool := t.toList.all s.contains

/-- Membership after one insertion. -/
theorem contains_insert (s : KeySet κ) (k q : κ) :
    (s.insert k).contains q = (decide (q = k) || s.contains q) := by
  by_cases h : q = k
  · simp [insert, contains, Dict.contains, h]
  · simp [insert, contains, Dict.contains, Dict.get?_insert, h]

@[simp] theorem contains_singleton (k q : κ) : (singleton k).contains q = decide (q = k) := by
  rw [singleton, contains_insert]
  exact Bool.or_false _

/-- Membership after a list of insertions. -/
theorem contains_foldl_insert (ks : List κ) (s : KeySet κ) (q : κ) :
    (ks.foldl insert s).contains q = (s.contains q || decide (q ∈ ks)) := by
  induction ks generalizing s with
  | nil => simp
  | cons k rest ih =>
    simp only [List.foldl_cons, ih, contains_insert, List.mem_cons]
    by_cases h : q = k <;> by_cases h' : q ∈ rest <;> simp [h, h']

/-- The set of a list contains what the list contains. -/
theorem contains_ofList (ks : List κ) (q : κ) : (ofList ks).contains q = decide (q ∈ ks) := by
  rw [ofList, contains_foldl_insert]
  simp [contains, Dict.contains, empty]

/-- The members of a set are the elements of its list. -/
theorem contains_iff_mem (s : KeySet κ) (q : κ) : s.contains q = true ↔ q ∈ s.toList := by
  rw [contains, Dict.contains, Option.isSome_iff_exists, toList, Dict.keys]
  constructor
  · rintro ⟨a, h⟩
    exact List.mem_map.2 ⟨(q, a), (Dict.mem_toList_iff _ _ _).2 h, rfl⟩
  · intro h
    obtain ⟨⟨k, a⟩, hm, rfl⟩ := List.mem_map.1 h
    exact ⟨a, (Dict.mem_toList_iff _ _ _).1 hm⟩

/-- A set is not empty iff something is an element of it. -/
theorem isEmpty_eq_false_iff (s : KeySet κ) : s.isEmpty = false ↔ ∃ k, s.contains k = true := by
  simp only [contains_iff_mem, toList, Dict.keys, isEmpty, Dict.isEmpty, List.mem_map]
  rw [List.isEmpty_eq_false_iff_exists_mem]
  constructor
  · rintro ⟨entry, h⟩
    exact ⟨entry.1, entry, h, rfl⟩
  · rintro ⟨_, entry, h, _⟩
    exact ⟨entry, h⟩

/-- A union contains what one of the two sets contains. -/
theorem contains_union (s t : KeySet κ) (q : κ) :
    (s.union t).contains q = (s.contains q || t.contains q) := by
  rw [union, contains_foldl_insert, Bool.eq_iff_iff]
  simp [contains_iff_mem]

/-- Sets with the same elements are equal. -/
theorem ext_contains {s t : KeySet κ} (h : ∀ k, s.contains k = t.contains k) : s = t := by
  obtain ⟨d⟩ := s
  obtain ⟨e⟩ := t
  have : d = e := by
    refine Dict.ext_get? fun k => ?_
    have := h k
    simp only [contains, Dict.contains] at this
    cases hd : d.get? k <;> cases he : e.get? k <;> simp_all
  rw [this]

end KeySet

end GuardedThings
