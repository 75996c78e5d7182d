import GuardedThings.Failure

/-!
# Results that may fail

Decoders, rules and replays give a value or the reason why there is none. A
sequence of steps gives a value exactly if each of its steps does
(`bind_eq_ok_iff`), and a list that is mapped step by step gives one value for
each of its elements.
-/

set_option autoImplicit false

namespace GuardedThings

/-- A sequence gives a result iff both of its steps do. -/
theorem bind_eq_ok_iff {ε α β : Type} (x : Except ε α) (f : α → Except ε β) (b : β) :
    (x >>= f) = .ok b ↔ ∃ a, x = .ok a ∧ f a = .ok b := by
  cases x with
  | error failure =>
    constructor
    · intro h
      cases h
    · rintro ⟨a, h, _⟩
      cases h
  | ok a =>
    constructor
    · intro h
      exact ⟨a, rfl, h⟩
    · rintro ⟨a', ha, h⟩
      cases ha
      exact h

/-! ## Lists mapped one by one -/

/-- Reading every written element gives back the list. -/
theorem mapM_map_of_forall {ε α β : Type} {write : α → β} {read : β → Except ε α}
    (h : ∀ a, read (write a) = .ok a) (as : List α) : (as.map write).mapM read = .ok as := by
  induction as with
  | nil => rfl
  | cons a rest ih =>
    rw [List.map_cons, List.mapM_cons, h, ih]
    rfl

section Mapped

variable {ε α β κ : Type} {f : α → Except ε β} {l : List α} {l' : List β}

/-- A list is processed iff its head and its tail are. -/
theorem mapM_cons_eq_ok_iff (a : α) :
    (a :: l).mapM f = .ok l' ↔
      ∃ b rest, f a = .ok b ∧ l.mapM f = .ok rest ∧ l' = b :: rest := by
  rw [List.mapM_cons]
  constructor
  · intro h
    obtain ⟨b, hb, h⟩ := (bind_eq_ok_iff _ _ _).mp h
    obtain ⟨rest, hrest, h⟩ := (bind_eq_ok_iff _ _ _).mp h
    cases h
    exact ⟨b, rest, hb, hrest, rfl⟩
  · rintro ⟨b, rest, hb, hrest, rfl⟩
    refine (bind_eq_ok_iff _ _ _).mpr ⟨b, hb, ?_⟩
    exact (bind_eq_ok_iff _ _ _).mpr ⟨rest, hrest, rfl⟩

/-- What comes out was made of something that went in. -/
theorem exists_of_mem_mapM (h : l.mapM f = .ok l') {b : β} (hb : b ∈ l') :
    ∃ a ∈ l, f a = .ok b := by
  induction l generalizing l' with
  | nil =>
    cases h
    cases hb
  | cons a rest ih =>
    obtain ⟨b', rest', hb', hrest', rfl⟩ := (mapM_cons_eq_ok_iff a).mp h
    rcases List.mem_cons.mp hb with rfl | hb
    · exact ⟨a, List.mem_cons_self, hb'⟩
    · obtain ⟨a', ha', hf⟩ := ih hrest' hb
      exact ⟨a', List.mem_cons_of_mem _ ha', hf⟩

/-- What goes in is made into something that comes out. -/
theorem exists_mem_mapM_of_mem (h : l.mapM f = .ok l') {a : α} (ha : a ∈ l) :
    ∃ b ∈ l', f a = .ok b := by
  induction l generalizing l' with
  | nil => cases ha
  | cons a' rest ih =>
    obtain ⟨b', rest', hb', hrest', rfl⟩ := (mapM_cons_eq_ok_iff a').mp h
    rcases List.mem_cons.mp ha with rfl | ha
    · exact ⟨b', List.mem_cons_self, hb'⟩
    · obtain ⟨b, hb, hf⟩ := ih hrest' ha
      exact ⟨b, List.mem_cons_of_mem _ hb, hf⟩

/-- Mapping succeeds iff every step does. -/
theorem exists_mapM_eq_ok_iff : (∃ l', l.mapM f = .ok l') ↔ ∀ a ∈ l, ∃ b, f a = .ok b := by
  induction l with
  | nil => exact ⟨fun _ => nofun, fun _ => ⟨[], rfl⟩⟩
  | cons a rest ih =>
    rw [List.forall_mem_cons, ← ih]
    constructor
    · rintro ⟨l', h⟩
      obtain ⟨b, rest', hb, hrest, -⟩ := (mapM_cons_eq_ok_iff a).mp h
      exact ⟨⟨b, hb⟩, rest', hrest⟩
    · rintro ⟨⟨b, hb⟩, rest', hrest⟩
      exact ⟨b :: rest', (mapM_cons_eq_ok_iff a).mpr ⟨b, rest', hb, hrest, rfl⟩⟩

/-- Keys that are kept one by one are kept in order. -/
theorem map_mapM {key : α → κ} {key' : β → κ} (hkey : ∀ a b, f a = .ok b → key' b = key a)
    (h : l.mapM f = .ok l') : l'.map key' = l.map key := by
  induction l generalizing l' with
  | nil =>
    cases h
    rfl
  | cons a rest ih =>
    obtain ⟨b, rest', hb, hrest', rfl⟩ := (mapM_cons_eq_ok_iff a).mp h
    rw [List.map_cons, List.map_cons, hkey a b hb, ih hrest']

end Mapped

end GuardedThings
