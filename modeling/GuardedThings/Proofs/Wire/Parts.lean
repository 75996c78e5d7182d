import GuardedThings.Proofs.Wire.Decoded

/-!
# Where the fields of a record come from

A record takes each field from one place: from the member of an object with its
name or from an array at its position (`Json.field?`). `Fields.Picks` says how what
is decoded depends on what is there, and is proved piecewise along the combinators,
as `Fields.Ensures` is. A field is taken at most once, so it does not matter which
of several members with its name is looked at.
-/

set_option autoImplicit false

namespace GuardedThings

/-- What stands for a field of a record: the member of an object with its name, or the item of an
array at its position. -/
def Json.field? (name : String) (position : Nat) : Json → Option Json
  | .object members => Assoc.get? name members
  | .array items => items[position]?
  | _ => none

namespace Fields

variable {α β : Type}

/-- The description has `count` fields, none of them of the given name. -/
structure Avoids (f : Fields Json α) (name : String) (count : Nat) : Prop where
  members : ∀ state value, f.take state name value = none
  items : ∀ items a rest, f.listed true items = .ok (a, rest) → rest = items.drop count

/-- What is decoded is related to what stands for the field. Along the members of an object this is
kept as a relation between the member of that name, if it was met, and the fields decoded so far. -/
structure Picks (f : Fields Json α) (name : String) (position : Nat)
    (R : Option Json → α → Prop) : Prop where
  members : ∃ kept : Option Json → f.State → Prop, kept none f.start ∧
    (∀ found state value, kept found state → f.take state name value ≠ none) ∧
    (∀ found state key value next, kept found state → f.take state key value = some (.ok next) →
      if key = name then found = none ∧ kept (some value) next else kept found next) ∧
    ∀ found state a, kept found state → f.finish state = .ok a → R found a
  items : ∀ items a rest, f.listed true items = .ok (a, rest) → R items[position]? a

section Picks

variable {f : Fields Json α} {g : Fields Json β} {name : String} {position : Nat}

/-- A field of another name is one field that avoids this name. -/
theorem avoids_field {other : String} (h : other ≠ name) (absent tooShort : Except Mismatch α)
    (decode : Decoder Json α) : (field other absent tooShort decode).Avoids name 1 where
  members state value := take_field_of_ne _ _ _ _ h.symm state value
  items items a rest hlisted := by
    cases items with
    | nil =>
      obtain ⟨b, -, heq⟩ := (bind_eq_ok_iff _ _ _).mp hlisted
      cases heq
      rfl
    | cons value more =>
      obtain ⟨b, -, heq⟩ := (bind_eq_ok_iff _ _ _).mp hlisted
      cases heq
      rfl

/-- Fields that avoid a name avoid it together, and their numbers add up. -/
theorem Avoids.and {count count' : Nat} (hf : f.Avoids name count) (hg : g.Avoids name count') :
    (f.and g).Avoids name (count + count') where
  members := by
    rintro ⟨s, t⟩ value
    rw [take_and_of_none (hf.members s value), hg.members t value]
    rfl
  items := by
    rintro items ⟨a, b⟩ rest h
    obtain ⟨⟨a', more⟩, ha, h⟩ := (bind_eq_ok_iff _ _ _).mp h
    obtain ⟨⟨b', rest'⟩, hb, heq⟩ := (bind_eq_ok_iff _ _ _).mp h
    cases heq
    rw [hg.items more b rest hb, hf.items items a more ha, List.drop_drop]

/-- What is made of fields avoids the names that they avoid. -/
theorem Avoids.map {count : Nat} (hf : f.Avoids name count) (make : α → β) :
    (f.map make).Avoids name count where
  members := hf.members
  items := by
    intro items b rest h
    obtain ⟨⟨a, _⟩, ha, heq⟩ := (bind_eq_ok_iff _ _ _).mp h
    cases heq
    exact hf.items items a rest ha

/-- A field with a default is decoded from what stands for it, and has the default if nothing
does. -/
theorem picks_defaulted (name : String) (default : α) (decode : Decoder Json α) :
    (defaulted name default decode).Picks name 0 fun found a =>
      found.elim (a = default) fun value => decode value = .ok a where
  members := by
    -- The state holds what the member that was met is decoded to, and nothing before one was met.
    refine ⟨fun found state => found.elim (state = none) fun value =>
      ∃ a, state = some a ∧ decode value = .ok a, rfl, ?_, ?_, ?_⟩
    · intro found state value _ htake
      have htake : (if name = name then some _ else none) = none := htake
      rw [if_pos rfl] at htake
      cases htake
    · intro found state key value next hkept htake
      obtain ⟨hkey, hstate, a, ha, heq⟩ := exists_of_take_field htake
      rw [if_pos hkey]
      cases found with
      | none => exact ⟨rfl, a, heq, ha⟩
      | some _ =>
        obtain ⟨b, hb, -⟩ := hkept
        rw [hstate] at hb
        cases hb
    · intro found state a hkept hfinish
      cases found with
      | none =>
        cases (hkept : state = none)
        cases hfinish
        rfl
      | some value =>
        obtain ⟨b, rfl, hb⟩ := hkept
        cases hfinish
        exact hb
  items := by
    intro items a rest h
    cases items with
    | nil =>
      obtain ⟨b, hb, heq⟩ := (bind_eq_ok_iff _ _ _).mp h
      cases hb
      cases heq
      rfl
    | cons value more =>
      obtain ⟨b, hb, heq⟩ := (bind_eq_ok_iff _ _ _).mp h
      cases heq
      exact hb

variable {R : Option Json → α → Prop} {S : Option Json → β → Prop}

/-- What the first description picks, both pick. -/
theorem Picks.and_left (hf : f.Picks name position R) (g : Fields Json β) :
    (f.and g).Picks name position fun found ab => R found ab.1 where
  members := by
    obtain ⟨kept, hstart, hmet, htake, hfinish⟩ := hf.members
    refine ⟨fun found state => kept found state.1, hstart, ?_, ?_, ?_⟩
    · rintro found ⟨s, t⟩ value hkept hnone
      cases hs : f.take s name value with
      | none => exact hmet found s value hkept hs
      | some result =>
        simp only [Fields.and, hs] at hnone
        cases hnone
    · rintro found ⟨s, t⟩ key value next hkept hnext
      rcases take_and_cases hnext with ⟨s', hs, rfl⟩ | ⟨hs, t', -, rfl⟩
      · exact htake found s key value s' hkept hs
      · have hkey : key ≠ name := by
          rintro rfl
          exact hmet found s value hkept hs
        rw [if_neg hkey]
        exact hkept
    · rintro found ⟨s, t⟩ ⟨a, b⟩ hkept h
      obtain ⟨a', ha, h⟩ := (bind_eq_ok_iff _ _ _).mp h
      obtain ⟨b', -, heq⟩ := (bind_eq_ok_iff _ _ _).mp h
      cases heq
      exact hfinish found s a hkept ha
  items := by
    rintro items ⟨a, b⟩ rest h
    obtain ⟨⟨a', more⟩, ha, h⟩ := (bind_eq_ok_iff _ _ _).mp h
    obtain ⟨⟨b', rest'⟩, -, heq⟩ := (bind_eq_ok_iff _ _ _).mp h
    cases heq
    exact hf.items items a more ha

/-- What the second description picks, both pick, if the first one leaves it alone. -/
theorem Picks.and_right {count : Nat} (hg : g.Picks name position S) (hf : f.Avoids name count) :
    (f.and g).Picks name (count + position) fun found ab => S found ab.2 where
  members := by
    obtain ⟨kept, hstart, hmet, htake, hfinish⟩ := hg.members
    refine ⟨fun found state => kept found state.2, hstart, ?_, ?_, ?_⟩
    · rintro found ⟨s, t⟩ value hkept hnone
      rw [take_and_of_none (hf.members s value)] at hnone
      exact hmet found t value hkept (Option.map_eq_none_iff.mp hnone)
    · rintro found ⟨s, t⟩ key value next hkept hnext
      rcases take_and_cases hnext with ⟨s', hs, rfl⟩ | ⟨-, t', ht, rfl⟩
      · have hkey : key ≠ name := by
          rintro rfl
          rw [hf.members s value] at hs
          cases hs
        rw [if_neg hkey]
        exact hkept
      · exact htake found t key value t' hkept ht
    · rintro found ⟨s, t⟩ ⟨a, b⟩ hkept h
      obtain ⟨a', -, h⟩ := (bind_eq_ok_iff _ _ _).mp h
      obtain ⟨b', hb, heq⟩ := (bind_eq_ok_iff _ _ _).mp h
      cases heq
      exact hfinish found t b hkept hb
  items := by
    rintro items ⟨a, b⟩ rest h
    obtain ⟨⟨a', more⟩, ha, h⟩ := (bind_eq_ok_iff _ _ _).mp h
    obtain ⟨⟨b', rest'⟩, hb, heq⟩ := (bind_eq_ok_iff _ _ _).mp h
    cases heq
    rw [← List.getElem?_drop, ← hf.items items a more ha]
    exact hg.items more b rest hb

/-- What is made of fields picks the members that they pick. -/
theorem Picks.map {make : α → β} (hf : f.Picks name position fun found a => S found (make a)) :
    (f.map make).Picks name position S where
  members := by
    obtain ⟨kept, hstart, hmet, htake, hfinish⟩ := hf.members
    refine ⟨kept, hstart, hmet, htake, fun found state b hkept h => ?_⟩
    obtain ⟨a, ha, heq⟩ := (bind_eq_ok_iff _ _ _).mp h
    cases heq
    exact hfinish found state a hkept ha
  items := by
    intro items b rest h
    obtain ⟨⟨a, _⟩, ha, heq⟩ := (bind_eq_ok_iff _ _ _).mp h
    cases heq
    exact hf.items items a rest ha

/-- The member of the name is the first one that has it: a second one would not be taken. -/
theorem Picks.of_decodeMembers {kept : Option Json → f.State → Prop}
    (hmet : ∀ found state value, kept found state → f.take state name value ≠ none)
    (htake : ∀ found state key value next, kept found state →
      f.take state key value = some (.ok next) →
        if key = name then found = none ∧ kept (some value) next else kept found next)
    {found : Option Json} {state final : f.State} (hstate : kept found state)
    {members : JsonObject} (h : f.decodeMembers state members = .ok final) :
    kept (found.or (Assoc.get? name members)) final := by
  induction members generalizing found state with
  | nil =>
    cases h
    rw [Assoc.get?_nil, Option.or_none]
    exact hstate
  | cons member rest ih =>
    obtain ⟨key, value⟩ := member
    rw [Assoc.get?_cons]
    cases hresult : f.take state key value with
    | none =>
      have hkey : key ≠ name := by
        rintro rfl
        exact hmet found state value hstate hresult
      rw [decodeMembers_cons_of_pass hresult] at h
      rw [if_neg hkey]
      exact ih hstate h
    | some result =>
      rw [decodeMembers, hresult] at h
      obtain ⟨next, rfl, h⟩ := (bind_eq_ok_iff _ _ _).mp h
      have hnext := htake found state key value next hstate hresult
      by_cases hkey : key = name
      · rw [if_pos hkey] at hnext ⊢
        obtain ⟨rfl, hnext⟩ := hnext
        exact ih hnext h
      · rw [if_neg hkey] at hnext ⊢
        exact ih hnext h

/-- What is decoded, from an object or from an array, is related to what stands for the field. -/
theorem Picks.of_decode (hf : f.Picks name position R) {v : Json} {a : α}
    (h : f.decode v = .ok a) : R (v.field? name position) a := by
  cases v with
  | null | bool _ | integer _ | float _ | string _ => cases h
  | object members =>
    obtain ⟨kept, hstart, hmet, htake, hfinish⟩ := hf.members
    obtain ⟨state, hstate, h⟩ := (bind_eq_ok_iff _ _ _).mp h
    exact hfinish _ state a (of_decodeMembers hmet htake hstart hstate) h
  | array items =>
    obtain ⟨⟨b, rest⟩, hb, h⟩ := (bind_eq_ok_iff _ _ _).mp h
    have h : (if !rest.isEmpty then .error (Decoder.surplus Json .invalidLength)
      else do
        Decoder.requireClosed true
        return b) = Except.ok a := h
    split at h
    · cases h
    · cases h
      exact hf.items items a rest hb

end Picks

end Fields

end GuardedThings
