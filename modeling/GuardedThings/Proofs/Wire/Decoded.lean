import GuardedThings.Proofs.Wire.Records

/-!
# What decoding ensures

A decoder does not give every value of its type: a field that is null counts as
missing, so what is decoded for it is never null. `Fields.Ensures` says that
every record a description decodes has a property, whether it is read from an
object or from an array. Like the reading of written records it is proved
piecewise along the combinators, but for every input.
-/

set_option autoImplicit false

namespace GuardedThings

namespace Fields

variable {σ α β : Type}

/-- A field takes a member of its own name, the first one, and keeps what it is decoded to. -/
theorem exists_of_take_field {name key : String} {absent tooShort : Except Mismatch α}
    {decode : Decoder σ α} {state next : Option α} {value : σ}
    (h : (field name absent tooShort decode).take state key value = some (.ok next)) :
    key = name ∧ state = none ∧ ∃ a, decode value = .ok a ∧ next = some a := by
  obtain ⟨hkey, htaken⟩ := Option.ite_none_right_eq_some.mp h
  cases state with
  | some _ => cases htaken
  | none =>
    cases hvalue : decode value with
    | error mismatch =>
      simp only [hvalue] at htaken
      cases htaken
    | ok a =>
      simp only [hvalue] at htaken
      cases htaken
      exact ⟨hkey, rfl, a, rfl, rfl⟩

/-- Whatever the description decodes has the property. Along the members of an object, this is kept
as a property of the fields decoded so far. -/
structure Ensures (f : Fields σ α) (P : α → Prop) : Prop where
  members : ∃ kept : f.State → Prop, kept f.start ∧
    (∀ state key value next, kept state → f.take state key value = some (.ok next) → kept next) ∧
      ∀ state a, kept state → f.finish state = .ok a → P a
  items : ∀ closed items a rest, f.listed closed items = .ok (a, rest) → P a

section Ensures

variable {f : Fields σ α} {g : Fields σ β} {P : α → Prop} {Q : β → Prop}

/-- A field has a property if all ways to come by its value do: by decoding, and without the
field. -/
theorem ensures_field {name : String} {absent tooShort : Except Mismatch α} {decode : Decoder σ α}
    (habsent : ∀ a, absent = .ok a → P a) (hshort : ∀ a, tooShort = .ok a → P a)
    (hdecode : ∀ s a, decode s = .ok a → P a) : (field name absent tooShort decode).Ensures P where
  members := by
    refine ⟨fun state => ∀ a, state = some a → P a, nofun, ?_, ?_⟩
    · intro state key value next _ htake
      obtain ⟨-, -, a, hvalue, rfl⟩ := exists_of_take_field htake
      rintro _ ⟨⟩
      exact hdecode value a hvalue
    · intro state a hkept hfinish
      cases state with
      | some b =>
        cases hfinish
        exact hkept a rfl
      | none => exact habsent a hfinish
  items := by
    intro closed items a rest h
    cases items with
    | nil =>
      have h : (if closed = true then (do return (← tooShort, [])) else .error .notJson) =
        Except.ok (a, rest) := h
      split at h
      · obtain ⟨b, hb, heq⟩ := (bind_eq_ok_iff _ _ _).mp h
        cases heq
        exact hshort a hb
      · cases h
    | cons value more =>
      obtain ⟨b, hb, heq⟩ := (bind_eq_ok_iff _ _ _).mp h
      cases heq
      exact hdecode value a hb

/-- A field has a property if its default and all decoded values do. -/
theorem ensures_defaulted {name : String} {default : α} {decode : Decoder σ α}
    (hdefault : P default) (hdecode : ∀ s a, decode s = .ok a → P a) :
    (defaulted name default decode).Ensures P := by
  refine ensures_field ?_ ?_ hdecode
  · rintro _ ⟨⟩
    exact hdefault
  · rintro _ ⟨⟩
    exact hdefault

/-- Of any description, nothing is asked. -/
theorem ensures_true (f : Fields σ α) : f.Ensures fun _ => True where
  members := ⟨fun _ => True, trivial, fun _ _ _ _ _ _ => trivial, fun _ _ _ _ => trivial⟩
  items := fun _ _ _ _ _ => trivial

/-- A member is taken by one of two descriptions, by the second only if the first leaves it. -/
theorem take_and_cases {s : f.State} {t : g.State} {key : String} {value : σ}
    {next : (f.and g).State} (h : (f.and g).take (s, t) key value = some (.ok next)) :
    (∃ s', f.take s key value = some (.ok s') ∧ next = (s', t)) ∨
      (f.take s key value = none ∧ ∃ t', g.take t key value = some (.ok t') ∧ next = (s, t')) := by
  cases hfs : f.take s key value with
  | some result =>
    simp only [Fields.and, hfs, Option.some.injEq] at h
    obtain ⟨s', rfl, heq⟩ := (bind_eq_ok_iff _ _ _).mp h
    cases heq
    exact .inl ⟨s', rfl, rfl⟩
  | none =>
    simp only [Fields.and, hfs, Option.map_eq_some_iff] at h
    obtain ⟨result, hgt, h⟩ := h
    obtain ⟨t', rfl, heq⟩ := (bind_eq_ok_iff _ _ _).mp h
    cases heq
    exact .inr ⟨rfl, t', hgt, rfl⟩

/-- Two groups of fields have their properties together. -/
theorem Ensures.and (hf : f.Ensures P) (hg : g.Ensures Q) :
    (f.and g).Ensures fun (a, b) => P a ∧ Q b where
  members := by
    obtain ⟨keptf, hfstart, hftake, hffinish⟩ := hf.members
    obtain ⟨keptg, hgstart, hgtake, hgfinish⟩ := hg.members
    refine ⟨fun (s, t) => keptf s ∧ keptg t, ⟨hfstart, hgstart⟩, ?_, ?_⟩
    · rintro ⟨s, t⟩ key value next ⟨hs, ht⟩ htake
      rcases take_and_cases htake with ⟨s', hfs, rfl⟩ | ⟨-, t', hgt, rfl⟩
      · exact ⟨hftake s key value s' hs hfs, ht⟩
      · exact ⟨hs, hgtake t key value t' ht hgt⟩
    · rintro ⟨s, t⟩ ⟨a, b⟩ ⟨hs, ht⟩ hfinish
      obtain ⟨a', ha, hfinish⟩ := (bind_eq_ok_iff _ _ _).mp hfinish
      obtain ⟨b', hb, heq⟩ := (bind_eq_ok_iff _ _ _).mp hfinish
      cases heq
      exact ⟨hffinish s a hs ha, hgfinish t b ht hb⟩
  items := by
    rintro closed items ⟨a, b⟩ rest h
    obtain ⟨⟨a', more⟩, ha, h⟩ := (bind_eq_ok_iff _ _ _).mp h
    obtain ⟨⟨b', _⟩, hb, heq⟩ := (bind_eq_ok_iff _ _ _).mp h
    cases heq
    exact ⟨hf.items closed items a more ha, hg.items closed more b rest hb⟩

/-- A property of what is made of fields is one of the fields. -/
theorem Ensures.map {make : α → β} (hf : f.Ensures fun a => Q (make a)) : (f.map make).Ensures Q where
  members := by
    obtain ⟨kept, hstart, htake, hfinish⟩ := hf.members
    refine ⟨kept, hstart, htake, fun state b hkept h => ?_⟩
    obtain ⟨a, ha, heq⟩ := (bind_eq_ok_iff _ _ _).mp h
    cases heq
    exact hfinish state a hkept ha
  items := by
    intro closed items b rest h
    obtain ⟨⟨a, _⟩, ha, heq⟩ := (bind_eq_ok_iff _ _ _).mp h
    cases heq
    exact hf.items closed items a rest ha

/-- What follows from a property of fields is one too. -/
theorem Ensures.imp (hf : f.Ensures P) {P' : α → Prop} (h : ∀ a, P a → P' a) : f.Ensures P' where
  members := by
    obtain ⟨kept, hstart, htake, hfinish⟩ := hf.members
    exact ⟨kept, hstart, htake, fun state a hkept ha => h a (hfinish state a hkept ha)⟩
  items := fun closed items a rest ha => h a (hf.items closed items a rest ha)

variable [Source σ]

/-- What every taken member keeps holds after all members. -/
theorem Ensures.of_decodeMembers {kept : f.State → Prop}
    (htake : ∀ state key value next, kept state → f.take state key value = some (.ok next) →
      kept next)
    {state final : f.State} (hstate : kept state) {members : List (String × σ)}
    (h : f.decodeMembers state members = .ok final) : kept final := by
  induction members generalizing state with
  | nil =>
    cases h
    exact hstate
  | cons member rest ih =>
    obtain ⟨key, value⟩ := member
    unfold decodeMembers at h
    cases hresult : f.take state key value with
    | some result =>
      simp only [hresult] at h
      obtain ⟨next, rfl, h⟩ := (bind_eq_ok_iff _ _ _).mp h
      exact ih (htake state key value next hstate hresult) h
    | none =>
      simp only [hresult] at h
      obtain ⟨_, -, h⟩ := (bind_eq_ok_iff _ _ _).mp h
      exact ih hstate h

/-- What is decoded, from an object or from an array, has the property. -/
theorem Ensures.of_decode (hf : f.Ensures P) {s : σ} {a : α} (h : f.decode s = .ok a) : P a := by
  unfold decode at h
  split at h
  · obtain ⟨kept, hstart, htake, hfinish⟩ := hf.members
    obtain ⟨state, hstate, h⟩ := (bind_eq_ok_iff _ _ _).mp h
    obtain ⟨_, -, ha⟩ := (bind_eq_ok_iff _ _ _).mp h
    exact hfinish state a (of_decodeMembers htake hstart hstate) ha
  · obtain ⟨⟨b, rest⟩, hb, h⟩ := (bind_eq_ok_iff _ _ _).mp h
    have h : (if !rest.isEmpty then .error (Decoder.surplus σ .invalidLength)
      else do
        Decoder.requireClosed _
        return b) = Except.ok a := h
    split at h
    · cases h
    · obtain ⟨_, -, heq⟩ := (bind_eq_ok_iff _ _ _).mp h
      cases heq
      exact hf.items _ _ _ _ hb
  · cases h
  · cases h

end Ensures

end Fields

end GuardedThings
