import GuardedThings.Proofs.Access.LongestPrefix
import GuardedThings.Proofs.Wire.Texts

/-!
# Parts inside parts

Parts of an entity are held by larger parts, up to the whole. A part is inside
another if the way up from it leads there (`Inside`).

Each part has an address, a list of names, and going up takes the last name away
(`Spelled`). So the address of a part begins with that of any part it is inside
(`Spelled.prefix_of_inside`). If no two parts have the same address then nothing
else begins with it (`Spelled.inside_iff`): the way up passes through every
beginning of an address, and each of them is the address of one part only.
-/

set_option autoImplicit false

namespace GuardedThings

variable {π : Type} {holder? : π → Option π} {placed : π → Prop} {names : π → List String}
  {outer inner : π}

/-- The way up from a part leads to the outer part. -/
inductive Inside (holder? : π → Option π) (outer : π) : π → Prop where
  | self : Inside holder? outer outer
  | held {part holder : π} (up : holder? part = some holder)
      (inside : Inside holder? outer holder) : Inside holder? outer part

/-- Addresses that spell the way from the whole to a part: the whole has no name, and every other
part has one name more than the part that holds it. No two of the placed parts have the same
address. -/
structure Spelled (holder? : π → Option π) (placed : π → Prop) (names : π → List String) :
    Prop where
  top : ∀ part, holder? part = none → names part = []
  up : ∀ part holder, holder? part = some holder → ∃ name, names part = names holder ++ [name]
  placed_up : ∀ part holder, holder? part = some holder → placed part → placed holder
  injective : ∀ part part', placed part → placed part' → names part = names part' → part = part'

/-- The parent of a pointer is one name shorter. -/
theorem Pointer.segments_of_parent? {p above : Pointer} (h : p.parent? = some above) :
    ∃ name, p.segments = above.segments ++ [name] := by
  unfold parent? at h
  split at h
  · cases h
  · rename_i hne
    cases h
    exact ⟨p.segments.getLast hne, (List.dropLast_concat_getLast hne).symm⟩

/-- Only the root has no parent. -/
theorem Pointer.segments_of_parent?_none {p : Pointer} (h : p.parent? = none) :
    p.segments = [] := by
  unfold parent? at h
  split at h
  · assumption
  · cases h

namespace Spelled

/-- The address of a part begins with the addresses of the parts it is inside. -/
theorem prefix_of_inside (h : Spelled holder? placed names) (inside : Inside holder? outer inner) :
    names outer <+: names inner := by
  induction inside with
  | self => exact List.prefix_rfl
  | held up _ ih =>
    obtain ⟨name, hnames⟩ := h.up _ _ up
    rw [hnames]
    exact ih.trans (List.prefix_append _ _)

/-- The address of a placed part begins with no other addresses. -/
theorem inside_iff (h : Spelled holder? placed names) (houter : placed outer)
    (hinner : placed inner) : Inside holder? outer inner ↔ names outer <+: names inner := by
  refine ⟨h.prefix_of_inside, fun hbegins => ?_⟩
  -- The address of the inner part gets shorter on the way up, until it is the outer one.
  induction hlength : (names inner).length generalizing inner with
  | zero =>
    have hnil : names inner = [] := List.length_eq_zero_iff.mp hlength
    rw [hnil, List.prefix_nil] at hbegins
    have hsame : outer = inner := h.injective _ _ houter hinner (hbegins.trans hnil.symm)
    rw [hsame]
    exact .self
  | succ n ih =>
    cases hholder : holder? inner with
    | none =>
      rw [h.top inner hholder] at hlength
      cases hlength
    | some holder =>
      obtain ⟨name, hnames⟩ := h.up inner holder hholder
      have hplaced := h.placed_up inner holder hholder hinner
      rw [hnames, List.prefix_concat_iff] at hbegins
      rcases hbegins with heq | hbegins
      · rw [← hnames] at heq
        rw [h.injective _ _ houter hinner heq]
        exact .self
      · rw [hnames, List.length_append, List.length_singleton] at hlength
        exact .held hholder (ih hplaced hbegins (by omega))

end Spelled

/-- What the keys that protect two parts tell about the parts: they are the same, also when printed,
only for the same part, and the first covers the second exactly if the second part is inside the
first. -/
structure Faithful (holder? : π → Option π) (key : π → ResourceKey) (part part' : π) : Prop where
  key_eq_iff : key part = key part' ↔ part = part'
  text_eq_iff : (key part).text = (key part').text ↔ part = part'
  covers_iff : (key part).covers (key part') = true ↔ Inside holder? part part'

namespace Spelled

variable {key : π → ResourceKey} {part part' : π}

/-- Where names spell the parts and the keys follow the names, the key of a part covers those of the
parts inside. -/
theorem covers_of_inside (h : Spelled holder? placed names)
    (htype : ∀ part part', (key part).type = (key part').type)
    (hpath : ∀ part, (key part).path.segments = names part)
    (inside : Inside holder? part part') : (key part).covers (key part') = true := by
  refine (ResourceKey.covers_iff _ _).mpr ⟨htype part part', ?_⟩
  rw [hpath, hpath]
  exact h.prefix_of_inside inside

/-- Keys of placed parts are faithful if their paths spell the way to the parts. -/
theorem faithful (h : Spelled holder? placed names)
    (htype : ∀ part part', (key part).type = (key part').type)
    (hpath : ∀ part, (key part).path.segments = names part)
    (hpart : placed part) (hpart' : placed part') : Faithful holder? key part part' := by
  have hinjective : key part = key part' → part = part' := by
    intro hkey
    apply h.injective _ _ hpart hpart'
    rw [← hpath, ← hpath, hkey]
  refine ⟨⟨hinjective, congrArg key⟩, ⟨?_, ?_⟩, ?_⟩
  · intro htext
    exact hinjective (ResourceKey.text_injective htext)
  · rintro rfl
    rfl
  · rw [ResourceKey.covers_iff, hpath, hpath, ← h.inside_iff hpart hpart']
    exact and_iff_right (htype part part')

end Spelled

end GuardedThings
