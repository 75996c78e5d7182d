import GuardedThings.Proofs.Json.PathEdits

/-!
# Laws of pointer edits

What setting and removing at pointers does to a document, for documents of every
shape: also where the edited value is missing, where scalars or arrays stand in
the way, and where an object names a member twice.

Writing walks down one name after the other, and on the way it puts back one
member into each object. So a second write at the same path replaces the members
that the first one put back (`Json.setPath_setPath_self`), and writes at paths
that part put back different members of the object where they part, in either
order (`Json.setPath_comm`). Both come from the same facts about members
(`Assoc.insert_insert_self`, `Assoc.insert_comm`). With what is known about
reading after an edit, these are the laws of edits (`Pointer.edit_laws`).
-/

set_option autoImplicit false

namespace GuardedThings

/-! ## Members -/

namespace Assoc

variable {κ α : Type} [Key κ] [DecidableEq κ]

/-- The second value stored under a key replaces the first one. -/
theorem insert_insert_self (k : κ) (a b : α) (entries : List (κ × α)) :
    insert k a (insert k b entries) = insert k a entries := by
  have hhead : ∀ rest : List (κ × α), insert k a ((k, b) :: rest) = (k, a) :: rest := by
    intro rest
    rw [insert, if_neg (Key.Before.irrefl k), if_pos rfl]
  induction entries with
  | nil => exact hhead []
  | cons entry rest ih =>
    obtain ⟨k', c⟩ := entry
    by_cases hlt : Key.Before k k'
    · rw [insert, insert, if_pos hlt, if_pos hlt]
      exact hhead _
    · by_cases heq : k' = k
      · rw [insert, insert, if_neg hlt, if_pos heq, if_neg hlt, if_pos heq]
        exact hhead rest
      · rw [insert, insert, if_neg hlt, if_neg heq, if_neg hlt, if_neg heq, insert, if_neg hlt,
          if_neg heq, ih]

/-- Two insertions commute if the keys are in order. -/
theorem insert_comm_of_before {k q : κ} (h : Key.Before k q) (a b : α)
    (entries : List (κ × α)) :
    insert k a (insert q b entries) = insert q b (insert k a entries) := by
  -- The greater key passes over the smaller one, which goes before the greater one.
  have hover : ∀ rest : List (κ × α), insert q b ((k, a) :: rest) = (k, a) :: insert q b rest := by
    intro rest
    rw [insert, if_neg h.asymm, if_neg h.ne]
  have hfront : ∀ rest : List (κ × α),
      insert k a ((q, b) :: rest) = (k, a) :: (q, b) :: rest := by
    intro rest
    rw [insert, if_pos h]
  induction entries with
  | nil =>
    show insert k a [(q, b)] = insert q b [(k, a)]
    rw [hfront, hover]
    rfl
  | cons entry rest ih =>
    obtain ⟨c, x⟩ := entry
    by_cases hkc : Key.Before k c
    · have hk : insert k a ((c, x) :: rest) = (k, a) :: (c, x) :: rest := by
        rw [insert, if_pos hkc]
      rw [hk, hover]
      by_cases hqc : Key.Before q c
      · rw [insert, if_pos hqc, hfront]
      · by_cases heq : c = q
        · rw [insert, if_neg hqc, if_pos heq, hfront]
        · rw [insert, if_neg hqc, if_neg heq, insert, if_pos hkc]
    · by_cases hck : c = k
      · subst hck
        have hk : insert c a ((c, x) :: rest) = (c, a) :: rest := by
          rw [insert, if_neg hkc, if_pos rfl]
        have hq : insert q b ((c, x) :: rest) = (c, x) :: insert q b rest := by
          rw [insert, if_neg h.asymm, if_neg h.ne]
        rw [hk, hq, hover, insert, if_neg hkc, if_pos rfl]
      · have hcq : Key.Before c q := ((Key.before_or_after hck).resolve_right hkc).trans h
        have hk : ∀ rest : List (κ × α),
            insert k a ((c, x) :: rest) = (c, x) :: insert k a rest := by
          intro rest
          rw [insert, if_neg hkc, if_neg hck]
        have hq : ∀ rest : List (κ × α),
            insert q b ((c, x) :: rest) = (c, x) :: insert q b rest := by
          intro rest
          rw [insert, if_neg hcq.asymm, if_neg hcq.ne]
        rw [hk, hq, hk, hq, ih]

/-- Values stored under different keys may be stored in either order. -/
theorem insert_comm {k q : κ} (h : k ≠ q) (a b : α) (entries : List (κ × α)) :
    insert k a (insert q b entries) = insert q b (insert k a entries) := by
  rcases Key.before_or_after h with hlt | hlt
  · exact insert_comm_of_before hlt a b entries
  · exact (insert_comm_of_before hlt b a entries).symm

end Assoc

/-! ## Writes at paths -/

namespace Json

/-- Two writes below the same member put it back once. -/
theorem setPath_setPath_same (v a b : Json) (name : String) (path other : List String) :
    (v.setPath (name :: path) a).setPath (name :: other) b =
      .object (Assoc.insert name
        ((((v.member? name).getD .null).setPath path a).setPath other b) v.membersOrEmpty) := by
  rw [setPath_cons v, setPath_cons, ← get?_membersOrEmpty]
  show object (Assoc.insert name (((Assoc.get? name (Assoc.insert name _ _)).getD null).setPath
    other b) (Assoc.insert name _ v.membersOrEmpty)) = _
  rw [Assoc.get?_insert_self, Option.getD_some, Assoc.insert_insert_self]

/-- Two writes below different members put both of them back. -/
theorem setPath_setPath_of_ne {name name' : String} (h : name' ≠ name) (v a b : Json)
    (path other : List String) :
    (v.setPath (name :: path) a).setPath (name' :: other) b =
      .object (Assoc.insert name' (((v.member? name').getD .null).setPath other b)
        (Assoc.insert name (((v.member? name).getD .null).setPath path a) v.membersOrEmpty)) := by
  rw [setPath_cons v, setPath_cons, ← get?_membersOrEmpty]
  show object (Assoc.insert name' (((Assoc.get? name' (Assoc.insert name _ _)).getD null).setPath
    other b) (Assoc.insert name _ v.membersOrEmpty)) = _
  rw [Assoc.get?_insert_of_ne h, get?_membersOrEmpty]

/-- A write at the same path replaces what the first one has written. -/
theorem setPath_setPath_self (v a b : Json) (path : List String) :
    (v.setPath path a).setPath path b = v.setPath path b := by
  induction path generalizing v with
  | nil => rfl
  | cons name path ih => rw [setPath_setPath_same, ih, ← setPath_cons]

/-- Writes at paths of which neither leads to the other may come in either order. -/
theorem setPath_comm {path other : List String} (h : ¬ path <+: other) (h' : ¬ other <+: path)
    (v a b : Json) :
    (v.setPath path a).setPath other b = (v.setPath other b).setPath path a := by
  induction path generalizing v other with
  | nil => exact absurd List.nil_prefix h
  | cons name path ih =>
    cases other with
    | nil => exact absurd List.nil_prefix h'
    | cons name' other =>
      by_cases hname : name' = name
      · subst hname
        rw [List.cons_prefix_cons] at h h'
        have hbelow := ih (fun hp => h ⟨rfl, hp⟩) (fun hp => h' ⟨rfl, hp⟩)
          ((v.member? name').getD .null)
        rw [setPath_setPath_same, setPath_setPath_same, hbelow]
      · rw [setPath_setPath_of_ne hname, setPath_setPath_of_ne (Ne.symm hname),
          Assoc.insert_comm hname]

end Json

/-! ## Edits at pointers -/

namespace Pointer

/-- Neither pointer leads to the other. -/
def Apart (p q : Pointer) : Prop := p.startsWith q = false ∧ q.startsWith p = false

/-- Of two pointers that are apart, neither extends the other. -/
theorem Apart.not_prefix {p q : Pointer} (h : p.Apart q) :
    ¬ p.segments <+: q.segments ∧ ¬ q.segments <+: p.segments := by
  obtain ⟨hp, hq⟩ := h
  refine ⟨fun hprefix => ?_, fun hprefix => ?_⟩
  · rw [startsWith, List.isPrefixOf_iff_prefix.mpr hprefix] at hq
    cases hq
  · rw [startsWith, List.isPrefixOf_iff_prefix.mpr hprefix] at hp
    cases hp

/-- What a removal gives, and the document after it: without the addressed value, or as it was if
nothing was removed. -/
def removal (p : Pointer) (document : Json) : Option Json × Json :=
  match p.remove? document with
  | some (removed, rest) => (some removed, rest)
  | none => (none, document)

/-- What holds of a removal by a pointer that is not the root. -/
structure Removes (p : Pointer) (document : Json) : Prop where
  given : (p.removal document).1 = p.get? document
  unchanged : p.get? document = none → (p.removal document).2 = document
  gone : p.get? (p.removal document).2 = none
  others : ∀ q, p.Apart q → q.get? (p.removal document).2 = q.get? document

/-- What removing by a pointer below the root does to a document. -/
theorem removes {p : Pointer} (h : p ≠ .root) (document : Json) : p.Removes document := by
  have hne : p.segments ≠ [] := by
    intro hnil
    apply h
    obtain ⟨segments, noEmpty⟩ := p
    cases hnil
    rfl
  cases hremoved : p.remove? document with
  | none =>
    have hmissing : p.get? document = none := by
      rw [Option.eq_none_iff_forall_ne_some]
      intro found hfound
      obtain ⟨members, hmembers⟩ := Json.removePath?_of_getPath? hne hfound
      exact nomatch hremoved.symm.trans hmembers
    have hremoval : p.removal document = (none, document) := by
      rw [removal, hremoved]
    refine ⟨?_, ?_, ?_, ?_⟩ <;> rw [hremoval]
    · exact hmissing.symm
    · exact fun _ => rfl
    · exact hmissing
    · exact fun _ _ => rfl
  | some result =>
    obtain ⟨removed, rest⟩ := result
    have hfound : p.get? document = some removed := Json.getPath?_of_removePath?_self hremoved
    have hremoval : p.removal document = (some removed, rest) := by
      rw [removal, hremoved]
    refine ⟨?_, ?_, ?_, ?_⟩ <;> rw [hremoval]
    · exact hfound.symm
    · exact fun hmissing => nomatch hmissing.symm.trans hfound
    · exact Json.getPath?_removePath?_self hremoved
    · intro q hapart
      obtain ⟨hbelow, habove⟩ := hapart.not_prefix
      exact Json.getPath?_removePath?_apart hremoved hbelow habove

/-- The laws of edits, for every document: what is set is found, what is removed is what was found
and is found no more, the last value set at a pointer stays, and edits at pointers of which neither
leads to the other do not notice each other. -/
theorem edit_laws (p : Pointer) (document value : Json) :
    p.get? (p.set document value) = some value ∧
    (∀ q, p.Apart q → q.get? (p.set document value) = q.get? document) ∧
    (p ≠ .root → p.Removes document) ∧
    (∀ value', p.set (p.set document value) value' = p.set document value') ∧
    ∀ q value', p.Apart q →
      q.set (p.set document value) value' = p.set (q.set document value') value := by
  refine ⟨?_, ?_, ?_, ?_, ?_⟩
  · exact Json.getPath?_setPath_self document value p.segments
  · intro q hapart
    obtain ⟨hbelow, habove⟩ := hapart.not_prefix
    exact Json.getPath?_setPath_apart hbelow habove document value
  · exact fun h => removes h document
  · exact fun value' => Json.setPath_setPath_self document value value' p.segments
  · intro q value' hapart
    obtain ⟨hbelow, habove⟩ := hapart.not_prefix
    exact Json.setPath_comm hbelow habove document value value'

/-! ## A greenhouse -/

/-- A greenhouse with a list of plants and a temperature. -/
def greenhouse : Json :=
  .object [("plants", .array [.string "fern"]), ("climate", .object [("degrees", .integer 21)])]

/-- The pointer to the number of plants, which stand in a list so far. -/
def plantCount : Pointer := .ofSegments ["plants", "count"]

/-- The pointer to the temperature. -/
def degrees : Pointer := .ofSegments ["climate", "degrees"]

/-- To set the number of plants takes the list away, but the temperature is found as before and may
be removed; the number of plants is not there to be removed. -/
theorem edit_laws_greenhouse :
    plantCount.Apart degrees ∧
      plantCount.get? (plantCount.set greenhouse (.integer 1)) = some (.integer 1) ∧
      degrees.get? (plantCount.set greenhouse (.integer 1)) = some (.integer 21) ∧
      plantCount.removal greenhouse = (none, greenhouse) ∧
      (degrees.removal greenhouse).1 = some (.integer 21) ∧
      degrees.set (plantCount.set greenhouse (.integer 1)) (.integer 22) =
        plantCount.set (degrees.set greenhouse (.integer 22)) (.integer 1) := by
  have hapart : plantCount.Apart degrees := ⟨rfl, rfl⟩
  obtain ⟨hset, hothers, hcount, -, hcomm⟩ := edit_laws plantCount greenhouse (.integer 1)
  obtain ⟨-, -, hdegrees, -, -⟩ := edit_laws degrees greenhouse (.integer 22)
  obtain ⟨hgiven, hunchanged, -, -⟩ := hcount (by decide)
  refine ⟨hapart, hset, hothers degrees hapart, Prod.ext hgiven (hunchanged rfl),
    (hdegrees (by decide)).given, hcomm degrees (.integer 22) hapart⟩

end Pointer

end GuardedThings
