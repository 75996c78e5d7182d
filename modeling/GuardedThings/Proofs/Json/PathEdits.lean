import GuardedThings.Pointer

/-!
# Edits along paths

What reading, writing and removing at paths have to do with each other.

A path can be followed in two steps, and so can an edit: writing below a value
is writing the edited value back (`setPath_append`, `removePath?_append`).

An edit at one path leaves what is at another path alone, unless one of the two
leads to the other (`getPath?_setPath_apart`). On the way to the edited
path a write leaves objects behind, whatever stood there (`getPath?_setPath_above`),
while a removal found nothing but objects there. So a write can take a value
that is no object from above the path it is for, and a removal cannot
(`prefix_of_setPath_changes`, `prefix_of_removePath?_changes`).
-/

set_option autoImplicit false

namespace GuardedThings.Json

/-! ## Paths in two steps -/

/-- A path goes on from the member with its first name. -/
theorem getPath?_cons (v : Json) (name : String) (path : List String) :
    v.getPath? (name :: path) = (v.member? name).bind fun child => child.getPath? path := rfl

/-- What is found among the members is the member of this name. -/
theorem get?_membersOrEmpty (v : Json) (name : String) :
    Assoc.get? name v.membersOrEmpty = v.member? name := by
  unfold membersOrEmpty member?
  cases v.members? with
  | none => rfl
  | some members => rfl

/-- To set a path is to set its rest in the member with its first name, which may be new. -/
theorem setPath_cons (v : Json) (name : String) (path : List String) (new : Json) :
    v.setPath (name :: path) new =
      .object (Assoc.insert name (((v.member? name).getD .null).setPath path new)
        v.membersOrEmpty) := by
  rw [← get?_membersOrEmpty]
  rfl

/-- What a single name removes is the member of this name. -/
theorem removePath?_singleton (v : Json) (name : String) :
    v.removePath? [name] = v.members?.bind fun members =>
      (Assoc.get? name members).map fun removed =>
        (removed, .object (Assoc.erase name members)) := by
  rw [removePath?]
  cases v.members? with
  | none => rfl
  | some members =>
    show ((Assoc.get? name members).bind fun _ => _) = (Assoc.get? name members).map _
    cases Assoc.get? name members with
    | none => rfl
    | some removed => rfl

/-- A longer path removes inside the member with its first name. -/
theorem removePath?_cons (v : Json) (name : String) {path : List String} (h : path ≠ []) :
    v.removePath? (name :: path) = v.members?.bind fun members =>
      (Assoc.get? name members).bind fun child => (child.removePath? path).map fun result =>
        (result.1, .object (Assoc.insert name result.2 members)) := by
  rw [removePath?]
  · cases v.members? with
    | none => rfl
    | some members =>
      show ((Assoc.get? name members).bind fun child => _) =
        (Assoc.get? name members).bind fun child => _
      cases Assoc.get? name members with
      | none => rfl
      | some child =>
        show ((child.removePath? path).bind fun result => _) = (child.removePath? path).map _
        cases child.removePath? path with
        | none => rfl
        | some result => rfl
  · exact h

/-- A path in two pieces is followed piece by piece. -/
theorem getPath?_append (v : Json) (path rest : List String) :
    v.getPath? (path ++ rest) = (v.getPath? path).bind fun inside => inside.getPath? rest := by
  induction path generalizing v with
  | nil => rfl
  | cons name path ih =>
    rw [List.cons_append, getPath?_cons, getPath?_cons]
    cases v.member? name with
    | none => rfl
    | some child => exact ih child

/-- Nothing but null is found in null. -/
theorem getPath?_null_getD (path : List String) :
    ((Json.null).getPath? path).getD .null = .null := by
  cases path with
  | nil => rfl
  | cons name path => rfl

/-- To set a path in two pieces is to set the second in what the first leads to. -/
theorem setPath_append (v : Json) (path rest : List String) (new : Json) :
    v.setPath (path ++ rest) new =
      v.setPath path (((v.getPath? path).getD .null).setPath rest new) := by
  induction path generalizing v with
  | nil => rfl
  | cons name path ih =>
    rw [List.cons_append, setPath_cons, setPath_cons, ih, getPath?_cons]
    cases v.member? name with
    | none => rw [Option.getD_none, getPath?_null_getD, Option.bind_none, Option.getD_none]
    | some child => rfl

/-- To remove by a path in two pieces is to remove by the second in what the first leads to. -/
theorem removePath?_append (v : Json) (path : List String) {rest : List String} (h : rest ≠ []) :
    v.removePath? (path ++ rest) = (v.getPath? path).bind fun inside =>
      (inside.removePath? rest).map fun result => (result.1, v.setPath path result.2) := by
  induction path generalizing v with
  | nil =>
    show v.removePath? rest = (v.removePath? rest).map fun result => (result.1, result.2)
    exact Option.map_id'.symm
  | cons name path ih =>
    rw [List.cons_append, removePath?_cons v name (List.append_ne_nil_of_right_ne_nil _ h),
      getPath?_cons]
    cases v with
    | object members =>
      show ((Assoc.get? name members).bind fun child => _) =
        ((Assoc.get? name members).bind fun child => child.getPath? path).bind _
      cases hchild : Assoc.get? name members with
      | none => rfl
      | some child =>
        show (child.removePath? (path ++ rest)).map _ = (child.getPath? path).bind _
        rw [ih]
        cases child.getPath? path with
        | none => rfl
        | some inside =>
          show ((inside.removePath? rest).map _).map _ = (inside.removePath? rest).map _
          rw [Option.map_map]
          congr 1
          funext result
          rw [setPath_cons]
          show _ = (result.1, Json.object (Assoc.insert name
            (((Assoc.get? name members).getD .null).setPath path result.2) members))
          rw [hchild]
          rfl
    | null | bool _ | integer _ | float _ | string _ | array _ => rfl

/-- What is there can be removed, and an object is left. -/
theorem removePath?_of_getPath? {v w : Json} {path : List String} (h : path ≠ [])
    (hw : v.getPath? path = some w) :
    ∃ members, v.removePath? path = some (w, .object members) := by
  induction path generalizing v with
  | nil => exact absurd rfl h
  | cons name path ih =>
    rw [getPath?_cons] at hw
    obtain ⟨child, hchild, hw⟩ := Option.bind_eq_some_iff.mp hw
    obtain ⟨members, hmembers, hget⟩ := Option.bind_eq_some_iff.mp hchild
    cases path with
    | nil =>
      cases hw
      rw [removePath?_singleton, hmembers, Option.bind_some, hget]
      exact ⟨_, rfl⟩
    | cons next path =>
      obtain ⟨inner, hinner⟩ := ih (List.cons_ne_nil _ _) hw
      rw [removePath?_cons _ _ (List.cons_ne_nil _ _), hmembers, Option.bind_some, hget,
        Option.bind_some, hinner]
      exact ⟨_, rfl⟩

/-! ## What an edit leaves alone -/

/-- What was set at a path is found there. -/
theorem getPath?_setPath_self (v new : Json) (path : List String) :
    (v.setPath path new).getPath? path = some new := by
  induction path generalizing v with
  | nil => rfl
  | cons name path ih =>
    rw [setPath_cons, getPath?_cons]
    show (Assoc.get? name (Assoc.insert name _ v.membersOrEmpty)).bind _ = _
    rw [Assoc.get?_insert_self, Option.bind_some]
    exact ih _

/-- A write leaves what neither leads to the written path nor lies below it. -/
theorem getPath?_setPath_apart {path other : List String} (h : ¬ path <+: other)
    (h' : ¬ other <+: path) (v new : Json) :
    (v.setPath path new).getPath? other = v.getPath? other := by
  induction path generalizing v other with
  | nil => exact absurd List.nil_prefix h
  | cons name path ih =>
    cases other with
    | nil => exact absurd List.nil_prefix h'
    | cons name' other =>
      rw [setPath_cons, getPath?_cons, getPath?_cons]
      show (Assoc.get? name' (Assoc.insert name _ v.membersOrEmpty)).bind _ = _
      by_cases hname : name' = name
      · subst hname
        rw [List.cons_prefix_cons] at h h'
        have hbelow := ih (fun hp => h ⟨rfl, hp⟩) (fun hp => h' ⟨rfl, hp⟩)
          ((v.member? name').getD .null)
        rw [Assoc.get?_insert_self, Option.bind_some, hbelow]
        cases v.member? name' with
        | some child => rfl
        | none =>
          -- Below what was missing there was nothing, and the other path goes there.
          cases other with
          | nil => exact absurd ⟨rfl, List.nil_prefix⟩ h'
          | cons _ _ => rfl
      · rw [Assoc.get?_insert_of_ne hname, get?_membersOrEmpty]

/-- Above the written path there are objects. -/
theorem getPath?_setPath_above {path above : List String} (h : above <+: path)
    (hne : above ≠ path) (v new : Json) :
    ∃ members, (v.setPath path new).getPath? above = some (.object members) := by
  induction above generalizing v path with
  | nil =>
    cases path with
    | nil => exact absurd rfl hne
    | cons name path =>
      rw [setPath_cons]
      exact ⟨_, rfl⟩
  | cons name above ih =>
    obtain ⟨rest, rfl⟩ := h
    rw [List.cons_append, setPath_cons, getPath?_cons]
    show ∃ members, (Assoc.get? name (Assoc.insert name _ v.membersOrEmpty)).bind _ = _
    rw [Assoc.get?_insert_self, Option.bind_some]
    refine ih (List.prefix_append _ _) ?_ _
    intro heq
    apply hne
    rw [List.cons_append, ← heq]

/-- The value that a write takes away lies at or below the written path, or it stood above it and
there is an object now. -/
theorem prefix_of_setPath_changes {v new w : Json} {path other : List String}
    (hw : v.getPath? other = some w) (hchanged : (v.setPath path new).getPath? other ≠ some w) :
    path <+: other ∨ other <+: path ∧ other ≠ path ∧
      ∃ members, (v.setPath path new).getPath? other = some (.object members) := by
  by_cases hbelow : path <+: other
  · exact .inl hbelow
  · by_cases habove : other <+: path
    · have hne : other ≠ path := fun heq => hbelow (heq ▸ List.prefix_refl _)
      exact .inr ⟨habove, hne, getPath?_setPath_above habove hne v new⟩
    · rw [getPath?_setPath_apart hbelow habove, hw] at hchanged
      exact absurd rfl hchanged

/-- Where something is removed there were objects above. -/
theorem exists_object_of_removePath? {v removed rest : Json} {path above : List String}
    (h : v.removePath? path = some (removed, rest)) (habove : above <+: path)
    (hne : above ≠ path) : ∃ members, v.getPath? above = some (.object members) := by
  obtain ⟨below, rfl⟩ := habove
  have hbelow : below ≠ [] := by
    rintro rfl
    exact hne (List.append_nil above).symm
  rw [removePath?_append v above hbelow] at h
  obtain ⟨inside, hinside, h⟩ := Option.bind_eq_some_iff.mp h
  refine ⟨inside.membersOrEmpty, ?_⟩
  rw [hinside]
  -- Nothing is removed from what is no object.
  cases inside with
  | object members => rfl
  | null | bool _ | integer _ | float _ | string _ | array _ =>
    cases below with
    | nil => exact absurd rfl hbelow
    | cons name below =>
      cases below with
      | nil => cases h
      | cons _ _ => cases h

/-- A removal takes the last name of the path from the object that the names before it lead to. -/
theorem removePath?_cases {v removed rest : Json} {path : List String}
    (h : v.removePath? path = some (removed, rest)) :
    ∃ front name inside members, path = front ++ [name] ∧ v.getPath? front = some inside ∧
      inside.members? = some members ∧ Assoc.get? name members = some removed ∧
      rest = v.setPath front (.object (Assoc.erase name members)) := by
  obtain ⟨front, name, rfl⟩ : ∃ front name, path = front ++ [name] := by
    refine ⟨path.dropLast, path.getLast ?_, (List.dropLast_concat_getLast _).symm⟩
    rintro rfl
    cases h
  rw [removePath?_append v front (List.cons_ne_nil _ _)] at h
  obtain ⟨inside, hinside, h⟩ := Option.bind_eq_some_iff.mp h
  obtain ⟨⟨removed', left⟩, hleft, heq⟩ := Option.map_eq_some_iff.mp h
  cases heq
  rw [removePath?_singleton] at hleft
  obtain ⟨members, hmembers, hleft⟩ := Option.bind_eq_some_iff.mp hleft
  obtain ⟨_, hremoved, heq⟩ := Option.map_eq_some_iff.mp hleft
  cases heq
  exact ⟨front, name, inside, members, rfl, hinside, hmembers, hremoved, rfl⟩

/-- What is removed was there. -/
theorem getPath?_of_removePath?_self {v removed rest : Json} {path : List String}
    (h : v.removePath? path = some (removed, rest)) : v.getPath? path = some removed := by
  obtain ⟨front, name, inside, members, rfl, hinside, hmembers, hremoved, -⟩ := removePath?_cases h
  rw [getPath?_append, hinside, Option.bind_some, getPath?_cons]
  unfold member?
  rw [hmembers, Option.bind_some, hremoved]
  rfl

/-- What is removed is no longer there. -/
theorem getPath?_removePath?_self {v removed rest : Json} {path : List String}
    (h : v.removePath? path = some (removed, rest)) : rest.getPath? path = none := by
  obtain ⟨front, name, inside, members, rfl, -, -, -, rfl⟩ := removePath?_cases h
  rw [getPath?_append, getPath?_setPath_self, Option.bind_some, getPath?_cons]
  show (Assoc.get? name (Assoc.erase name members)).bind _ = none
  rw [Assoc.get?_erase_self]
  rfl

/-- A removal leaves what neither leads to the removed path nor lies below it. -/
theorem getPath?_removePath?_apart {v removed rest : Json} {path other : List String}
    (h : v.removePath? path = some (removed, rest)) (hbelow : ¬ path <+: other)
    (habove : ¬ other <+: path) : rest.getPath? other = v.getPath? other := by
  obtain ⟨front, name, inside, members, rfl, hinside, hmembers, -, rfl⟩ := removePath?_cases h
  -- The other path parts from the removed one at its last name, or before it.
  by_cases hfront : front <+: other
  · obtain ⟨back, rfl⟩ := hfront
    cases back with
    | nil =>
      rw [List.append_nil] at habove
      exact absurd (List.prefix_append _ _) habove
    | cons name' back =>
      have hname : name' ≠ name := by
        rintro rfl
        exact hbelow ((List.prefix_append_right_inj front).mpr
          (List.cons_prefix_cons.mpr ⟨rfl, List.nil_prefix⟩))
      rw [getPath?_append, getPath?_append, getPath?_setPath_self, hinside, Option.bind_some,
        Option.bind_some, getPath?_cons, getPath?_cons]
      unfold member?
      rw [hmembers]
      show (Assoc.get? name' (Assoc.erase name members)).bind _ =
        (Assoc.get? name' members).bind _
      rw [Assoc.get?_erase_of_ne hname]
  · have hother : ¬ other <+: front := fun hp => habove (hp.trans (List.prefix_append _ _))
    exact getPath?_setPath_apart hfront hother v _

/-- A removal leaves what does not lie below the removed path, and above it there were objects. -/
theorem getPath?_of_removePath? {v removed rest : Json} {path : List String}
    (h : v.removePath? path = some (removed, rest)) {other : List String}
    (hbelow : ¬ path <+: other) :
    (∃ members, v.getPath? other = some (.object members)) ∨
      rest.getPath? other = v.getPath? other := by
  by_cases habove : other <+: path
  · have hne : other ≠ path := fun heq => hbelow (heq ▸ List.prefix_refl _)
    exact .inl (exists_object_of_removePath? h habove hne)
  · exact .inr (getPath?_removePath?_apart h hbelow habove)

/-- The value that a removal takes away lies at or below the removed path. -/
theorem prefix_of_removePath?_changes {v removed rest w : Json} {path other : List String}
    (h : v.removePath? path = some (removed, rest)) (hw : v.getPath? other = some w)
    (hleaf : w.members? = none) (hchanged : rest.getPath? other ≠ some w) : path <+: other := by
  by_cases hbelow : path <+: other
  · exact hbelow
  · rcases getPath?_of_removePath? h hbelow with ⟨members, hobject⟩ | hsame
    · rw [hobject] at hw
      cases hw
      cases hleaf
    · rw [hsame] at hchanged
      exact absurd hw hchanged

end GuardedThings.Json

namespace GuardedThings.Pointer

/-- Appending a name adds it to the segments. -/
theorem segments_append (p : Pointer) {segment : String} (h : segment ≠ "") :
    (p.append segment).segments = p.segments ++ [segment] := by
  unfold append
  rw [dif_neg h]

/-- Appending names adds them to the segments. -/
theorem segments_foldl_append (p : Pointer) {path : List String} (h : "" ∉ path) :
    (path.foldl append p).segments = p.segments ++ path := by
  induction path generalizing p with
  | nil => exact (List.append_nil _).symm
  | cons name path ih =>
    have hname : name ≠ "" := fun heq => h (heq ▸ List.mem_cons_self)
    rw [List.foldl_cons, ih _ fun hmem => h (List.mem_cons_of_mem _ hmem), segments_append _ hname,
      List.append_assoc]
    rfl

end GuardedThings.Pointer
