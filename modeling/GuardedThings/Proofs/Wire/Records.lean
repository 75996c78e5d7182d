import GuardedThings.Proofs.Results
import GuardedThings.Wire.Basic

/-!
# Records read back

A record is written as the object of its fields that are present
(`Json.ofFields`) and read by a description of its fields (`Fields`). What the
reader does depends only on what the object says under each name, not on the
order of the members: `Fields.Reads` says that the fields of a description,
looked up among the written ones, are decoded to a value. It is proved
piecewise, along the combinators that descriptions are made of, as long as no
two of them claim the same name. `LawfulWire` collects the types whose values
are read back as they were written.
-/

set_option autoImplicit false

namespace GuardedThings

/-- A type whose values are read back as they were written. -/
class LawfulWire (α : Type) [Wire α] : Prop where
  decode_encode : ∀ a : α, (Wire.decode (Wire.encode a) : Except Mismatch α) = .ok a

/-- Values that are written alike are the same. -/
theorem LawfulWire.encode_injective {α : Type} [Wire α] [LawfulWire α] {a b : α}
    (h : (Wire.encode a : Json) = Wire.encode b) : a = b := by
  have ha := LawfulWire.decode_encode a
  rw [h, LawfulWire.decode_encode] at ha
  exact (Except.ok.inj ha).symm

/-! ## The members that are present -/

namespace Json

/-- The members of an object that are present. -/
def present (fields : List (String × Option Json)) : JsonObject :=
  fields.filterMap fun (name, value) => value.map (name, ·)

/-- A record is an object of the fields that are there. -/
theorem ofFields_eq (fields : List (String × Option Json)) :
    ofFields fields = .object (present fields) := rfl

/-- The field in front is there if it has a value. -/
theorem present_cons (name : String) (value : Option Json) (rest : List (String × Option Json)) :
    present ((name, value) :: rest) = (value.map (name, ·)).toList ++ present rest := by
  cases value with
  | none => rfl
  | some v => rfl

/-- The fields that are there are those with a value. -/
theorem mem_present_iff (fields : List (String × Option Json)) (name : String) (value : Json) :
    (name, value) ∈ present fields ↔ (name, some value) ∈ fields := by
  unfold present
  rw [List.mem_filterMap]
  constructor
  · rintro ⟨⟨name', value'⟩, hmem, heq⟩
    obtain ⟨v, rfl, hv⟩ := Option.map_eq_some_iff.mp heq
    cases hv
    exact hmem
  · intro hmem
    exact ⟨_, hmem, rfl⟩

/-- The names of the present members are among the names of the fields, in the same order. -/
theorem present_names_sublist (fields : List (String × Option Json)) :
    ((present fields).map Prod.fst).Sublist (fields.map Prod.fst) := by
  induction fields with
  | nil => exact List.Sublist.refl _
  | cons field rest ih =>
    obtain ⟨name, value⟩ := field
    rw [present_cons, List.map_append, List.map_cons]
    cases value with
    | none => exact ih.cons name
    | some v => exact ih.cons_cons name

end Json

/-- What is said under a name where no two members have the same name. -/
theorem Assoc.get?_eq_some_iff_mem {α : Type} {entries : List (String × α)}
    (hnodup : (entries.map Prod.fst).Nodup) (name : String) (a : α) :
    Assoc.get? name entries = some a ↔ (name, a) ∈ entries := by
  constructor
  · exact Assoc.mem_of_get?
  · intro hmem
    induction entries with
    | nil => cases hmem
    | cons entry rest ih =>
      obtain ⟨name', a'⟩ := entry
      rw [List.map_cons, List.nodup_cons] at hnodup
      rcases List.mem_cons.mp hmem with heq | hmem
      · cases heq
        rw [Assoc.get?_cons, if_pos rfl]
      · have hne : name' ≠ name := by
          rintro rfl
          exact hnodup.1 (List.mem_map.mpr ⟨_, hmem, rfl⟩)
        rw [Assoc.get?_cons, if_neg hne]
        exact ih hnodup.2 hmem

/-- An object of fields says under a name what the field of that name says. -/
theorem Json.get?_present {fields : List (String × Option Json)}
    (hnodup : (fields.map Prod.fst).Nodup) (name : String) :
    Assoc.get? name (present fields) = (Assoc.get? name fields).join := by
  have hpresent := hnodup.sublist (present_names_sublist fields)
  ext value
  rw [Assoc.get?_eq_some_iff_mem hpresent, mem_present_iff, Option.join_eq_some_iff,
    Assoc.get?_eq_some_iff_mem hnodup]

/-! ## Fields that change -/

/-- Entries ascend iff their keys do. -/
theorem Assoc.sorted_iff_keys {κ α : Type} [Key κ] (entries : List (κ × α)) :
    Sorted entries ↔ (entries.map Prod.fst).Pairwise Key.Before := by
  unfold Sorted
  rw [List.pairwise_map]

/-- The value of one entry is not seen by look-ups of other keys. -/
theorem Assoc.get?_append_cons_of_ne {κ α : Type} [DecidableEq κ] (front back : List (κ × α))
    {k name : κ} (h : k ≠ name) (a b : α) :
    get? k (front ++ (name, a) :: back) = get? k (front ++ (name, b) :: back) := by
  induction front with
  | nil => rw [List.nil_append, List.nil_append, get?_cons, get?_cons, if_neg h.symm, if_neg h.symm]
  | cons entry rest ih =>
    rw [List.cons_append, List.cons_append, get?_cons, get?_cons, ih]

namespace Json

/-- Of ascending fields, those that are there ascend. -/
theorem sorted_present {fields : List (String × Option Json)}
    (h : (fields.map Prod.fst).Pairwise Key.Before) : Assoc.Sorted (present fields) :=
  (Assoc.sorted_iff_keys _).mpr (h.sublist (present_names_sublist fields))

section Ascending

variable (front back : List (String × Option Json)) {name : String}
  (ascending : (front.map Prod.fst ++ name :: back.map Prod.fst).Pairwise Key.Before)

include ascending

/-- The names ascend whatever the value in the middle is. -/
theorem ascending_names (value : Option Json) :
    ((front ++ (name, value) :: back).map Prod.fst).Pairwise Key.Before := by
  rw [List.map_append, List.map_cons]
  exact ascending

/-- What the object says under the name of a field and under the others. -/
theorem get?_present_append_cons (value other : Option Json) (k : String) :
    Assoc.get? k (present (front ++ (name, value) :: back)) =
      if k = name then value else Assoc.get? k (present (front ++ (name, other) :: back)) := by
  have hnodup : ∀ value : Option Json, ((front ++ (name, value) :: back).map Prod.fst).Nodup :=
    fun value => (ascending_names front back ascending value).imp fun hlt => hlt.ne
  rw [get?_present (hnodup value), get?_present (hnodup other)]
  by_cases hk : k = name
  · subst hk
    have hfield : (k, value) ∈ front ++ (k, value) :: back := by simp
    rw [if_pos rfl, (Assoc.get?_eq_some_iff_mem (hnodup value) k value).mpr hfield]
    rfl
  · rw [if_neg hk, Assoc.get?_append_cons_of_ne front back hk value other]

/-- To write a field is to insert a member. -/
theorem present_write (before : Option Json) (value : Json) :
    present (front ++ (name, some value) :: back) =
      Assoc.insert name value (present (front ++ (name, before) :: back)) := by
  have hsorted := fun value => sorted_present (ascending_names front back ascending value)
  refine (hsorted (some value)).ext ((hsorted before).insert _ _) fun k => ?_
  rw [get?_present_append_cons front back ascending (some value) before]
  by_cases hk : k = name
  · rw [if_pos hk, hk, Assoc.get?_insert_self]
  · rw [if_neg hk, Assoc.get?_insert_of_ne hk]

/-- To leave out a field is to erase a member. -/
theorem present_leaveOut (before : Option Json) :
    present (front ++ (name, none) :: back) =
      Assoc.erase name (present (front ++ (name, before) :: back)) := by
  have hsorted := fun value => sorted_present (ascending_names front back ascending value)
  refine (hsorted none).ext ((hsorted before).erase _) fun k => ?_
  rw [get?_present_append_cons front back ascending none before]
  by_cases hk : k = name
  · rw [if_pos hk, hk, Assoc.get?_erase_self]
  · rw [if_neg hk, Assoc.get?_erase_of_ne hk]

end Ascending

end Json

/-! ## Reading members -/

namespace Fields

variable {α β : Type}

/-- A member that is taken moves the state on. -/
theorem decodeMembers_cons_of_take {f : Fields Json α} {state next : f.State} {name : String}
    {value : Json} (h : f.take state name value = some (.ok next)) (rest : JsonObject) :
    f.decodeMembers state ((name, value) :: rest) = f.decodeMembers next rest := by
  rw [decodeMembers, h]
  rfl

/-- A member that nobody takes is skipped. -/
theorem decodeMembers_cons_of_pass {f : Fields Json α} {state : f.State} {name : String}
    {value : Json} (h : f.take state name value = none) (rest : JsonObject) :
    f.decodeMembers state ((name, value) :: rest) = f.decodeMembers state rest := by
  rw [decodeMembers, h]
  rfl

section Field

variable (name : String) (absent tooShort : Except Mismatch α) (decode : Decoder Json α)

/-- A field takes no member of another name. -/
theorem take_field_of_ne {key : String} (h : key ≠ name)
    (state : (field name absent tooShort decode).State) (value : Json) :
    (field name absent tooShort decode).take state key value = none :=
  if_neg h

/-- A field takes the first member of its name, if it can be decoded. -/
theorem take_field_self {key : String} (h : key = name) {value : Json} {a : α}
    (hdecode : decode value = .ok a) :
    (field name absent tooShort decode).take (field name absent tooShort decode).start key value =
      some (.ok (some a)) := by
  refine (if_pos h).trans ?_
  rw [hdecode]
  rfl

/-- A field that no member has the name of stays undecoded. -/
theorem decodeMembers_field_of_notMem (state : (field name absent tooShort decode).State)
    {members : JsonObject} (h : name ∉ members.map Prod.fst) :
    (field name absent tooShort decode).decodeMembers state members = .ok state := by
  induction members with
  | nil => rfl
  | cons member rest ih =>
    obtain ⟨key, value⟩ := member
    rw [List.map_cons, List.mem_cons, not_or] at h
    rw [decodeMembers_cons_of_pass (take_field_of_ne _ _ _ _ (Ne.symm h.1) state value)]
    exact ih h.2

/-- A field is decoded from the one member of its name. -/
theorem decodeMembers_field_of_get? {members : JsonObject} {value : Json} {a : α}
    (hnodup : (members.map Prod.fst).Nodup) (hget : Assoc.get? name members = some value)
    (hdecode : decode value = .ok a) :
    (field name absent tooShort decode).decodeMembers (field name absent tooShort decode).start
      members = .ok (some a) := by
  induction members with
  | nil => cases hget
  | cons member rest ih =>
    obtain ⟨key, value'⟩ := member
    rw [List.map_cons, List.nodup_cons] at hnodup
    rw [Assoc.get?_cons] at hget
    by_cases hkey : key = name
    · rw [if_pos hkey] at hget
      cases hget
      refine (decodeMembers_cons_of_take (take_field_self name absent tooShort decode hkey hdecode)
        rest).trans ?_
      exact decodeMembers_field_of_notMem name absent tooShort decode (some a) (hkey ▸ hnodup.1)
    · rw [if_neg hkey] at hget
      rw [decodeMembers_cons_of_pass (take_field_of_ne _ _ _ _ hkey _ _)]
      exact ih hnodup.2 hget

end Field

/-- What the first group of fields takes, the second does not see. -/
theorem take_and_of_some {f : Fields Json α} {g : Fields Json β} {s s' : f.State} {key : String}
    {value : Json} (h : f.take s key value = some (.ok s')) (t : g.State) :
    (f.and g).take (s, t) key value = some (.ok (s', t)) := by
  simp only [and, h]
  rfl

/-- What the first group of fields does not take goes to the second. -/
theorem take_and_of_none {f : Fields Json α} {g : Fields Json β} {s : f.State} {key : String}
    {value : Json} (h : f.take s key value = none) (t : g.State) :
    (f.and g).take (s, t) key value =
      (g.take t key value).map fun result => result >>= fun next => .ok (s, next) := by
  simp only [and, h]
  rfl

/-- Two descriptions decode side by side if no member is taken by both. -/
theorem decodeMembers_and {f : Fields Json α} {g : Fields Json β} {names : List String}
    (hf : ∀ state key value, key ∉ names → f.take state key value = none)
    (hg : ∀ state key value, key ∈ names → g.take state key value = none)
    {s s' : f.State} {t t' : g.State} {members : JsonObject}
    (hs : f.decodeMembers s members = .ok s') (ht : g.decodeMembers t members = .ok t') :
    (f.and g).decodeMembers (s, t) members = .ok (s', t') := by
  -- Every member moves at most one of the two states: the names decide whose it can be.
  induction members generalizing s t with
  | nil =>
    cases hs
    cases ht
    rfl
  | cons member rest ih =>
    obtain ⟨key, value⟩ := member
    by_cases hkey : key ∈ names
    · rw [decodeMembers_cons_of_pass (hg t key value hkey)] at ht
      cases hfs : f.take s key value with
      | none =>
        rw [decodeMembers_cons_of_pass hfs] at hs
        have htake : (f.and g).take (s, t) key value = none := by
          rw [take_and_of_none hfs, hg t key value hkey]
          rfl
        rw [decodeMembers_cons_of_pass htake]
        exact ih hs ht
      | some result =>
        cases result with
        | error mismatch =>
          rw [decodeMembers, hfs] at hs
          cases hs
        | ok next =>
          rw [decodeMembers_cons_of_take hfs] at hs
          rw [decodeMembers_cons_of_take (take_and_of_some hfs t)]
          exact ih hs ht
    · have hpass := hf s key value hkey
      rw [decodeMembers_cons_of_pass hpass] at hs
      cases hgt : g.take t key value with
      | none =>
        rw [decodeMembers_cons_of_pass hgt] at ht
        have htake : (f.and g).take (s, t) key value = none := by
          rw [take_and_of_none hpass, hgt]
          rfl
        rw [decodeMembers_cons_of_pass htake]
        exact ih hs ht
      | some result =>
        cases result with
        | error mismatch =>
          rw [decodeMembers, hgt] at ht
          cases ht
        | ok next =>
          rw [decodeMembers_cons_of_take hgt] at ht
          have htake : (f.and g).take (s, t) key value = some (.ok (s, next)) := by
            rw [take_and_of_none hpass, hgt]
            rfl
          rw [decodeMembers_cons_of_take htake]
          exact ih hs ht

/-! ## Reading fields -/

/-- The description takes members of the given names only, and decodes those among the fields that
were written to `a`. -/
structure Reads (f : Fields Json α) (names : List String) (fields : List (String × Option Json))
    (a : α) : Prop where
  others : ∀ state key value, key ∉ names → f.take state key value = none
  decoded : ∃ state, f.decodeMembers f.start (Json.present fields) = .ok state ∧
    f.finish state = .ok a

section Reads

variable {name : String} {names names' : List String} {fields : List (String × Option Json)}
  {f : Fields Json α} {g : Fields Json β} {a : α} {b : β}

/-- A field with a value is read by decoding the value. -/
theorem reads_field_of_some {absent tooShort : Except Mismatch α} {decode : Decoder Json α}
    {value : Json} (hnodup : (fields.map Prod.fst).Nodup)
    (hget : Assoc.get? name fields = some (some value)) (hdecode : decode value = .ok a) :
    (field name absent tooShort decode).Reads [name] fields a := by
  refine ⟨fun state key value hkey => ?_, some a, ?_, rfl⟩
  · exact take_field_of_ne _ _ _ _ (by simpa using hkey) state value
  · refine decodeMembers_field_of_get? _ _ _ _ (hnodup.sublist (Json.present_names_sublist _)) ?_
      hdecode
    rw [Json.get?_present hnodup, hget]
    rfl

/-- A field without a value is read as the value for its absence. -/
theorem reads_field_of_none {tooShort : Except Mismatch α} {decode : Decoder Json α}
    (hnodup : (fields.map Prod.fst).Nodup) (hget : Assoc.get? name fields = some none) :
    (field name (.ok a) tooShort decode).Reads [name] fields a := by
  refine ⟨fun state key value hkey => ?_, none, ?_, rfl⟩
  · exact take_field_of_ne _ _ _ _ (by simpa using hkey) state value
  · refine decodeMembers_field_of_notMem _ _ _ _ _ fun hmem => ?_
    obtain ⟨⟨key, value⟩, hmember, rfl⟩ := List.mem_map.mp hmem
    have hsome := (Assoc.get?_eq_some_iff_mem hnodup _ _).mpr
      ((Json.mem_present_iff _ _ _).mp hmember)
    rw [hget] at hsome
    cases hsome

/-- A required field is read back from its wire form. -/
theorem Reads.required [Wire α] [LawfulWire α] (hnodup : (fields.map Prod.fst).Nodup)
    (hget : Assoc.get? name fields = some (some (Wire.encode a))) :
    (Fields.required name (Wire.decode : Decoder Json α)).Reads [name] fields a :=
  reads_field_of_some hnodup hget (LawfulWire.decode_encode a)

/-- A field with a default is read back from its wire form. -/
theorem Reads.defaulted [Wire α] [LawfulWire α] {default : α}
    (hnodup : (fields.map Prod.fst).Nodup)
    (hget : Assoc.get? name fields = some (some (Wire.encode a))) :
    (Fields.defaulted name default (Wire.decode : Decoder Json α)).Reads [name] fields a :=
  reads_field_of_some hnodup hget (LawfulWire.decode_encode a)

/-- What is not null is decoded as something. -/
theorem decode_option_of_ne_null {decode : Decoder Json α} {value : Json} (hvalue : value ≠ .null)
    (hdecode : decode value = .ok a) : Decoder.option decode value = .ok (some a) := by
  cases value with
  | null => exact absurd rfl hvalue
  | bool _ | integer _ | float _ | string _ | array _ | object _ =>
    unfold Decoder.option
    rw [hdecode]
    rfl

/-- A field that may be missing is read back unless its value is written as null. -/
theorem Reads.optional_of_forall [Wire α] [LawfulWire α] {x : Option α}
    (hnull : ∀ a, x = some a → (Wire.encode a : Json) ≠ .null)
    (hnodup : (fields.map Prod.fst).Nodup)
    (hget : Assoc.get? name fields = some (x.map Wire.encode)) :
    (Fields.optional name (Wire.decode : Decoder Json α)).Reads [name] fields x := by
  cases x with
  | none => exact reads_field_of_none hnodup hget
  | some a =>
    exact reads_field_of_some hnodup hget
      (decode_option_of_ne_null (hnull a rfl) (LawfulWire.decode_encode a))

/-- A field that may be missing is read back if no value of its type is written as null. -/
theorem Reads.optional [Wire α] [LawfulWire α] {x : Option α}
    (hnull : ∀ a : α, (Wire.encode a : Json) ≠ .null) (hnodup : (fields.map Prod.fst).Nodup)
    (hget : Assoc.get? name fields = some (x.map Wire.encode)) :
    (Fields.optional name (Wire.decode : Decoder Json α)).Reads [name] fields x :=
  optional_of_forall (fun a _ => hnull a) hnodup hget

/-- The fields of both descriptions are read if they have no name in common. -/
theorem Reads.and (hf : f.Reads names fields a) (hg : g.Reads names' fields b)
    (hdisjoint : ∀ name ∈ names, name ∉ names') :
    (f.and g).Reads (names ++ names') fields (a, b) := by
  obtain ⟨hfothers, s, hs, ha⟩ := hf
  obtain ⟨hgothers, t, ht, hb⟩ := hg
  refine ⟨fun ⟨u, v⟩ key value hkey => ?_, (s, t), ?_, ?_⟩
  · rw [List.mem_append, not_or] at hkey
    rw [take_and_of_none (hfothers u key value hkey.1), hgothers v key value hkey.2]
    rfl
  · exact decodeMembers_and hfothers
      (fun state key value hkey => hgothers state key value (hdisjoint key hkey)) hs ht
  · show (do return (← f.finish s, ← g.finish t)) = _
    rw [ha, hb]
    rfl

/-- What is made of fields takes their members. -/
theorem decodeMembers_map (make : α → β) {state next : f.State} {members : JsonObject}
    (h : f.decodeMembers state members = .ok next) :
    (f.map make).decodeMembers state members = .ok next := by
  induction members generalizing state with
  | nil => exact h
  | cons member rest ih =>
    obtain ⟨key, value⟩ := member
    cases hf : f.take state key value with
    | none =>
      rw [decodeMembers_cons_of_pass hf] at h
      exact (decodeMembers_cons_of_pass (f := f.map make) hf rest).trans (ih h)
    | some result =>
      cases result with
      | error mismatch =>
        rw [decodeMembers, hf] at h
        cases h
      | ok after =>
        rw [decodeMembers_cons_of_take hf] at h
        exact (decodeMembers_cons_of_take (f := f.map make) hf rest).trans (ih h)

/-- What is made of fields is read as they are. -/
theorem Reads.map (hf : f.Reads names fields a) (make : α → β) :
    (f.map make).Reads names fields (make a) := by
  obtain ⟨hothers, s, hs, ha⟩ := hf
  refine ⟨hothers, s, decodeMembers_map make hs, ?_⟩
  show (do return make (← f.finish s)) = _
  rw [ha]
  rfl

/-- No fields are read from whatever there is. -/
theorem reads_nothing (fields : List (String × Option Json)) (a : α) :
    (nothing a : Fields Json α).Reads [] fields a := by
  refine ⟨fun _ _ _ _ => rfl, (), ?_, rfl⟩
  induction Json.present fields with
  | nil => rfl
  | cons member rest ih => exact ih

/-- What the description reads is what is decoded from the object of the fields. -/
theorem Reads.decodeObject (hf : f.Reads names fields a) :
    f.decodeObject (Json.present fields) true = .ok a := by
  obtain ⟨-, s, hs, ha⟩ := hf
  unfold Fields.decodeObject
  rw [hs]
  exact ha

/-- What reads its fields decodes their record. -/
theorem Reads.decode (hf : f.Reads names fields a) : f.decode (Json.ofFields fields) = .ok a :=
  hf.decodeObject

end Reads

end Fields

/-! ## Reading variants -/

/-- A named variant is read back from the object of its fields. -/
theorem Fields.Reads.decodeNamed {α : Type} {table : List (String × VariantBody Json α)}
    {name : String} {names : List String} {fields : List (String × Option Json)}
    {f : Fields Json α} {a : α} (hf : f.Reads names fields a)
    (hfind : VariantBody.find? name table = some (.fields f)) :
    VariantBody.decodeNamed table name (Json.ofFields fields) = .ok a := by
  unfold VariantBody.decodeNamed
  rw [hfind]
  exact hf.decodeObject

namespace VariantBody

variable {α : Type} {table : List (String × VariantBody Json α)} {name : String} {a : α}

/-- A variant with a body is written as the only member of an object. -/
theorem decode_single {body : Json} (h : decodeNamed table name body = .ok a) :
    decode table (Json.single name body) = .ok a := by
  show (do
    let value ← decodeNamed table name body
    Decoder.requireClosed true
    return value) = _
  rw [h]
  rfl

/-- A bare variant is written as its name. -/
theorem decode_string (h : find? name table = some (.bare a)) :
    decode table (.string name : Json) = .ok a := by
  have hshape : Source.shape (.string name : Json) = .string name := rfl
  unfold decode
  simp only [hshape, h]

end VariantBody

end GuardedThings
