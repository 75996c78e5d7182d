import GuardedThings.Policy.Entry
import GuardedThings.Proofs.Dictionaries
import GuardedThings.Proofs.Wire.Records

/-!
# Dictionaries read back

A dictionary is written as an object whose members are sorted by the texts of
the keys, which need not be the order of the keys themselves. The members are
the entries in another order (`Dict.jsonMembers_eq_map`), so they say under the
text of a key what the dictionary says under the key (`Dict.get?_jsonMembers`).

Reading an object reads each member as an entry (`Decoder.member`) and stores
the entries one after another. If no two members have the same key, the
dictionary has one entry for each of them and no others (`Decoder.Collects`),
whatever spellings the names have. A dictionary that refuses a second value for
a key is read exactly if it collects the members
(`Decoder.uniqueDict_eq_ok_iff`); one that keeps the last value collects members
with different names if the name is the text of the key
(`Decoder.collects_of_dict`). What was written is read back
(`Decoder.dict_toJson`, `Decoder.uniqueDict_toJson`).
-/

set_option autoImplicit false

namespace GuardedThings

/-! ## The object of a dictionary -/

namespace Dict

variable {κ α : Type} [Key κ]

variable (textOf : κ → String) (encode : α → Json)

/-- The members of the object that a dictionary is written as. -/
def jsonMembers (d : Dict κ α) : JsonObject :=
  d.toList.foldl (fun members (k, a) => Assoc.insert (textOf k) (encode a) members) []

/-- The document of a dictionary is an object of its members. -/
theorem toJson_eq (d : Dict κ α) : d.toJson textOf encode = .object (d.jsonMembers textOf encode) :=
  rfl

/-- The members of a dictionary ascend by the texts of the keys. -/
theorem sorted_jsonMembers (d : Dict κ α) : Assoc.Sorted (d.jsonMembers textOf encode) := by
  unfold jsonMembers
  suffices h : ∀ (entries : List (κ × α)) (members : JsonObject), Assoc.Sorted members →
      Assoc.Sorted (entries.foldl (fun members (k, a) =>
        Assoc.insert (textOf k) (encode a) members) members) by
    exact h d.toList [] Assoc.sorted_nil
  intro entries
  induction entries with
  | nil => exact fun members h => h
  | cons entry rest ih => exact fun members h => ih _ (h.insert _ _)

/-- The member that an entry is written as. -/
def jsonMember (entry : κ × α) : String × Json := (textOf entry.1, encode entry.2)

omit [Key κ] in
/-- A pair stored under a new text goes in between the others. -/
theorem insert_map_jsonMember {k : κ} (a : α) {entries : List (κ × α)}
    (hnew : ∀ entry ∈ entries, textOf entry.1 ≠ textOf k) :
    ∃ entries' : List (κ × α),
      Assoc.insert (textOf k) (encode a) (entries.map (jsonMember textOf encode)) =
        entries'.map (jsonMember textOf encode) ∧ entries'.Perm ((k, a) :: entries) := by
  induction entries with
  | nil => exact ⟨[(k, a)], rfl, List.Perm.refl _⟩
  | cons entry rest ih =>
    obtain ⟨k', a'⟩ := entry
    rw [List.map_cons]
    show ∃ entries' : List (κ × α), Assoc.insert (textOf k) (encode a)
      ((textOf k', encode a') :: rest.map (jsonMember textOf encode)) = _ ∧ _
    by_cases hlt : Key.Before (textOf k) (textOf k')
    · refine ⟨(k, a) :: (k', a') :: rest, ?_, List.Perm.refl _⟩
      rw [Assoc.insert, if_pos hlt]
      rfl
    · have hne : textOf k' ≠ textOf k := hnew (k', a') List.mem_cons_self
      obtain ⟨entries', heq, hperm⟩ := ih fun e he => hnew e (List.mem_cons_of_mem _ he)
      refine ⟨(k', a') :: entries', ?_, (hperm.cons _).trans (List.Perm.swap _ _ _)⟩
      rw [Assoc.insert, if_neg hlt, if_neg hne, heq]
      rfl

/-- The members are the entries of the dictionary in some order. -/
theorem jsonMembers_eq_map (hinj : ∀ {k l}, textOf k = textOf l → k = l) (d : Dict κ α) :
    ∃ entries : List (κ × α),
      d.jsonMembers textOf encode = entries.map (jsonMember textOf encode) ∧
        entries.Perm d.toList := by
  suffices h : ∀ rest done : List (κ × α), ((done ++ rest).map Prod.fst).Nodup →
      ∃ entries : List (κ × α),
        rest.foldl (fun members (k, a) => Assoc.insert (textOf k) (encode a) members)
          (done.map (jsonMember textOf encode)) = entries.map (jsonMember textOf encode) ∧
        entries.Perm (done ++ rest) by
    exact h d.toList [] d.sorted.nodup_keys
  intro rest
  induction rest with
  | nil => exact fun done _ => ⟨done, rfl, by simp⟩
  | cons entry rest ih =>
    obtain ⟨k, a⟩ := entry
    intro done hnodup
    have hnew : ∀ entry ∈ done, textOf entry.1 ≠ textOf k := by
      intro entry hmem heq
      rw [List.map_append, List.nodup_append] at hnodup
      exact hnodup.2.2 _ (List.mem_map_of_mem hmem) k (by simp) (hinj heq)
    obtain ⟨done', heq, hperm⟩ := insert_map_jsonMember textOf encode a hnew
    have hperm' : (done' ++ rest).Perm (done ++ (k, a) :: rest) :=
      (hperm.append_right rest).trans List.perm_middle.symm
    obtain ⟨entries, hentries, hall⟩ := ih done' ((hperm'.map Prod.fst).nodup_iff.mpr hnodup)
    refine ⟨entries, ?_, hall.trans hperm'⟩
    rw [List.foldl_cons]
    show rest.foldl _ (Assoc.insert (textOf k) (encode a) _) = _
    rw [heq]
    exact hentries

variable {textOf encode}

/-- The object says under the text of a key what the dictionary says under the key. -/
theorem get?_jsonMembers [DecidableEq κ] (hinj : ∀ {k l}, textOf k = textOf l → k = l)
    (d : Dict κ α) (k : κ) :
    Assoc.get? (textOf k) (d.jsonMembers textOf encode) = (d.get? k).map encode := by
  obtain ⟨entries, hentries, hperm⟩ := d.jsonMembers_eq_map textOf encode hinj
  ext value
  rw [Assoc.get?_eq_some_iff_mem (d.sorted_jsonMembers _ _).nodup_keys, hentries, List.mem_map,
    Option.map_eq_some_iff]
  constructor
  · rintro ⟨⟨l, a⟩, hmem, heq⟩
    obtain ⟨htext, rfl⟩ := Prod.mk.inj heq
    cases hinj htext
    exact ⟨a, (d.mem_toList_iff _ _).mp (hperm.mem_iff.mp hmem), rfl⟩
  · rintro ⟨a, hget, rfl⟩
    exact ⟨(k, a), hperm.mem_iff.mpr ((d.mem_toList_iff _ _).mpr hget), rfl⟩

/-- The object has no members but those of the keys. -/
theorem get?_jsonMembers_of_forall_ne [DecidableEq κ]
    (hinj : ∀ {k l}, textOf k = textOf l → k = l) (d : Dict κ α) {name : String}
    (h : ∀ k, textOf k ≠ name) : Assoc.get? name (d.jsonMembers textOf encode) = none := by
  obtain ⟨entries, hentries, -⟩ := d.jsonMembers_eq_map textOf encode hinj
  rw [hentries]
  refine Assoc.get?_eq_none_of_forall fun entry hmem => ?_
  obtain ⟨⟨k, a⟩, -, rfl⟩ := List.mem_map.mp hmem
  exact h k

/-- An insertion into a dictionary is one into its members. -/
theorem jsonMembers_insert [DecidableEq κ] (hinj : ∀ {k l}, textOf k = textOf l → k = l)
    (d : Dict κ α) (k : κ) (a : α) :
    (d.insert k a).jsonMembers textOf encode =
      Assoc.insert (textOf k) (encode a) (d.jsonMembers textOf encode) := by
  refine (sorted_jsonMembers _ _ _).ext ((sorted_jsonMembers _ _ d).insert _ _) fun name => ?_
  by_cases hname : ∃ l, textOf l = name
  · obtain ⟨l, rfl⟩ := hname
    rw [get?_jsonMembers hinj, get?_insert]
    by_cases hl : l = k
    · rw [if_pos hl, hl, Assoc.get?_insert_self]
      rfl
    · rw [if_neg hl, Assoc.get?_insert_of_ne fun heq => hl (hinj heq), get?_jsonMembers hinj]
  · have hne : ∀ l, textOf l ≠ name := fun l heq => hname ⟨l, heq⟩
    rw [Assoc.get?_insert_of_ne (Ne.symm (hne k)), get?_jsonMembers_of_forall_ne hinj _ hne,
      get?_jsonMembers_of_forall_ne hinj _ hne]

/-- An erasure from a dictionary is one from its members. -/
theorem jsonMembers_erase [DecidableEq κ] (hinj : ∀ {k l}, textOf k = textOf l → k = l)
    (d : Dict κ α) (k : κ) :
    (d.erase k).jsonMembers textOf encode =
      Assoc.erase (textOf k) (d.jsonMembers textOf encode) := by
  refine (sorted_jsonMembers _ _ _).ext ((sorted_jsonMembers _ _ d).erase _) fun name => ?_
  by_cases hname : ∃ l, textOf l = name
  · obtain ⟨l, rfl⟩ := hname
    rw [get?_jsonMembers hinj, get?_erase]
    by_cases hl : l = k
    · rw [if_pos hl, hl, Assoc.get?_erase_self]
      rfl
    · rw [if_neg hl, Assoc.get?_erase_of_ne fun heq => hl (hinj heq), get?_jsonMembers hinj]
  · have hne : ∀ l, textOf l ≠ name := fun l heq => hname ⟨l, heq⟩
    rw [Assoc.get?_erase_of_ne (Ne.symm (hne k)), get?_jsonMembers_of_forall_ne hinj _ hne,
      get?_jsonMembers_of_forall_ne hinj _ hne]

end Dict

/-! ## Reading an object -/

namespace Decoder

section Members

variable {κ α β : Type}

/-- Reads a member of an object as an entry of a dictionary. -/
def member (parse : String → Except Failure κ) (decode : Decoder Json α) (m : String × Json) :
    Except Mismatch (κ × α) :=
  match parse m.1 with
  | .error failure => .error (.refused failure)
  | .ok key => return (key, ← decode m.2)

variable {parse : String → Except Failure κ} {decode : Decoder Json α}

/-- A member is read iff its name and its value are. -/
theorem member_eq_ok_iff (m : String × Json) (entry : κ × α) :
    member parse decode m = .ok entry ↔ parse m.1 = .ok entry.1 ∧ decode m.2 = .ok entry.2 := by
  obtain ⟨k, a⟩ := entry
  unfold member
  cases parse m.1 with
  | error failure => simp
  | ok key =>
    show (decode m.2 >>= fun a => .ok (key, a)) = .ok (k, a) ↔ _
    rw [bind_eq_ok_iff]
    constructor
    · rintro ⟨b, hb, heq⟩
      cases heq
      exact ⟨rfl, hb⟩
    · rintro ⟨heq, ha⟩
      cases heq
      exact ⟨a, ha, rfl⟩

/-- Adding members one by one is reading all of them and adding the entries. -/
theorem members_eq_ok_iff (add : β → κ → α → Except Mismatch β) (collected result : β)
    (ms : JsonObject) :
    members parse decode add collected ms = .ok result ↔
      ∃ entries, ms.mapM (member parse decode) = .ok entries ∧
        entries.foldlM (fun collected entry => add collected entry.1 entry.2) collected =
          .ok result := by
  induction ms generalizing collected with
  | nil =>
    constructor
    · intro h
      exact ⟨[], rfl, h⟩
    · rintro ⟨entries, hentries, h⟩
      cases hentries
      exact h
  | cons m rest ih =>
    obtain ⟨name, value⟩ := m
    constructor
    · intro h
      rw [members] at h
      split at h
      · cases h
      · rename_i key hkey
        obtain ⟨a, ha, h⟩ := (bind_eq_ok_iff _ _ _).mp h
        obtain ⟨next, hnext, h⟩ := (bind_eq_ok_iff _ _ _).mp h
        obtain ⟨entries, hentries, h⟩ := (ih next).mp h
        have hmember := (member_eq_ok_iff (name, value) (key, a)).mpr ⟨hkey, ha⟩
        refine ⟨(key, a) :: entries, (mapM_cons_eq_ok_iff _).mpr ⟨_, _, hmember, hentries, rfl⟩, ?_⟩
        rw [List.foldlM_cons]
        exact (bind_eq_ok_iff _ _ _).mpr ⟨next, hnext, h⟩
    · rintro ⟨_, hentries, h⟩
      obtain ⟨⟨key, a⟩, entries, hmember, hrest, rfl⟩ := (mapM_cons_eq_ok_iff _).mp hentries
      obtain ⟨hkey, ha⟩ := (member_eq_ok_iff _ _).mp hmember
      rw [List.foldlM_cons] at h
      obtain ⟨next, hnext, h⟩ := (bind_eq_ok_iff _ _ _).mp h
      rw [members, hkey]
      refine (bind_eq_ok_iff _ _ _).mpr ⟨a, ha, (bind_eq_ok_iff _ _ _).mpr ⟨next, hnext, ?_⟩⟩
      exact (ih next).mpr ⟨entries, hrest, h⟩

/-- The keys of the entries are told apart iff no two members have the same key. -/
theorem nodup_keys_iff {ms : JsonObject} {entries : List (κ × α)}
    (h : ms.mapM (member parse decode) = .ok entries) :
    (entries.map Prod.fst).Nodup ↔
      ms.Pairwise fun m m' => ∀ key, parse m.1 = .ok key → parse m'.1 ≠ .ok key := by
  induction ms generalizing entries with
  | nil =>
    cases h
    simp
  | cons m rest ih =>
    obtain ⟨⟨key, a⟩, entries, hm, hrest, rfl⟩ := (mapM_cons_eq_ok_iff m).mp h
    have hkey := ((member_eq_ok_iff _ _).mp hm).1
    rw [List.map_cons, List.nodup_cons, List.pairwise_cons, ih hrest, List.mem_map]
    refine and_congr_left fun _ => ?_
    constructor
    · intro hnew m' hm' key' hkey' hsame
      rw [hkey] at hkey'
      cases hkey'
      obtain ⟨entry, hentry, hread⟩ := exists_mem_mapM_of_mem hrest hm'
      have hentry' := ((member_eq_ok_iff _ _).mp hread).1
      rw [hsame] at hentry'
      cases hentry'
      exact hnew ⟨entry, hentry, rfl⟩
    · rintro hnew ⟨entry, hentry, rfl⟩
      obtain ⟨m', hm', hread⟩ := exists_of_mem_mapM hrest hentry
      exact hnew m' hm' entry.1 hkey ((member_eq_ok_iff _ _).mp hread).1

end Members

section Dictionaries

variable {κ α : Type} [Key κ]

/-- The dictionary has one entry for each member of the object, and no others. -/
def Collects (parse : String → Except Failure κ) (decode : Decoder Json α) (ms : JsonObject)
    (d : Dict κ α) : Prop :=
  ∃ entries, ms.mapM (member parse decode) = .ok entries ∧ entries.Perm d.toList

variable {parse : String → Except Failure κ} {decode : Decoder Json α} {ms : JsonObject}
  {d : Dict κ α}

/-- A dictionary collects one entry from each member. -/
theorem Collects.size_eq (h : Collects parse decode ms d) : d.size = ms.length := by
  obtain ⟨entries, hentries, hperm⟩ := h
  have hlength : entries.map (fun _ => ()) = ms.map fun _ => () :=
    map_mapM (fun _ _ _ => rfl) hentries
  have hlength := congrArg List.length hlength
  rw [List.length_map, List.length_map] at hlength
  rw [Dict.size, ← hperm.length_eq, hlength]

variable [DecidableEq κ]

/-- What is found under a key is what some member with this key says. -/
theorem Collects.get?_eq_some_iff (h : Collects parse decode ms d) (k : κ) (a : α) :
    d.get? k = some a ↔ ∃ m ∈ ms, parse m.1 = .ok k ∧ decode m.2 = .ok a := by
  obtain ⟨entries, hentries, hperm⟩ := h
  rw [← Dict.mem_toList_iff, ← hperm.mem_iff]
  constructor
  · intro hmem
    obtain ⟨m, hm, hread⟩ := exists_of_mem_mapM hentries hmem
    exact ⟨m, hm, (member_eq_ok_iff _ _).mp hread⟩
  · rintro ⟨m, hm, hread⟩
    obtain ⟨entry, hentry, hread'⟩ := exists_mem_mapM_of_mem hentries hm
    rw [(member_eq_ok_iff m (k, a)).mpr hread] at hread'
    cases hread'
    exact hentry

omit [DecidableEq κ] in
/-- Each member was read. -/
theorem Collects.exists_read (h : Collects parse decode ms d) {m : String × Json} (hm : m ∈ ms) :
    ∃ k a, parse m.1 = .ok k ∧ decode m.2 = .ok a := by
  obtain ⟨entries, hentries, -⟩ := h
  obtain ⟨entry, -, hread⟩ := exists_mem_mapM_of_mem hentries hm
  obtain ⟨hkey, ha⟩ := (member_eq_ok_iff _ _).mp hread
  exact ⟨entry.1, entry.2, hkey, ha⟩

/-- A key has a value with a property iff the value of some member with this key has it. -/
theorem Collects.exists_get?_iff (h : Collects parse decode ms d) (k : κ) {P : α → Prop}
    {Q : Json → Prop} (hPQ : ∀ v a, decode v = .ok a → (P a ↔ Q v)) :
    (∃ a, d.get? k = some a ∧ P a) ↔ ∃ m ∈ ms, parse m.1 = .ok k ∧ Q m.2 := by
  constructor
  · rintro ⟨a, hget, hP⟩
    obtain ⟨m, hm, hkey, ha⟩ := (h.get?_eq_some_iff k a).mp hget
    exact ⟨m, hm, hkey, (hPQ m.2 a ha).mp hP⟩
  · rintro ⟨m, hm, hkey, hQ⟩
    obtain ⟨k', a, hkey', ha⟩ := h.exists_read hm
    rw [hkey] at hkey'
    cases hkey'
    exact ⟨a, (h.get?_eq_some_iff k a).mpr ⟨m, hm, hkey, ha⟩, (hPQ m.2 a ha).mpr hQ⟩

/-- Members are collected iff each of them can be read and no two have the same key. -/
theorem exists_collects_iff :
    (∃ d, Collects parse decode ms d) ↔
      (∀ m ∈ ms, (∃ key, parse m.1 = .ok key) ∧ ∃ a, decode m.2 = .ok a) ∧
        ms.Pairwise fun m m' => ∀ key, parse m.1 = .ok key → parse m'.1 ≠ .ok key := by
  constructor
  · rintro ⟨d, entries, hentries, hperm⟩
    have hnodup := (hperm.map Prod.fst).nodup_iff.mpr d.sorted.nodup_keys
    refine ⟨fun m hm => ?_, (nodup_keys_iff hentries).mp hnodup⟩
    obtain ⟨key, a, hkey, ha⟩ := Collects.exists_read ⟨entries, hentries, hperm⟩ hm
    exact ⟨⟨key, hkey⟩, a, ha⟩
  · rintro ⟨hread, hdifferent⟩
    have hmembers : ∀ m ∈ ms, ∃ entry, member parse decode m = .ok entry := by
      intro m hm
      obtain ⟨⟨key, hkey⟩, a, ha⟩ := hread m hm
      exact ⟨(key, a), (member_eq_ok_iff _ _).mpr ⟨hkey, ha⟩⟩
    obtain ⟨entries, hentries⟩ := exists_mapM_eq_ok_iff.mpr hmembers
    have hnodup := (nodup_keys_iff hentries).mpr hdifferent
    exact ⟨Dict.ofList entries, entries, hentries, (Dict.toList_ofList_perm hnodup).symm⟩

/-- A dictionary of unique keys is read from an object, all members of which it collects. -/
theorem uniqueDict_eq_ok_iff (what : String) (textOf : κ → String) (v : Json) :
    uniqueDict what textOf parse decode v = .ok d ↔
      ∃ ms, v = .object ms ∧ Collects parse decode ms d := by
  cases v with
  | null | bool _ | integer _ | float _ | string _ | array _ =>
    constructor
    · intro h
      cases h
    · rintro ⟨ms, h, -⟩
      cases h
  | object ms =>
    have hread : uniqueDict what textOf parse decode (.object ms) = .ok d ↔
        members parse decode (fun (d : Dict κ α) key a =>
          if d.contains key then .error (.duplicateKey what (textOf key))
          else .ok (d.insert key a)) Dict.empty ms = .ok d := by
      show (members parse decode _ Dict.empty ms >>= fun d => .ok d) = .ok d ↔ _
      rw [bind_eq_ok_iff]
      simp
    have hstored := Dict.foldlM_insert_eq_ok_iff (α := α) fun k =>
      Mismatch.duplicateKey what (textOf k)
    rw [hread, members_eq_ok_iff]
    constructor
    · rintro ⟨entries, hentries, hfold⟩
      obtain ⟨⟨hnodup, -⟩, rfl⟩ := (hstored entries .empty d).mp hfold
      exact ⟨ms, rfl, entries, hentries, (Dict.toList_ofList_perm hnodup).symm⟩
    · rintro ⟨_, ⟨⟩, entries, hentries, hperm⟩
      have hnodup := (hperm.map Prod.fst).nodup_iff.mpr d.sorted.nodup_keys
      exact ⟨entries, hentries, (hstored entries .empty d).mpr
        ⟨⟨hnodup, fun _ _ => rfl⟩, (Dict.ofList_of_perm hperm).symm⟩⟩

/-- A dictionary that keeps the last value is read from an object and stores the entries in the
order of the members. -/
theorem dict_eq_ok_iff (v : Json) :
    dict parse decode v = .ok d ↔
      ∃ ms, v = .object ms ∧
        ∃ entries, ms.mapM (member parse decode) = .ok entries ∧ d = Dict.ofList entries := by
  cases v with
  | null | bool _ | integer _ | float _ | string _ | array _ =>
    constructor
    · intro h
      cases h
    · rintro ⟨ms, h, -⟩
      cases h
  | object ms =>
    have hread : dict parse decode (.object ms) = .ok d ↔
        members parse decode (fun (d : Dict κ α) key a => .ok (d.insert key a)) Dict.empty ms =
          .ok d := by
      show (members parse decode _ Dict.empty ms >>= fun d => .ok d) = .ok d ↔ _
      rw [bind_eq_ok_iff]
      simp
    have hstored : ∀ (entries : List (κ × α)) (d : Dict κ α),
        entries.foldlM (fun d entry => (.ok (d.insert entry.1 entry.2) : Except Mismatch _)) d =
          .ok (entries.foldl (fun d entry => d.insert entry.1 entry.2) d) := by
      intro entries
      induction entries with
      | nil => exact fun d => rfl
      | cons entry rest ih => exact fun d => ih _
    rw [hread, members_eq_ok_iff]
    constructor
    · rintro ⟨entries, hentries, hfold⟩
      rw [hstored] at hfold
      cases hfold
      exact ⟨ms, rfl, entries, hentries, rfl⟩
    · rintro ⟨_, ⟨⟩, entries, hentries, rfl⟩
      exact ⟨entries, hentries, hstored entries .empty⟩

/-- It collects members with different names, if a name is the text of its key. -/
theorem collects_of_dict {textOf : κ → String}
    (htext : ∀ raw key, parse raw = .ok key → textOf key = raw)
    (hnames : (ms.map Prod.fst).Nodup) (h : dict parse decode (.object ms) = .ok d) :
    Collects parse decode ms d := by
  obtain ⟨_, ⟨⟩, entries, hentries, rfl⟩ := (dict_eq_ok_iff _).mp h
  have hkeys : ms.Pairwise fun m m' => ∀ key, parse m.1 = .ok key → parse m'.1 ≠ .ok key := by
    rw [List.Nodup, List.pairwise_map] at hnames
    refine hnames.imp fun {m m'} hne key hkey hkey' => hne ?_
    rw [← htext m.1 key hkey, htext m'.1 key hkey']
  have hnodup := (nodup_keys_iff hentries).mpr hkeys
  exact ⟨entries, hentries, (Dict.toList_ofList_perm hnodup).symm⟩

end Dictionaries

section Written

variable {κ α : Type} [Key κ] {textOf : κ → String} {encode : α → Json}
  {parse : String → Except Failure κ} {decode : Decoder Json α}

omit [Key κ] in
/-- Texts that are read back tell keys apart. -/
theorem text_injective_of_parse (hparse : ∀ k, parse (textOf k) = .ok k) {k l : κ}
    (h : textOf k = textOf l) : k = l := by
  have hk := hparse k
  rw [h, hparse] at hk
  exact (Except.ok.inj hk).symm

/-- The members of the object that a dictionary is written as are read as its entries. -/
theorem collects_jsonMembers (hparse : ∀ k, parse (textOf k) = .ok k)
    (hdecode : ∀ a, decode (encode a) = .ok a) (d : Dict κ α) :
    Collects parse decode (d.jsonMembers textOf encode) d := by
  obtain ⟨entries, hentries, hperm⟩ :=
    d.jsonMembers_eq_map textOf encode (text_injective_of_parse hparse)
  refine ⟨entries, ?_, hperm⟩
  rw [hentries]
  exact mapM_map_of_forall (fun entry =>
    (member_eq_ok_iff _ entry).mpr ⟨hparse entry.1, hdecode entry.2⟩) entries

variable [DecidableEq κ]

/-- A dictionary that was written is read back, one value for each key. -/
theorem dict_toJson (hparse : ∀ k, parse (textOf k) = .ok k)
    (hdecode : ∀ a, decode (encode a) = .ok a) (d : Dict κ α) :
    dict parse decode (d.toJson textOf encode) = .ok d := by
  obtain ⟨entries, hentries, hperm⟩ := collects_jsonMembers hparse hdecode d
  exact (dict_eq_ok_iff _).mpr ⟨_, rfl, entries, hentries, (Dict.ofList_of_perm hperm).symm⟩

/-- A dictionary that was written has no key twice and is read back. -/
theorem uniqueDict_toJson (what : String) (hparse : ∀ k, parse (textOf k) = .ok k)
    (hdecode : ∀ a, decode (encode a) = .ok a) (d : Dict κ α) :
    uniqueDict what textOf parse decode (d.toJson textOf encode) = .ok d :=
  (uniqueDict_eq_ok_iff what textOf _).mpr ⟨_, rfl, collects_jsonMembers hparse hdecode d⟩

end Written

end Decoder


end GuardedThings
