import GuardedThings.Permission
import GuardedThings.Proofs.Wire.Records
import GuardedThings.ResourceKey
import GuardedThings.Subject

/-!
# Texts read back

Pointers and resource keys are written as text and parsed again. Escaping
leaves no slash in a segment (`Pointer.slash_notMem_escape`), so the text of a
pointer splits at its slashes into its escaped segments
(`Pointer.split_segments`), and unescaping gives back each of them
(`Pointer.unescape_escape`). A resource type has no colon, so a key is cut
where its type ends. The other small types are texts that are kept as they
are, or numbers.
-/

set_option autoImplicit false

namespace GuardedThings

/-! ## Pointers -/

namespace Pointer

/-- A character that is no tilde stands for itself. -/
theorem unescape_cons {c : Char} (h : c ≠ '~') (rest : List Char) :
    unescape (c :: rest) = (unescape rest).map (c :: ·) := by
  rw [unescape.eq_def]
  split <;> simp_all

/-- Escaping is undone exactly. -/
theorem unescape_escape (cs : List Char) : unescape (escape cs) = some cs := by
  induction cs with
  | nil => rfl
  | cons c rest ih =>
    by_cases htilde : c = '~'
    · subst htilde
      simp [escape, unescape, ih]
    · by_cases hslash : c = '/'
      · subst hslash
        simp [escape, unescape, ih]
      · have hc : escape (c :: rest) = c :: escape rest := by
          simp [escape, htilde, hslash]
        rw [hc, unescape_cons htilde, ih]
        rfl

/-- An escaped name has no slash. -/
theorem slash_notMem_escape (cs : List Char) : '/' ∉ escape cs := by
  induction cs with
  | nil => exact List.not_mem_nil
  | cons c rest ih =>
    by_cases htilde : c = '~'
    · simp [escape, htilde, ih]
    · by_cases hslash : c = '/'
      · simp [escape, hslash, ih]
      · simp [escape, htilde, hslash, ih, Ne.symm hslash]

/-- A name that is not empty is written as something. -/
theorem escape_ne_nil {segment : String} (h : segment ≠ "") : escape segment.toList ≠ [] := by
  intro hnil
  have hback := unescape_escape segment.toList
  rw [hnil] at hback
  have hempty : segment.toList = [] := (Option.some.inj hback).symm
  exact h (String.toList_eq_nil_iff.mp hempty)

/-- The text of segments splits into the escaped segments, after the empty text before the first
slash. -/
theorem split_segments (segments : List String) :
    Text.split '/' (segments.flatMap fun segment => '/' :: escape segment.toList) =
      [] :: segments.map fun segment => escape segment.toList := by
  induction segments with
  | nil => rfl
  | cons segment rest ih =>
    have hfirst : Text.split '/' (escape segment.toList ++
        rest.flatMap fun segment => '/' :: escape segment.toList) =
          escape segment.toList :: rest.map fun segment => escape segment.toList := by
      cases rest with
      | nil =>
        rw [List.flatMap_nil, List.append_nil]
        exact Text.split_of_not_mem (slash_notMem_escape _)
      | cons next more =>
        have hsplit : Text.split '/' (escape next.toList ++
            more.flatMap fun segment => '/' :: escape segment.toList) =
              (next :: more).map fun segment => escape segment.toList := by
          rw [List.flatMap_cons, List.cons_append, Text.split, if_pos rfl] at ih
          exact (List.cons.inj ih).2
        rw [List.flatMap_cons, List.cons_append,
          Text.split_append_sep (slash_notMem_escape _), hsplit]
    rw [List.flatMap_cons, List.cons_append, Text.split, if_pos rfl, hfirst]
    rfl

/-- Escaped names are read back one by one. -/
theorem mapM_unescape_escape (segments : List String) :
    (segments.map fun segment => escape segment.toList).mapM unescape =
      some (segments.map String.toList) := by
  induction segments with
  | nil => rfl
  | cons segment rest ih =>
    rw [List.map_cons, List.mapM_cons, unescape_escape, ih]
    rfl

/-- A pointer is made of its segments. -/
theorem ofSegments_segments (p : Pointer) : ofSegments p.segments = p := by
  obtain ⟨segments, hnoEmpty⟩ := p
  unfold ofSegments
  congr 1
  refine List.filter_eq_self.mpr fun segment hmem => ?_
  simp only [ne_eq, decide_not, Bool.not_eq_true', decide_eq_false_iff_not]
  rintro rfl
  exact hnoEmpty hmem

/-- The characters of a pointer are read back as the pointer. -/
theorem ofChars?_chars (p : Pointer) : ofChars? p.chars = some p := by
  by_cases hroot : p.segments = []
  · have hp : p = root := by
      obtain ⟨segments, _⟩ := p
      cases hroot
      rfl
    subst hp
    rfl
  · have hpieces : (Text.split '/' p.chars).filter (fun piece => !piece.isEmpty) =
        p.segments.map fun segment => escape segment.toList := by
      rw [chars, if_neg hroot, split_segments, List.filter_cons_of_neg (by simp)]
      refine List.filter_eq_self.mpr fun piece hmem => ?_
      obtain ⟨segment, hsegment, rfl⟩ := List.mem_map.mp hmem
      have hne : segment ≠ "" := fun heq => p.noEmpty (heq ▸ hsegment)
      simp [escape_ne_nil hne]
    unfold ofChars?
    simp only [hpieces, mapM_unescape_escape, Option.bind_eq_bind, Option.bind_some,
      List.map_map]
    have hid : p.segments.map (String.ofList ∘ String.toList) = p.segments := by
      simp [Function.comp_def]
    rw [hid, ofSegments_segments]
    rfl

/-- The text of a pointer is read back as the pointer. -/
theorem parse_text (p : Pointer) : parse p.text = .ok p := by
  unfold parse text
  rw [String.toList_ofList, ofChars?_chars]

/-- Pointers with the same text are the same. -/
theorem text_injective {p q : Pointer} (h : p.text = q.text) : p = q := by
  have hp := parse_text p
  rw [h, parse_text] at hp
  exact (Except.ok.inj hp).symm

end Pointer

/-! ## Resource keys -/

namespace ResourceKey

/-- There is no colon in the type of a resource key. -/
theorem colon_notMem_type (k : ResourceKey) : ':' ∉ k.type.toList := by
  intro hmem
  have hword := k.wellFormed
  unfold isType at hword
  rw [Bool.and_eq_true, List.all_eq_true] at hword
  have hchar := hword.2 ':' hmem
  exact absurd hchar (by decide)

/-- The text of a resource key is read back as the key. -/
theorem parse_text (k : ResourceKey) : parse k.text = .ok k := by
  have hcut : Text.cut ':' k.text.toList = some (k.type.toList, k.path.chars) := by
    have htext : k.text.toList = k.type.toList ++ ':' :: k.path.chars := by
      simp [text, Pointer.text]
    rw [htext, Text.cut_append_sep (colon_notMem_type k)]
  unfold parse
  rw [hcut]
  simp only [Pointer.ofChars?_chars, String.ofList_toList]
  rw [dif_pos k.wellFormed]

/-- Keys with the same text are the same. -/
theorem text_injective {k l : ResourceKey} (h : k.text = l.text) : k = l := by
  have hk := parse_text k
  rw [h, parse_text] at hk
  exact (Except.ok.inj hk).symm

end ResourceKey

/-! ## Lists and sets -/

/-- A list is read back element by element. -/
theorem decode_list_map {α : Type} {write : α → Json} {read : Decoder Json α}
    (h : ∀ a, read (write a) = .ok a) (as : List α) :
    Decoder.list read (.array (as.map write)) = .ok as := by
  show (do let values ← (as.map write).mapM read; Decoder.requireClosed true; return values) = _
  rw [mapM_map_of_forall h]
  rfl

/-- The set of the elements of a set is the set. -/
theorem KeySet.ofList_toList {κ : Type} [Key κ] [DecidableEq κ] (s : KeySet κ) :
    ofList s.toList = s := by
  refine ext_contains fun k => ?_
  rw [contains_ofList, Bool.eq_iff_iff, decide_eq_true_iff, contains_iff_mem]

/-! ## Small types -/

/-- A text that can be read is decoded as what it is read as. -/
theorem decode_parsed_string {α : Type} {parse : String → Except Failure α} {text : String} {a : α}
    (h : parse text = .ok a) : Decoder.parsed parse (.string text : Json) = .ok a := by
  have hstring : (Decoder.string (.string text : Json) : Except Mismatch String) = .ok text := rfl
  unfold Decoder.parsed
  rw [hstring]
  simp only [bind, Except.bind, h]

/-- A word is read back from its digits. -/
theorem decode_word_ofWord (n : UInt64) : Decoder.word (Json.ofWord n) = .ok n := by
  have hrange : (0 : Int) ≤ (n.toNat : Int) ∧ (n.toNat : Int) < (UInt64.size : Nat) := by
    have := n.toNat_lt
    constructor
    · omega
    · simp only [UInt64.size]
      omega
  have hnat : Decoder.natBelow UInt64.size (Json.ofWord n) = .ok n.toNat := by
    show (if (0 : Int) ≤ (n.toNat : Int) ∧ (n.toNat : Int) < (UInt64.size : Nat) then
      (.ok (n.toNat : Int).toNat : Except Mismatch Nat) else .error .invalidValue) = _
    rw [if_pos hrange]
    rfl
  unfold Decoder.word
  rw [hnat]
  exact congrArg Except.ok UInt64.ofNat_toNat

instance : LawfulWire String := ⟨fun _ => rfl⟩

instance : LawfulWire UInt64 := ⟨decode_word_ofWord⟩

instance : LawfulWire Json := ⟨fun _ => rfl⟩

instance : LawfulWire JsonObject := ⟨fun _ => rfl⟩

instance : LawfulWire Revision where
  decode_encode r := by
    show (do return (⟨← Decoder.word (Json.ofWord r.number)⟩ : Revision)) = _
    rw [decode_word_ofWord]
    rfl

instance : LawfulWire Timestamp where
  decode_encode t := by
    show (do return (⟨← Decoder.word (Json.ofWord t.millis)⟩ : Timestamp)) = _
    rw [decode_word_ofWord]
    rfl

instance : LawfulWire Lifecycle where
  decode_encode l := by
    cases l with
    | active => rfl
    | deleted => rfl

instance : LawfulWire Pointer := ⟨fun p => decode_parsed_string p.parse_text⟩

instance (kind : EntityKind) : LawfulWire (EntityId kind) :=
  ⟨fun id => decode_parsed_string id.parse_text⟩

instance : LawfulWire ResourceKey := ⟨fun k => decode_parsed_string k.parse_text⟩

instance : LawfulWire SubjectId := ⟨fun id => decode_parsed_string id.parse_text⟩

/-- The names of permissions are read back as the permissions. -/
theorem Permissions.parse_names (ps : Permissions) : Permissions.parse ps.names = .ok ps := by
  unfold Permissions.parse Permissions.names
  rw [mapM_map_of_forall Permission.parse_name]
  show Except.ok (KeySet.ofList ps.toList) = _
  rw [KeySet.ofList_toList]

instance : LawfulWire Permissions where
  decode_encode ps := by
    have hlist : Decoder.list Decoder.string (Json.ofStrings ps.names) = .ok ps.names :=
      decode_list_map (fun text => (rfl : Decoder.string (Json.string text) = .ok text)) ps.names
    show (do
      match Permissions.parse (← Decoder.list Decoder.string (Json.ofStrings ps.names)) with
      | .ok ps => .ok ps
      | .error failure => .error (.refused failure)) = (Except.ok ps : Except Mismatch Permissions)
    rw [hlist]
    show (match Permissions.parse ps.names with
      | .ok ps => .ok ps
      | .error failure => .error (.refused failure)) = (Except.ok ps : Except Mismatch Permissions)
    rw [Permissions.parse_names]

end GuardedThings
