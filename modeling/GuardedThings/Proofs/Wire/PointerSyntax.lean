import GuardedThings.Proofs.Wire.Texts

/-!
# The syntax of pointers and resource keys

Which texts are read as pointers and as keys, and as which. A text is taken
apart at its slashes, the empty pieces are dropped, and the others are segments
with their escapes undone. The escapes of a piece can be undone if every tilde in
it is followed by what may follow it (`Pointer.isSome_unescape_iff`), and then the
piece is the escaped segment, because it has no slash of its own
(`Pointer.escape_unescape`). So a text spells a pointer exactly if its pieces that
are not empty are the escaped segments of the pointer
(`Pointer.ofChars?_eq_some_iff`), and two texts spell the same pointer exactly if
these pieces are the same (`Pointer.eq_iff_pieces`).

A key is cut at its first colon, and what stands before it has to be a type
(`ResourceKey.parse_eq_ok_iff`).
-/

set_option autoImplicit false

namespace GuardedThings

/-! ## Separators -/

namespace Text

variable {sep : Char}

/-- The pieces between separators have none. -/
theorem sep_notMem_of_mem_split {cs piece : List Char} (h : piece ∈ split sep cs) :
    sep ∉ piece := by
  induction cs generalizing piece with
  | nil =>
    cases List.mem_singleton.mp h
    exact List.not_mem_nil
  | cons c rest ih =>
    unfold split at h
    by_cases hc : c = sep
    · rw [if_pos hc] at h
      rcases List.mem_cons.mp h with rfl | hmore
      · exact List.not_mem_nil
      · exact ih hmore
    · rw [if_neg hc] at h
      have hne : sep ≠ c := Ne.symm hc
      cases hsplit : split sep rest with
      | nil =>
        rw [hsplit] at h
        cases List.mem_singleton.mp h
        exact List.not_mem_cons_of_ne_of_not_mem hne List.not_mem_nil
      | cons first more =>
        rw [hsplit] at h ih
        rcases List.mem_cons.mp h with rfl | hmore
        · exact List.not_mem_cons_of_ne_of_not_mem hne (ih List.mem_cons_self)
        · exact ih (List.mem_cons_of_mem _ hmore)

/-- A text is cut at the first separator. -/
theorem cut_eq_some_iff {cs before after : List Char} :
    cut sep cs = some (before, after) ↔ cs = before ++ sep :: after ∧ sep ∉ before := by
  constructor
  · intro h
    induction cs generalizing before with
    | nil => cases h
    | cons c rest ih =>
      unfold cut at h
      by_cases hc : c = sep
      · rw [if_pos hc] at h
        cases h
        exact ⟨by rw [hc, List.nil_append], List.not_mem_nil⟩
      · rw [if_neg hc] at h
        obtain ⟨⟨before', after'⟩, hcut, heq⟩ := Option.map_eq_some_iff.mp h
        cases heq
        obtain ⟨rfl, hbefore⟩ := ih hcut
        exact ⟨rfl, List.not_mem_cons_of_ne_of_not_mem (Ne.symm hc) hbefore⟩
  · rintro ⟨rfl, hbefore⟩
    exact cut_append_sep hbefore

end Text

/-! ## Escapes -/

namespace Pointer

/-- In this piece of a text, a `0` or a `1` follows every tilde. -/
def TildesPaired (piece : List Char) : Prop :=
  ∀ front back, piece = front ++ '~' :: back → back.head? = some '0' ∨ back.head? = some '1'

/-- There is no tilde in an empty text. -/
theorem tildesPaired_nil : TildesPaired [] := by
  intro front back h
  cases List.append_eq_nil_iff.mp h.symm with
  | intro _ hback => cases hback

/-- A tilde is followed by one of its two digits, and so are those in the rest. -/
theorem tildesPaired_cons (c : Char) (rest : List Char) :
    TildesPaired (c :: rest) ↔
      (c = '~' → rest.head? = some '0' ∨ rest.head? = some '1') ∧ TildesPaired rest := by
  constructor
  · intro h
    refine ⟨?_, fun front back heq => h (c :: front) back (congrArg _ heq)⟩
    rintro rfl
    exact h [] rest rfl
  · rintro ⟨hfirst, hrest⟩ front back heq
    rcases List.cons_eq_append_iff.mp heq with ⟨rfl, hcons⟩ | ⟨front', rfl, htail⟩
    · cases hcons
      exact hfirst rfl
    · exact hrest front' back htail

/-- A paired tilde says nothing about the rest. -/
theorem tildesPaired_pair {c : Char} (h : c = '0' ∨ c = '1') (rest : List Char) :
    TildesPaired ('~' :: c :: rest) ↔ TildesPaired rest := by
  rw [tildesPaired_cons, tildesPaired_cons]
  constructor
  · exact fun hpaired => hpaired.2.2
  · intro hrest
    rcases h with rfl | rfl
    · exact ⟨fun _ => .inl rfl, nofun, hrest⟩
    · exact ⟨fun _ => .inr rfl, nofun, hrest⟩

/-- What follows an unpaired tilde is not read. -/
theorem unescape_tilde {tail : List Char} (hzero : ∀ rest, tail = '0' :: rest → False)
    (hone : ∀ rest, tail = '1' :: rest → False) : unescape ('~' :: tail) = none := by
  rw [unescape]
  · exact hzero
  · exact hone

/-- The escapes of a piece can be undone exactly if all its tildes are paired. -/
theorem isSome_unescape_iff (piece : List Char) :
    (unescape piece).isSome = true ↔ TildesPaired piece := by
  induction piece using unescape.induct with
  | case1 => exact ⟨fun _ => tildesPaired_nil, fun _ => rfl⟩
  | case2 rest ih =>
    rw [tildesPaired_pair (.inl rfl), ← ih, unescape, Option.isSome_map]
  | case3 rest ih =>
    rw [tildesPaired_pair (.inr rfl), ← ih, unescape, Option.isSome_map]
  | case4 tail hzero hone =>
    rw [unescape_tilde hzero hone]
    refine ⟨fun hsome => absurd hsome Bool.false_ne_true, fun hpaired => ?_⟩
    rcases ((tildesPaired_cons _ _).mp hpaired).1 rfl with hhead | hhead
    · obtain ⟨rest, rfl⟩ := List.head?_eq_some_iff.mp hhead
      exact absurd rfl (hzero rest)
    · obtain ⟨rest, rfl⟩ := List.head?_eq_some_iff.mp hhead
      exact absurd rfl (hone rest)
  | case5 c rest _ _ htilde ih =>
    rw [unescape_cons htilde, Option.isSome_map, ih, tildesPaired_cons]
    exact ⟨fun h => ⟨fun heq => absurd heq htilde, h⟩, And.right⟩

/-- A piece without a slash is what its text is escaped to. -/
theorem escape_unescape {piece text : List Char} (h : unescape piece = some text)
    (hslash : '/' ∉ piece) : escape text = piece := by
  induction piece using unescape.induct generalizing text with
  | case1 =>
    cases h
    rfl
  | case2 rest ih =>
    obtain ⟨inner, hinner, rfl⟩ := Option.map_eq_some_iff.mp h
    have hrest : '/' ∉ rest := fun hmem => hslash (.tail _ (.tail _ hmem))
    rw [escape, if_pos rfl, ih hinner hrest]
  | case3 rest ih =>
    obtain ⟨inner, hinner, rfl⟩ := Option.map_eq_some_iff.mp h
    have hrest : '/' ∉ rest := fun hmem => hslash (.tail _ (.tail _ hmem))
    rw [escape, if_neg (by decide), if_pos rfl, ih hinner hrest]
  | case4 tail hzero hone =>
    rw [unescape_tilde hzero hone] at h
    cases h
  | case5 c rest _ _ htilde ih =>
    rw [unescape_cons htilde] at h
    obtain ⟨inner, hinner, rfl⟩ := Option.map_eq_some_iff.mp h
    have hc : c ≠ '/' := fun heq => hslash (heq ▸ List.mem_cons_self)
    have hrest : '/' ∉ rest := fun hmem => hslash (.tail _ hmem)
    rw [escape, if_neg htilde, if_neg hc, ih hinner hrest]

/-- Escaping is two replacements, of tildes first: those of slashes bring tildes of their own. -/
theorem escape_eq_flatMap (cs : List Char) :
    escape cs = (cs.flatMap fun c => if c = '~' then ['~', '0'] else [c]).flatMap
      fun c => if c = '/' then ['~', '1'] else [c] := by
  induction cs with
  | nil => rfl
  | cons c rest ih =>
    rw [List.flatMap_cons, List.flatMap_append, ← ih, escape]
    by_cases htilde : c = '~'
    · rw [if_pos htilde, if_pos htilde]
      rfl
    · by_cases hslash : c = '/'
      · rw [if_neg htilde, if_pos hslash, if_neg htilde, List.flatMap_singleton, if_pos hslash]
        rfl
      · rw [if_neg htilde, if_neg hslash, if_neg htilde, List.flatMap_singleton, if_neg hslash]
        rfl

/-! ## Pointers -/

/-- The pieces of a text that are not empty. -/
def pieces (cs : List Char) : List (List Char) :=
  (Text.split '/' cs).filter fun piece => !piece.isEmpty

/-- In every piece of a text between slashes, the tildes are paired. -/
def Acceptable (cs : List Char) : Prop := ∀ piece ∈ Text.split '/' cs, TildesPaired piece

/-- The pieces are what stands between slashes, unless it is empty. -/
theorem mem_pieces {cs piece : List Char} :
    piece ∈ pieces cs ↔ piece ∈ Text.split '/' cs ∧ piece ≠ [] := by
  unfold pieces
  rw [List.mem_filter, Bool.not_eq_true', List.isEmpty_eq_false_iff]

/-- The empty pieces are acceptable anyhow. -/
theorem acceptable_iff_pieces (cs : List Char) :
    Acceptable cs ↔ ∀ piece ∈ pieces cs, TildesPaired piece := by
  constructor
  · exact fun h piece hmem => h piece (mem_pieces.mp hmem).1
  · intro h piece hmem
    by_cases hempty : piece = []
    · rw [hempty]
      exact tildesPaired_nil
    · exact h piece (mem_pieces.mpr ⟨hmem, hempty⟩)

/-- Pieces are read iff their tildes are paired. -/
theorem isSome_mapM_unescape_iff (pieces : List (List Char)) :
    (pieces.mapM unescape).isSome = true ↔ ∀ piece ∈ pieces, TildesPaired piece := by
  induction pieces with
  | nil => exact ⟨fun _ => nofun, fun _ => rfl⟩
  | cons piece rest ih =>
    rw [List.forall_mem_cons, ← ih, ← isSome_unescape_iff, List.mapM_cons]
    cases unescape piece with
    | none => exact ⟨nofun, nofun⟩
    | some text =>
      cases rest.mapM unescape with
      | none => exact ⟨nofun, nofun⟩
      | some texts => exact ⟨fun _ => ⟨rfl, rfl⟩, fun _ => rfl⟩

/-- Pieces without slashes that were read are written back. -/
theorem map_escape_of_mapM {pieces texts : List (List Char)}
    (h : pieces.mapM unescape = some texts) (hslash : ∀ piece ∈ pieces, '/' ∉ piece) :
    texts.map escape = pieces := by
  induction pieces generalizing texts with
  | nil =>
    cases h
    rfl
  | cons piece rest ih =>
    rw [List.mapM_cons] at h
    obtain ⟨text, htext, h⟩ := Option.bind_eq_some_iff.mp h
    obtain ⟨more, hmore, heq⟩ := Option.bind_eq_some_iff.mp h
    cases heq
    rw [List.map_cons, escape_unescape htext (hslash piece List.mem_cons_self),
      ih hmore fun piece' hmem => hslash piece' (List.mem_cons_of_mem _ hmem)]

/-- A pointer is read piece by piece. -/
theorem ofChars?_eq (cs : List Char) :
    ofChars? cs =
      ((pieces cs).mapM unescape).map fun texts => ofSegments (texts.map String.ofList) := by
  rw [Option.map_eq_bind]
  rfl

/-- A text is read as a pointer exactly if it is acceptable. -/
theorem isSome_ofChars?_iff (cs : List Char) :
    (ofChars? cs).isSome = true ↔ Acceptable cs := by
  rw [ofChars?_eq, Option.isSome_map, isSome_mapM_unescape_iff, acceptable_iff_pieces]

/-- A text is read as the pointer whose escaped segments are its pieces that are not empty. -/
theorem ofChars?_eq_some_iff (cs : List Char) (p : Pointer) :
    ofChars? cs = some p ↔ pieces cs = p.segments.map fun segment => escape segment.toList := by
  rw [ofChars?_eq]
  constructor
  · intro h
    obtain ⟨texts, htexts, rfl⟩ := Option.map_eq_some_iff.mp h
    have hslash : ∀ piece ∈ pieces cs, '/' ∉ piece := fun piece hmem =>
      Text.sep_notMem_of_mem_split (mem_pieces.mp hmem).1
    have hpieces := map_escape_of_mapM htexts hslash
    have hkept : (texts.map String.ofList).filter (fun segment => segment ≠ "") =
        texts.map String.ofList := by
      refine List.filter_eq_self.mpr fun segment hmem => decide_eq_true ?_
      obtain ⟨text, htext, rfl⟩ := List.mem_map.mp hmem
      intro hempty
      -- Only the empty piece is unescaped to an empty text.
      have hnil : text = [] := String.ofList_eq_empty_iff.mp hempty
      rw [hnil] at htext
      have hpiece : escape [] ∈ pieces cs := hpieces ▸ List.mem_map_of_mem htext
      exact (mem_pieces.mp hpiece).2 rfl
    show pieces cs = ((texts.map String.ofList).filter fun segment => segment ≠ "").map _
    rw [hkept, List.map_map, ← hpieces]
    refine List.map_congr_left fun text _ => ?_
    exact congrArg escape String.toList_ofList.symm
  · intro h
    rw [h, mapM_unescape_escape, Option.map_some, List.map_map]
    have hid : p.segments.map (String.ofList ∘ String.toList) = p.segments := by
      simp [Function.comp_def]
    rw [hid, ofSegments_segments]

/-- Reading a pointer fails only where its characters do. -/
theorem parse_eq_ok_iff_ofChars? (raw : String) (p : Pointer) :
    parse raw = .ok p ↔ ofChars? raw.toList = some p := by
  unfold parse
  cases ofChars? raw.toList with
  | none => exact ⟨nofun, nofun⟩
  | some q =>
    constructor
    · intro h
      cases h
      rfl
    · intro h
      cases h
      rfl

/-- A text is read as some pointer iff the tildes are paired in every piece of it. -/
theorem exists_parse_iff (raw : String) :
    (∃ p, parse raw = .ok p) ↔ Acceptable raw.toList := by
  rw [← isSome_ofChars?_iff, Option.isSome_iff_exists]
  simp only [parse_eq_ok_iff_ofChars?]

/-- Two texts are read as the same pointer exactly if their pieces that are not empty are the
same. -/
theorem eq_iff_pieces {raw raw' : String} {p q : Pointer} (hp : parse raw = .ok p)
    (hq : parse raw' = .ok q) : p = q ↔ pieces raw.toList = pieces raw'.toList := by
  rw [parse_eq_ok_iff_ofChars?] at hp hq
  have hpieces := (ofChars?_eq_some_iff _ p).mp hp
  constructor
  · rintro rfl
    rw [hpieces, (ofChars?_eq_some_iff _ p).mp hq]
  · intro hsame
    have hread := (ofChars?_eq_some_iff _ p).mpr (hsame.symm.trans hpieces)
    exact Option.some.inj (hread.symm.trans hq)

end Pointer

/-! ## Resource keys -/

namespace ResourceKey

/-- The characters of resource types. -/
theorem isTypeChar_iff (c : Char) :
    isTypeChar c = true ↔ ('a' ≤ c ∧ c ≤ 'z') ∨ ('0' ≤ c ∧ c ≤ '9') ∨ c = '_' ∨ c = '-' := by
  unfold isTypeChar Text.isLowerLetter Char.isDigit
  simp only [Bool.or_eq_true, Bool.and_eq_true, decide_eq_true_eq, or_assoc, Char.le_def, ge_iff_le]

/-- A type is a text that is not empty and has only the characters of types. -/
theorem isType_ofList_iff (cs : List Char) :
    isType (String.ofList cs) = true ↔ cs ≠ [] ∧ ∀ c ∈ cs, isTypeChar c = true := by
  unfold isType
  rw [Bool.and_eq_true, decide_eq_true_eq, List.all_eq_true, String.toList_ofList, Ne,
    String.ofList_eq_empty_iff]

/-- A text is read as the key whose type stands before the first colon, and whose path is read from
what follows it. -/
theorem parse_eq_ok_iff (raw : String) (k : ResourceKey) :
    parse raw = .ok k ↔ ∃ path, raw.toList = k.type.toList ++ ':' :: path ∧
      Pointer.ofChars? path = some k.path := by
  constructor
  · intro h
    unfold parse at h
    split at h
    · cases h
    · rename_i before after hcut
      split at h
      · cases h
      · rename_i path hpath
        split at h
        · cases h
          obtain ⟨hraw, -⟩ := Text.cut_eq_some_iff.mp hcut
          exact ⟨after, by rw [String.toList_ofList, hraw], hpath⟩
        · cases h
  · rintro ⟨path, hraw, hpath⟩
    have hcut : Text.cut ':' raw.toList = some (k.type.toList, path) :=
      Text.cut_eq_some_iff.mpr ⟨hraw, colon_notMem_type k⟩
    unfold parse
    rw [hcut]
    simp only [hpath, String.ofList_toList]
    rw [dif_pos k.wellFormed]

/-- A text is read as a key exactly if a type stands before its first colon and an acceptable text
after it. -/
theorem exists_parse_iff (raw : String) :
    (∃ k, parse raw = .ok k) ↔ ∃ type path, raw.toList = type ++ ':' :: path ∧ ':' ∉ type ∧
      type ≠ [] ∧ (∀ c ∈ type, isTypeChar c = true) ∧ Pointer.Acceptable path := by
  constructor
  · rintro ⟨k, h⟩
    obtain ⟨path, hraw, hpath⟩ := (parse_eq_ok_iff raw k).mp h
    have hword := k.wellFormed
    rw [← String.ofList_toList (s := k.type), isType_ofList_iff] at hword
    exact ⟨k.type.toList, path, hraw, colon_notMem_type k, hword.1, hword.2,
      (Pointer.isSome_ofChars?_iff path).mp (Option.isSome_of_eq_some hpath)⟩
  · rintro ⟨type, path, hraw, -, hne, hchars, hpath⟩
    obtain ⟨p, hp⟩ := Option.isSome_iff_exists.mp ((Pointer.isSome_ofChars?_iff path).mpr hpath)
    refine ⟨⟨String.ofList type, p, (isType_ofList_iff type).mpr ⟨hne, hchars⟩⟩,
      (parse_eq_ok_iff raw _).mpr ⟨path, ?_, hp⟩⟩
    rw [hraw, String.toList_ofList]

end ResourceKey

/-! ## Pointers and keys -/

/-- Which texts are pointers and which are resource keys; that every pointer and every key, however
it was built, is read back from its text; and that texts are read as the same exactly if what they
are read as has the same text, which for pointers is a matter of the pieces that are not empty. -/
theorem pointer_and_key_syntax :
    (∀ raw, (∃ p, Pointer.parse raw = .ok p) ↔
      ∀ piece ∈ Text.split '/' raw.toList, Pointer.TildesPaired piece) ∧
    (∀ raw, (∃ k, ResourceKey.parse raw = .ok k) ↔
      ∃ type path, raw.toList = type ++ ':' :: path ∧ ':' ∉ type ∧ type ≠ [] ∧
        (∀ c ∈ type, ('a' ≤ c ∧ c ≤ 'z') ∨ ('0' ≤ c ∧ c ≤ '9') ∨ c = '_' ∨ c = '-') ∧
        ∃ p, Pointer.parse (String.ofList path) = .ok p) ∧
    (∀ p : Pointer, Pointer.parse p.text = .ok p) ∧
    (∀ k : ResourceKey, ResourceKey.parse k.text = .ok k) ∧
    (∀ raw raw' p q, Pointer.parse raw = .ok p → Pointer.parse raw' = .ok q →
      (Pointer.parse raw = Pointer.parse raw' ↔ p.text = q.text) ∧
        (Pointer.parse raw = Pointer.parse raw' ↔
          Pointer.pieces raw.toList = Pointer.pieces raw'.toList)) ∧
    ∀ raw raw' k l, ResourceKey.parse raw = .ok k → ResourceKey.parse raw' = .ok l →
      (ResourceKey.parse raw = ResourceKey.parse raw' ↔ k.text = l.text) := by
  refine ⟨Pointer.exists_parse_iff, ?_, Pointer.parse_text, ResourceKey.parse_text, ?_, ?_⟩
  · intro raw
    rw [ResourceKey.exists_parse_iff]
    simp only [ResourceKey.isTypeChar_iff, Pointer.exists_parse_iff, String.toList_ofList]
  · intro raw raw' p q hp hq
    have hpieces := Pointer.eq_iff_pieces hp hq
    rw [hp, hq, Except.ok.injEq]
    exact ⟨⟨congrArg Pointer.text, Pointer.text_injective⟩, hpieces⟩
  · intro raw raw' k l hk hl
    rw [hk, hl, Except.ok.injEq]
    exact ⟨congrArg ResourceKey.text, ResourceKey.text_injective⟩

/-- A pointer with a slash and a tilde in a segment. -/
def drawer : Pointer := .ofSegments ["", "desk", "nuts/bolts~"]

/-- The drawer is spelled with one slash more or less; a tilde at the end of a piece and a type with
an upper-case letter are refused. -/
theorem pointer_and_key_syntax_drawer :
    Pointer.parse drawer.text = .ok drawer ∧
      Pointer.parse "desk//nuts~1bolts~0/" = Pointer.parse drawer.text ∧
      (¬∃ p, Pointer.parse "desk~/0" = .ok p) ∧
      (∃ k, ResourceKey.parse "spare:desk" = .ok k) ∧
      ¬∃ k, ResourceKey.parse "Spare:desk" = .ok k := by
  obtain ⟨hpointers, hkeys, hread, -, hsame, -⟩ := pointer_and_key_syntax
  have hspelled : Pointer.parse "desk//nuts~1bolts~0/" = .ok drawer := by rfl
  refine ⟨hread drawer, (hsame _ _ drawer drawer hspelled (hread drawer)).1.mpr rfl, ?_, ?_, ?_⟩
  · intro h
    have hpaired := (hpointers _).mp h "desk~".toList (by decide +kernel)
    rcases hpaired "desk".toList [] (by decide) with hhead | hhead
    · cases hhead
    · cases hhead
  · have hword : ∀ c ∈ "spare".toList, ResourceKey.isTypeChar c = true :=
      List.all_eq_true.mp (by decide)
    exact (hkeys _).mpr ⟨"spare".toList, "desk".toList, rfl, by decide, by decide,
      fun c hc => (ResourceKey.isTypeChar_iff c).mp (hword c hc), _, rfl⟩
  · intro h
    obtain ⟨type, path, hraw, -, hne, hchars, -⟩ := (hkeys _).mp h
    cases type with
    | nil => exact hne rfl
    | cons c type =>
      have hfirst : c = 'S' := (List.cons.inj hraw).1.symm
      rw [hfirst] at hchars
      exact absurd (hchars 'S' List.mem_cons_self) (by decide)

end GuardedThings
