import GuardedThings.Proofs.Aggregate.EntityTags
import GuardedThings.Proofs.Wire.PointerSyntax
import GuardedThings.Proofs.Wire.Tags
import Mathlib.Data.List.DropRight
import Mathlib.Data.List.Forall2

/-!
# The syntax of tags and conditional headers

Which texts are read as tags, and as which. Blanks around a tag do not count, and
the quotes may be missing on both sides, but not on one: a quote that is left
over is part of no value (`EntityTag.unquote_eq_iff`). A value without quotes is
not to begin with the mark of a weak tag. So there are three ways to spell a tag
(`EntityTag.Spelled`), and the reader knows no other
(`EntityTag.parse_eq_ok_iff`).

A conditional header is cut at every comma before its elements are read, so no
element has a comma, quoted or not (`TagMatchers.isListable_of_spelled`). Empty
elements are passed over, and the asterisk is an element of its own only where it
stands without quotes and mark (`TagMatcher.Spelled`).
-/

set_option autoImplicit false

namespace GuardedThings

/-! ## Blanks -/

namespace Text

/-- To trim is to drop the blanks in front and then those at the end. -/
theorem trim_eq_rdropWhile (cs : List Char) :
    trim cs = (cs.dropWhile isBlank).rdropWhile isBlank := rfl

/-- Trimming takes characters away at the ends only. -/
theorem trim_sublist (cs : List Char) : (trim cs).Sublist cs :=
  (List.rdropWhile_prefix isBlank _).sublist.trans (List.dropWhile_sublist isBlank)

/-- What was trimmed has no blanks left at its ends. -/
theorem trim_trim (cs : List Char) : trim (trim cs) = trim cs := by
  have hfront : (trim cs).dropWhile isBlank = trim cs := by
    cases htrim : trim cs with
    | nil => rfl
    | cons c rest =>
      -- The first character that is left is the first one behind the blanks.
      have hpre : c :: rest <+: cs.dropWhile isBlank := by
        rw [← htrim]
        exact List.rdropWhile_prefix isBlank _
      obtain ⟨more, hmore⟩ := hpre
      have hblank : isBlank c = false := by
        have hhead := List.head?_dropWhile_not isBlank cs
        rw [← hmore] at hhead
        simpa using hhead
      exact dropWhile_isBlank hblank rest
  rw [trim_eq_rdropWhile (trim cs), hfront, trim_eq_rdropWhile, List.rdropWhile_idempotent]

end Text

/-! ## Tags -/

namespace EntityTag

/-- The ways to write a tag: its value between quotes, as tags are written by the library, or its
value alone, unless that begins with the mark of weak tags. -/
inductive Spelled : List Char → EntityTag → Prop where
  | quoted (tag : EntityTag) : Spelled tag.chars tag
  | bareWeak (value : String) (h : isValue value = true) :
      Spelled ('W' :: '/' :: value.toList) ⟨true, value, h⟩
  | bareStrong (value : String) (h : isValue value = true)
      (unmarked : ¬['W', '/'] <+: value.toList) : Spelled value.toList ⟨false, value, h⟩

/-- There are no quotes in the opaque text of a tag. -/
theorem quote_notMem_value (tag : EntityTag) : '"' ∉ tag.value.toList := by
  have hvalue := tag.wellFormed
  unfold isValue at hvalue
  simp only [Bool.and_eq_true, Bool.not_eq_true', List.contains_eq_mem] at hvalue
  exact of_decide_eq_false hvalue.2

/-- A value is found between two quotes or without any. -/
theorem unquote_eq_iff {value : List Char} (h : '"' ∉ value) (cs : List Char) :
    unquote cs = value ↔ cs = '"' :: value ++ ['"'] ∨ cs = value := by
  constructor
  · intro heq
    cases cs with
    | nil => exact .inr heq
    | cons c rest =>
      by_cases hc : c = '"'
      · subst hc
        have hunquote : unquote ('"' :: rest) =
          if rest.getLast? = some '"' then rest.dropLast else '"' :: rest := rfl
        rw [hunquote] at heq
        split at heq
        · rename_i hlast
          obtain ⟨inner, rfl⟩ := List.getLast?_eq_some_iff.mp hlast
          rw [List.dropLast_concat] at heq
          exact .inl (by rw [heq, List.cons_append])
        · -- A single quote stays, but no value has one.
          rw [← heq] at h
          exact absurd List.mem_cons_self h
      · have hunquote : unquote (c :: rest) = c :: rest := by
          unfold unquote
          split
          · rename_i heq'
            exact absurd (List.cons.inj heq').1 hc
          · rfl
        exact .inr (hunquote ▸ heq)
  · rintro (rfl | rfl)
    · exact unquote_quoted value
    · unfold unquote
      split
      · exact absurd List.mem_cons_self h
      · rfl

/-- The mark of a weak tag is taken off if it is there. -/
theorem splitWeak_cases (cs : List Char) :
    (∃ rest, cs = 'W' :: '/' :: rest ∧ splitWeak cs = (true, rest)) ∨
      (¬['W', '/'] <+: cs ∧ splitWeak cs = (false, cs)) := by
  by_cases hmark : ['W', '/'] <+: cs
  · obtain ⟨rest, rfl⟩ := hmark
    exact .inl ⟨rest, rfl, rfl⟩
  · refine .inr ⟨hmark, ?_⟩
    unfold splitWeak
    split
    · rename_i rest
      exact absurd ⟨rest, rfl⟩ hmark
    · rfl

/-- A tag is read from the mark of weakness and from the text without quotes. -/
theorem ofChars?_eq_some_iff_split (cs : List Char) (tag : EntityTag) :
    ofChars? cs = some tag ↔
      (splitWeak (Text.trim cs)).1 = tag.weak ∧
        unquote (splitWeak (Text.trim cs)).2 = tag.value.toList := by
  obtain ⟨weak, value, hvalue⟩ := tag
  unfold ofChars?
  constructor
  · intro h
    obtain ⟨hword, heq⟩ := Option.dite_none_right_eq_some.mp h
    cases Option.some.inj heq
    exact ⟨rfl, String.toList_ofList.symm⟩
  · rintro ⟨hweak, hunquoted⟩
    have heq : String.ofList (unquote (splitWeak (Text.trim cs)).2) = value := by
      rw [hunquoted, String.ofList_toList]
    simp only [heq, hweak, hvalue, dif_pos]

/-- A text is read as a tag exactly if it spells the tag, blanks around it apart. -/
theorem ofChars?_eq_some_iff (cs : List Char) (tag : EntityTag) :
    ofChars? cs = some tag ↔ Spelled (Text.trim cs) tag := by
  rw [ofChars?_eq_some_iff_split, unquote_eq_iff (quote_notMem_value tag)]
  constructor
  · obtain ⟨weak, value, hvalue⟩ := tag
    rintro ⟨hweak, hspelled⟩
    rcases splitWeak_cases (Text.trim cs) with ⟨rest, htrim, hsplit⟩ | ⟨hunmarked, hsplit⟩
    · rw [hsplit] at hweak hspelled
      cases hweak
      rcases hspelled with rfl | rfl
      · rw [htrim]
        exact .quoted ⟨true, value, hvalue⟩
      · rw [htrim]
        exact .bareWeak value hvalue
    · rw [hsplit] at hweak hspelled
      cases hweak
      rcases hspelled with hquoted | hbare
      · have hchars : Text.trim cs = chars ⟨false, value, hvalue⟩ := hquoted
        rw [hchars]
        exact .quoted ⟨false, value, hvalue⟩
      · have hvalue' : Text.trim cs = value.toList := hbare
        rw [hvalue'] at hunmarked ⊢
        exact .bareStrong value hvalue hunmarked
  · intro hspelled
    generalize Text.trim cs = spelling at hspelled
    cases hspelled with
    | quoted tag =>
      rw [splitWeak_chars]
      exact ⟨rfl, .inl rfl⟩
    | bareWeak value h => exact ⟨rfl, .inr rfl⟩
    | bareStrong value h unmarked =>
      rcases splitWeak_cases value.toList with ⟨rest, hmarked, -⟩ | ⟨-, hsplit⟩
      · exact absurd ⟨rest, hmarked.symm⟩ unmarked
      · rw [hsplit]
        exact ⟨rfl, .inr rfl⟩

/-- Reading a tag fails only where its characters do. -/
theorem parse_eq_ok_iff_ofChars? (raw : String) (tag : EntityTag) :
    parse raw = .ok tag ↔ ofChars? raw.toList = some tag := by
  unfold parse
  cases ofChars? raw.toList with
  | none => exact ⟨nofun, nofun⟩
  | some read =>
    constructor
    · intro h
      cases h
      rfl
    · intro h
      cases h
      rfl

/-- A text is read as a tag iff it spells the tag, blanks around it aside. -/
theorem parse_eq_ok_iff (raw : String) (tag : EntityTag) :
    parse raw = .ok tag ↔ Spelled (Text.trim raw.toList) tag := by
  rw [parse_eq_ok_iff_ofChars?, ofChars?_eq_some_iff]

/-- The value of a tag is part of every spelling. -/
theorem Spelled.value_subset {cs : List Char} {tag : EntityTag} (h : Spelled cs tag) :
    tag.value.toList ⊆ cs := by
  cases h with
  | quoted tag =>
    intro c hc
    unfold chars
    cases tag.weak with
    | true => simp [hc]
    | false => simp [hc]
  | bareWeak value h =>
    intro c hc
    simp [hc]
  | bareStrong value h unmarked => exact List.Subset.refl _

end EntityTag

/-! ## Lists of matchers -/

namespace TagMatcher

/-- The ways to write an element of a conditional header. A tag whose value is the asterisk cannot
be written as the asterisk alone. -/
inductive Spelled : List Char → TagMatcher → Prop where
  | any : Spelled ['*'] any
  | tag {cs : List Char} {t : EntityTag} (h : EntityTag.Spelled cs t) (notAny : cs ≠ ['*']) :
      Spelled cs (tag t)

/-- A trimmed piece is read as an element exactly if it spells the element. -/
theorem ofChars?_eq_some_iff {piece : List Char} (htrim : Text.trim piece = piece)
    (m : TagMatcher) : ofChars? piece = some m ↔ Spelled piece m := by
  unfold ofChars?
  by_cases hany : piece = ['*']
  · rw [if_pos hany, hany]
    constructor
    · intro h
      cases h
      exact .any
    · intro h
      cases h with
      | any => rfl
      | tag _ notAny => exact absurd rfl notAny
  · rw [if_neg hany, Option.map_eq_some_iff]
    simp only [EntityTag.ofChars?_eq_some_iff, htrim]
    constructor
    · rintro ⟨t, hspelled, rfl⟩
      exact .tag hspelled hany
    · intro h
      cases h with
      | any => exact absurd rfl hany
      | tag hspelled _ => exact ⟨_, hspelled, rfl⟩

/-- An element spelled without a comma can stand in a list. -/
theorem Spelled.isListable {piece : List Char} {m : TagMatcher} (h : Spelled piece m)
    (hcomma : ',' ∉ piece) : m.isListable = true := by
  cases h with
  | any => rfl
  | tag hspelled _ =>
    unfold TagMatcher.isListable
    rw [Bool.not_eq_true', List.contains_eq_mem]
    exact decide_eq_false fun hmem => hcomma (hspelled.value_subset hmem)

end TagMatcher

namespace TagMatchers

/-- The elements of a header: what stands between its commas, without blanks at the ends, unless
nothing is left. -/
def pieces (raw : String) : List (List Char) :=
  ((Text.split ',' raw.toList).map Text.trim).filter fun piece => !piece.isEmpty

/-- The pieces of a header have no blanks around them. -/
theorem trim_of_mem_pieces {raw : String} {piece : List Char} (h : piece ∈ pieces raw) :
    Text.trim piece = piece := by
  obtain ⟨hmem, -⟩ := List.mem_filter.mp h
  obtain ⟨whole, -, rfl⟩ := List.mem_map.mp hmem
  exact Text.trim_trim whole

/-- The pieces of a header have no commas. -/
theorem comma_notMem_of_mem_pieces {raw : String} {piece : List Char} (h : piece ∈ pieces raw) :
    ',' ∉ piece := by
  obtain ⟨hmem, -⟩ := List.mem_filter.mp h
  obtain ⟨whole, hwhole, rfl⟩ := List.mem_map.mp hmem
  intro hcomma
  exact Text.sep_notMem_of_mem_split hwhole ((Text.trim_sublist whole).subset hcomma)

/-- Trimmed pieces are read one by one as the elements they spell. -/
theorem elements_eq_ok_iff {pieces : List (List Char)}
    (htrim : ∀ piece ∈ pieces, Text.trim piece = piece) (ms : List TagMatcher) :
    elements pieces = .ok ms ↔ List.Forall₂ TagMatcher.Spelled pieces ms := by
  induction pieces generalizing ms with
  | nil =>
    rw [List.forall₂_nil_left_iff]
    exact ⟨fun h => (Except.ok.inj h).symm, fun h => congrArg Except.ok h.symm⟩
  | cons piece rest ih =>
    have hpiece := TagMatcher.ofChars?_eq_some_iff (htrim piece List.mem_cons_self)
    have hrest := ih fun piece' hmem => htrim piece' (List.mem_cons_of_mem _ hmem)
    rw [List.forall₂_cons_left_iff, elements]
    cases hread : TagMatcher.ofChars? piece with
    | none =>
      constructor
      · intro h
        cases h
      · rintro ⟨m, _, hm, -⟩
        rw [← hpiece, hread] at hm
        cases hm
    | some m =>
      rw [bind_eq_ok_iff]
      simp only [hrest, ← hpiece, hread]
      constructor
      · rintro ⟨more, hmore, heq⟩
        cases heq
        exact ⟨m, more, rfl, hmore, rfl⟩
      · rintro ⟨m', more, hm, hmore, rfl⟩
        cases hm
        exact ⟨more, hmore, rfl⟩

/-- Elements that were read from a header hold no commas. -/
theorem isListable_of_spelled {raw : String} {ms : List TagMatcher}
    (h : List.Forall₂ TagMatcher.Spelled (pieces raw) ms) :
    ms.all TagMatcher.isListable = true := by
  rw [List.all_eq_true]
  intro m hm
  obtain ⟨i, hi, rfl⟩ := List.mem_iff_getElem.mp hm
  have hlength := h.length_eq
  have hspelled := h.get (i := i) (by omega) hi
  exact hspelled.isListable (comma_notMem_of_mem_pieces (List.getElem_mem _))

/-- A header is read as the list of the elements that its pieces spell. -/
theorem parse_eq_ok_iff (raw : String) (ms : TagMatchers) :
    parse raw = .ok ms ↔ List.Forall₂ TagMatcher.Spelled (pieces raw) ms.toList := by
  have htrim : ∀ piece ∈ pieces raw, Text.trim piece = piece := fun _ h => trim_of_mem_pieces h
  show (elements (pieces raw) >>= fun matchers =>
    if h : matchers ≠ [] ∧ matchers.all TagMatcher.isListable = true then
      (.ok ⟨matchers, h.1, h.2⟩ : Except Failure TagMatchers)
    else .error (.headerInvalid "if-match" raw)) = .ok ms ↔ _
  rw [bind_eq_ok_iff]
  constructor
  · rintro ⟨matchers, hread, h⟩
    split at h
    · cases h
      exact (elements_eq_ok_iff htrim matchers).mp hread
    · cases h
  · intro hspelled
    refine ⟨ms.toList, (elements_eq_ok_iff htrim ms.toList).mpr hspelled, ?_⟩
    rw [dif_pos ⟨ms.nonempty, ms.listable⟩]

/-- If each piece spells something, together they spell a list. -/
theorem exists_spelled {pieces : List (List Char)}
    (h : ∀ piece ∈ pieces, ∃ m, TagMatcher.Spelled piece m) :
    ∃ ms, List.Forall₂ TagMatcher.Spelled pieces ms := by
  induction pieces with
  | nil => exact ⟨[], .nil⟩
  | cons piece rest ih =>
    obtain ⟨m, hm⟩ := h piece List.mem_cons_self
    obtain ⟨ms, hms⟩ := ih fun piece' hmem => h piece' (List.mem_cons_of_mem _ hmem)
    exact ⟨m :: ms, .cons hm hms⟩

/-- A header is accepted exactly if it has pieces and each of them spells an element. -/
theorem exists_parse_iff (raw : String) :
    (∃ ms, parse raw = .ok ms) ↔
      pieces raw ≠ [] ∧ ∀ piece ∈ pieces raw, ∃ m, TagMatcher.Spelled piece m := by
  simp only [parse_eq_ok_iff]
  constructor
  · rintro ⟨ms, hspelled⟩
    constructor
    · intro hnil
      rw [hnil, List.forall₂_nil_left_iff] at hspelled
      exact ms.nonempty hspelled
    · intro piece hmem
      obtain ⟨i, hi, rfl⟩ := List.mem_iff_getElem.mp hmem
      have hlength := hspelled.length_eq
      exact ⟨_, hspelled.get hi (by omega)⟩
  · rintro ⟨hne, hall⟩
    obtain ⟨ms, hspelled⟩ := exists_spelled hall
    have hnonempty : ms ≠ [] := by
      rintro rfl
      exact hne (List.forall₂_nil_right_iff.mp hspelled)
    exact ⟨⟨ms, hnonempty, isListable_of_spelled hspelled⟩, hspelled⟩

/-- A tag without a comma is a header of its own. -/
theorem parse_text_tag {tag : EntityTag} (h : (TagMatcher.tag tag).isListable = true) :
    parse tag.text = .ok (only tag h) := by
  have htext : tag.text = (only tag h).text := by
    unfold text only EntityTag.text Text.join
    rw [List.map_singleton, List.intercalate_singleton]
    rfl
  rw [htext, parse_text]

end TagMatchers

/-! ## Tags and headers read back -/

/-- The tags that entities and their parts are given. -/
inductive EntityTag.Issued : EntityTag → Prop where
  | revision (r : Revision) : Issued (ofRevision r)
  | content (v : Json) : Issued (ofContent v)

/-- Issued tags can stand in a list of tags. -/
theorem EntityTag.Issued.isListable {tag : EntityTag} (h : tag.Issued) :
    (TagMatcher.tag tag).isListable = true := by
  cases h with
  | revision r => exact isListable_ofRevision r
  | content v => exact isListable_ofContent v

/-- Which texts are tags and which are conditional headers; that whatever was read from such a text
is read again from its own text, so that a header that is passed on matches the same tags; and that
every tag an entity or a part is given is read back, alone and as a header that names just it. -/
theorem tags_and_headers_read_back :
    (∀ raw tag, EntityTag.parse raw = .ok tag ↔
      EntityTag.Spelled (Text.trim raw.toList) tag) ∧
    (∀ raw, (∃ ms, TagMatchers.parse raw = .ok ms) ↔ TagMatchers.pieces raw ≠ [] ∧
      ∀ piece ∈ TagMatchers.pieces raw, ∃ m, TagMatcher.Spelled piece m) ∧
    (∀ raw ms, TagMatchers.parse raw = .ok ms ↔
      List.Forall₂ TagMatcher.Spelled (TagMatchers.pieces raw) ms.toList) ∧
    (∀ raw tag, EntityTag.parse raw = .ok tag → EntityTag.parse tag.text = .ok tag) ∧
    (∀ raw ms, TagMatchers.parse raw = .ok ms → TagMatchers.parse ms.text = .ok ms ∧
      ∀ again, TagMatchers.parse ms.text = .ok again → ∀ current,
        again.matchStrongly current = ms.matchStrongly current ∧
          again.matchWeakly current = ms.matchWeakly current) ∧
    ∀ tag : EntityTag, tag.Issued → EntityTag.parse tag.text = .ok tag ∧
      ∃ ms, TagMatchers.parse tag.text = .ok ms ∧ ms.toList = [.tag tag] := by
  refine ⟨EntityTag.parse_eq_ok_iff, TagMatchers.exists_parse_iff, TagMatchers.parse_eq_ok_iff,
    fun _ tag _ => tag.parse_text, ?_, ?_⟩
  · intro _ ms _
    refine ⟨ms.parse_text, fun again hagain current => ?_⟩
    rw [ms.parse_text] at hagain
    cases hagain
    exact ⟨rfl, rfl⟩
  · intro tag hissued
    exact ⟨tag.parse_text, _, TagMatchers.parse_text_tag hissued.isListable, rfl⟩

/-- A header with blanks, an empty element, and the asterisk in all its roles. -/
def asterisks : String := " * ,, W/*,\"*\" , rev:1"

/-- What the header is read as: everything, two tags with the asterisk as their value, and a tag
without quotes. -/
def asteriskMatchers : TagMatchers :=
  ⟨[.any, .tag ⟨true, "*", by decide⟩, .tag ⟨false, "*", by decide⟩,
    .tag ⟨false, "rev:1", by decide⟩], by decide, by decide⟩

/-- The asterisk that matches everything stays apart from the tags that look like it when the
header is read, written and read again; the tag of the first revision is a header of its own, and
a quote on one side only is refused. -/
theorem tags_and_headers_read_back_asterisks :
    TagMatchers.parse asterisks = .ok asteriskMatchers ∧
      asteriskMatchers.text = "*,W/\"*\",\"*\",\"rev:1\"" ∧
      TagMatchers.parse asteriskMatchers.text = .ok asteriskMatchers ∧
      EntityTag.parse "W/*" = .ok ⟨true, "*", by decide⟩ ∧
      EntityTag.parse "W/\"*\"" = .ok ⟨true, "*", by decide⟩ ∧
      (∃ ms, TagMatchers.parse (EntityTag.ofRevision ⟨1⟩).text = .ok ms ∧
        ms.toList = [.tag (.ofRevision ⟨1⟩)]) ∧
      ¬∃ tag, EntityTag.parse "\"rev:1" = .ok tag := by
  obtain ⟨-, -, -, htags, hheaders, hissued⟩ := tags_and_headers_read_back
  have hread : TagMatchers.parse asterisks = .ok asteriskMatchers := by rfl
  have hagain := (hheaders asterisks asteriskMatchers hread).1
  have hweak : EntityTag.parse "W/*" = .ok ⟨true, "*", by decide⟩ := by rfl
  have hwritten : EntityTag.text ⟨true, "*", by decide⟩ = "W/\"*\"" := by rfl
  have hquoted := htags "W/*" _ hweak
  rw [hwritten] at hquoted
  refine ⟨hread, by rfl, hagain, hweak, hquoted, (hissued _ (.revision ⟨1⟩)).2, ?_⟩
  rintro ⟨tag, htag⟩
  have hrefused : EntityTag.parse "\"rev:1" = .error (.headerInvalid "etag" "\"rev:1") := by rfl
  rw [hrefused] at htag
  cases htag

end GuardedThings
