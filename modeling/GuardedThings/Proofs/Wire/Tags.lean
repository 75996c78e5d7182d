import GuardedThings.EntityTag
import GuardedThings.Proofs.Wire.Texts

/-!
# Tags read back

The reader of tags is lenient: it takes blanks away, and quotes where it finds
two. A written tag gives it nothing to take but the two quotes, because it
begins with a quote or the mark of a weak tag and ends with a quote
(`EntityTag.trim_chars`), and the value between them, which has no quote of its
own, is kept as it is (`EntityTag.unquote_quoted`).

A list of matchers is cut at every comma. None of its elements holds one, so the
pieces are the written elements (`Text.split_join`), and the only element that
reads as the asterisk is the asterisk: a tag of this value is written with its
quotes.
-/

set_option autoImplicit false

namespace GuardedThings

/-! ## Pieces of texts -/

namespace Text

/-- A text that starts with no blank loses nothing in front. -/
theorem dropWhile_isBlank {c : Char} (h : isBlank c = false) (rest : List Char) :
    (c :: rest).dropWhile isBlank = c :: rest :=
  List.dropWhile_cons_of_neg (by rw [h]; exact Bool.false_ne_true)

/-- A text with no blank at its ends stays as it is. -/
theorem trim_of_ends {first last : Char} (hfirst : isBlank first = false)
    (hlast : isBlank last = false) (between : List Char) :
    trim (first :: between ++ [last]) = first :: between ++ [last] := by
  unfold trim
  rw [List.cons_append, dropWhile_isBlank hfirst, ← List.cons_append, List.reverse_append,
    List.reverse_singleton, List.singleton_append, dropWhile_isBlank hlast, List.reverse_cons,
    List.reverse_reverse]

/-- Pieces that hold no separator are got back from the text that joins them. -/
theorem split_join {sep : Char} {pieces : List (List Char)} (hne : pieces ≠ [])
    (h : ∀ piece ∈ pieces, sep ∉ piece) : split sep (join [sep] pieces) = pieces := by
  induction pieces with
  | nil => exact absurd rfl hne
  | cons piece rest ih =>
    have hpiece := h piece List.mem_cons_self
    cases rest with
    | nil =>
      show split sep ([sep].intercalate [piece]) = [piece]
      rw [List.intercalate_singleton, split_of_not_mem hpiece]
    | cons next more =>
      have hrest := ih (List.cons_ne_nil _ _) fun piece hmem =>
        h piece (List.mem_cons_of_mem _ hmem)
      show split sep ([sep].intercalate (piece :: next :: more)) = _
      rw [List.intercalate_cons_cons, List.append_assoc, List.singleton_append,
        split_append_sep hpiece]
      exact congrArg _ hrest

end Text

/-! ## Tags -/

namespace EntityTag

/-- A quoted text is read without its quotes. -/
theorem unquote_quoted (value : List Char) : unquote ('"' :: value ++ ['"']) = value := by
  show (if (value ++ ['"']).getLast? = some '"' then (value ++ ['"']).dropLast else _) = value
  rw [if_pos (by rw [List.getLast?_concat]), List.dropLast_concat]

/-- A tag is written without blanks at its ends. -/
theorem trim_chars (tag : EntityTag) : Text.trim tag.chars = tag.chars := by
  unfold chars
  cases tag.weak with
  | true => exact Text.trim_of_ends rfl rfl ('/' :: '"' :: tag.value.toList)
  | false => exact Text.trim_of_ends rfl rfl tag.value.toList

/-- A written tag splits into its weakness and its quoted text. -/
theorem splitWeak_chars (tag : EntityTag) :
    splitWeak tag.chars = (tag.weak, '"' :: tag.value.toList ++ ['"']) := by
  unfold chars
  cases tag.weak with
  | true => rfl
  | false => rfl

/-- The characters of a tag are read back as the tag. -/
theorem ofChars?_chars (tag : EntityTag) : ofChars? tag.chars = some tag := by
  unfold ofChars?
  rw [trim_chars, splitWeak_chars]
  dsimp only
  rw [unquote_quoted, String.ofList_toList, dif_pos tag.wellFormed]

/-- The text of a tag is read back as the tag. -/
theorem parse_text (tag : EntityTag) : parse tag.text = .ok tag := by
  unfold parse text
  rw [String.toList_ofList, ofChars?_chars]

end EntityTag

instance : LawfulWire EntityTag := ⟨fun tag => decode_parsed_string tag.parse_text⟩

/-! ## Lists of matchers -/

namespace TagMatcher

/-- No element of a list of tags is written as nothing. -/
theorem chars_ne_nil (m : TagMatcher) : m.chars ≠ [] := by
  cases m with
  | any => exact List.cons_ne_nil _ _
  | tag t =>
    show t.chars ≠ []
    unfold EntityTag.chars
    cases t.weak with
    | true => exact List.cons_ne_nil _ _
    | false => exact List.cons_ne_nil _ _

/-- The elements of a list of tags have no blanks around them. -/
theorem trim_chars (m : TagMatcher) : Text.trim m.chars = m.chars := by
  cases m with
  | any => rfl
  | tag t => exact t.trim_chars

/-- An element that can stand in a list is written without a comma. -/
theorem comma_notMem_chars {m : TagMatcher} (h : m.isListable = true) : ',' ∉ m.chars := by
  cases m with
  | any => decide
  | tag t =>
    have hvalue : ',' ∉ t.value.toList := by
      intro hmem
      have hlistable : (!t.value.toList.contains ',') = true := h
      rw [List.contains_iff_mem.mpr hmem] at hlistable
      cases hlistable
    show ',' ∉ t.chars
    unfold EntityTag.chars
    cases t.weak with
    | true => simp [hvalue]
    | false => simp [hvalue]

/-- The characters of an element are read back as the element. -/
theorem ofChars?_chars (m : TagMatcher) : ofChars? m.chars = some m := by
  unfold ofChars?
  cases m with
  | any => rfl
  | tag t =>
    -- Even the value `*` is written between quotes.
    have hne : t.chars ≠ ['*'] := by
      unfold EntityTag.chars
      cases t.weak with
      | true => simp
      | false => simp
    show (if t.chars = ['*'] then some any else (EntityTag.ofChars? t.chars).map tag) = _
    rw [if_neg hne, EntityTag.ofChars?_chars]
    rfl

end TagMatcher

namespace TagMatchers

/-- Written elements are read back one by one. -/
theorem elements_map_chars (ms : List TagMatcher) :
    elements (ms.map TagMatcher.chars) = .ok ms := by
  induction ms with
  | nil => rfl
  | cons m rest ih =>
    rw [List.map_cons, elements, TagMatcher.ofChars?_chars]
    show (do return m :: (← elements (rest.map TagMatcher.chars))) = _
    rw [ih]
    rfl

/-- The text of a conditional header is cut into the texts of its elements. -/
theorem pieces_text (ms : TagMatchers) :
    ((Text.split ',' ms.text.toList).map Text.trim).filter (fun piece => !piece.isEmpty) =
      ms.toList.map TagMatcher.chars := by
  have hne : ms.toList.map TagMatcher.chars ≠ [] := by
    rw [ne_eq, List.map_eq_nil_iff]
    exact ms.nonempty
  have hcomma : ∀ piece ∈ ms.toList.map TagMatcher.chars, ',' ∉ piece := by
    intro piece hmem
    obtain ⟨m, hm, rfl⟩ := List.mem_map.mp hmem
    exact TagMatcher.comma_notMem_chars (List.all_eq_true.mp ms.listable m hm)
  have htrim : (ms.toList.map TagMatcher.chars).map Text.trim = ms.toList.map TagMatcher.chars := by
    rw [List.map_map]
    exact List.map_congr_left fun m _ => m.trim_chars
  unfold text
  rw [String.toList_ofList, Text.split_join hne hcomma, htrim]
  refine List.filter_eq_self.mpr fun piece hmem => ?_
  obtain ⟨m, -, rfl⟩ := List.mem_map.mp hmem
  rw [Bool.not_eq_true', List.isEmpty_eq_false_iff]
  exact m.chars_ne_nil

/-- The text of a list of tags is read back as the list. -/
theorem parse_text (ms : TagMatchers) : parse ms.text = .ok ms := by
  unfold parse
  rw [pieces_text]
  show (do
    let matchers ← elements (ms.toList.map TagMatcher.chars)
    if h : matchers ≠ [] ∧ matchers.all TagMatcher.isListable = true then
      return (⟨matchers, h.1, h.2⟩ : TagMatchers)
    else .error (.headerInvalid "if-match" ms.text)) = _
  rw [elements_map_chars]
  exact dif_pos ⟨ms.nonempty, ms.listable⟩

end TagMatchers

instance : LawfulWire TagMatchers := ⟨fun ms => decode_parsed_string ms.parse_text⟩

end GuardedThings
