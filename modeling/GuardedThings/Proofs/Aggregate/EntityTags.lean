import GuardedThings.EntityTag

/-!
# Tags of entities and of their parts

The tags that entities and parts are given are strong and free of commas, so a
conditional header can name one of them and nothing else, and such a header
matches it (`TagMatchers.matchStrongly_of_toList`). Revisions are told apart by
their tags (`EntityTag.ofRevision_value_injective`).
-/

set_option autoImplicit false

namespace GuardedThings

namespace EntityTag

/-- Revisions can be told apart by their tags. -/
theorem ofRevision_value_injective {r s : Revision}
    (h : (ofRevision r).value = (ofRevision s).value) : r = s := by
  have hchars : 'r' :: 'e' :: 'v' :: ':' :: Nat.toDigits 10 r.number.toNat =
      'r' :: 'e' :: 'v' :: ':' :: Nat.toDigits 10 s.number.toNat :=
    String.ofList_injective h
  have hdigits : Nat.toDigits 10 r.number.toNat = Nat.toDigits 10 s.number.toNat := by
    simpa using hchars
  have hnumber : r.number.toNat = s.number.toNat :=
    calc r.number.toNat
        = Nat.ofDigitChars 10 (Nat.toDigits 10 r.number.toNat) 0 :=
          Nat.ofDigitChars_ten_toDigits.symm
      _ = Nat.ofDigitChars 10 (Nat.toDigits 10 s.number.toNat) 0 := by rw [hdigits]
      _ = s.number.toNat := Nat.ofDigitChars_ten_toDigits
  cases r
  cases s
  congr
  exact UInt64.toNat_inj.mp hnumber

/-- A strong tag whose characters are no commas can stand in a list. -/
theorem isListable_strong {c : Char} {rest : List Char} {h : '"' ∉ c :: rest}
    (hcomma : ',' ∉ c :: rest) : (TagMatcher.tag (strong c rest h)).isListable = true := by
  show (!(String.ofList (c :: rest)).toList.contains ',') = true
  rw [String.toList_ofList]
  simpa using hcomma

/-- The tag of a revision can stand in a list of tags. -/
theorem isListable_ofRevision (r : Revision) : (TagMatcher.tag (ofRevision r)).isListable = true := by
  apply isListable_strong
  intro h
  have hdigit : ',' ∈ Nat.toDigits 10 r.number.toNat := by simpa using h
  have hfalse := Nat.isDigit_of_mem_toDigits (by decide) (by decide) hdigit
  cases hfalse

/-- A hexadecimal digit never separates the tags of a list. -/
theorem hexDigit_ne_comma (n : Nat) : Json.hexDigit n ≠ ',' := by
  have hall : ∀ m : Fin 16, Nat.digitChar m.val ≠ ',' := by decide
  exact hall ⟨n % 16, Nat.mod_lt _ (by decide)⟩

/-- The tag of a content can stand in a list of tags. -/
theorem isListable_ofContent (v : Json) : (TagMatcher.tag (ofContent v)).isListable = true := by
  apply isListable_strong
  intro h
  have hhash : ',' ∈ contentHash v := by simpa using h
  obtain ⟨b, -, hbyte⟩ := List.mem_flatMap.mp hhash
  simp only [hexByte, List.mem_cons, List.not_mem_nil, or_false] at hbyte
  rcases hbyte with hhigh | hlow
  · exact hexDigit_ne_comma _ hhigh.symm
  · exact hexDigit_ne_comma _ hlow.symm

end EntityTag

namespace TagMatchers

/-- The value of a conditional header that names one tag. -/
def only (tag : EntityTag) (h : (TagMatcher.tag tag).isListable = true) : TagMatchers :=
  ⟨[.tag tag], List.cons_ne_nil _ _, by simpa using h⟩

/-- A strong tag meets the condition that names it and nothing else. -/
theorem matchStrongly_of_toList {ms : TagMatchers} {tag : EntityTag}
    (h : ms.toList = [.tag tag]) (hstrong : tag.weak = false) :
    ms.matchStrongly (some tag) = true := by
  unfold matchStrongly
  rw [h]
  simp [EntityTag.strongMatches, hstrong]

/-- Every tag weakly meets the condition that names it and nothing else. -/
theorem matchWeakly_of_toList {ms : TagMatchers} {tag : EntityTag}
    (h : ms.toList = [.tag tag]) : ms.matchWeakly (some tag) = true := by
  unfold matchWeakly
  rw [h]
  simp [EntityTag.weakMatches]

/-- If a matcher for one revision matches the tag of another one, the two are the same. -/
theorem revision_of_matchStrongly {ms : TagMatchers} {n r : Revision}
    (honly : ∀ m ∈ ms.toList, m = .tag (.ofRevision n))
    (h : ms.matchStrongly (some (.ofRevision r)) = true) : r = n := by
  obtain ⟨m, hmem, hm⟩ := List.any_eq_true.mp h
  rw [honly m hmem] at hm
  have hvalue : (EntityTag.ofRevision n).value = (EntityTag.ofRevision r).value :=
    of_decide_eq_true (Bool.and_eq_true_iff.mp hm).2
  exact (EntityTag.ofRevision_value_injective hvalue).symm

end TagMatchers

end GuardedThings
