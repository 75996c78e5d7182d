import GuardedThings.Proofs.Policy.Adjustment
import GuardedThings.Proofs.Policy.WireForm

/-!
# Events on entries, in any order

The subjects and the resources of an entry are its two sides, and what they hold
are their elements. Two events on sides or elements are about parts that are apart
if they name different entries, different sides, or different elements of one side
(`PolicyPart.Apart`).

A policy is told by its id, its bookkeeping, the labels of its entries, and its
elements (`Policy.ext_elements`). An event on a side or an element sets some of the
elements, may bring the entry, and leaves everything else (`Policy.edits_after`);
that a removal brings no entry makes no difference, because there is nothing to
remove from an entry that is empty.

No element is set by two events whose parts are apart
(`PolicyChange.contentSet?_of_apart`). So what a list of such events makes of a
policy can be told without their order: each element is what the one event that
sets it says, or what it was (`Policy.Merges`). Only one policy is like that
(`Policy.Merges.unique`), whichever way the events are ordered
(`Policy.apart_events_commute`).
-/

set_option autoImplicit false

namespace GuardedThings

/-! ## Parts of entries -/

namespace PolicyPart

/-- Whether the part is the subjects of an entry or one of them. -/
def onSubjects : PolicyPart → Bool
  | subjects _ | subject .. => true
  | _ => false

/-- Whether the part is the resources of an entry or one of them. -/
def onResources : PolicyPart → Bool
  | resources _ | resource .. => true
  | _ => false

/-- Whether the part is a side of an entry or one of its elements. -/
def inEntry (part : PolicyPart) : Bool := part.onSubjects || part.onResources

/-- Whether the part is a single subject or a single resource. -/
def isElement : PolicyPart → Bool
  | subject .. | resource .. => true
  | _ => false

/-- An element is a subject or a resource. -/
@[elab_as_elim]
theorem element_cases {motive : (part : PolicyPart) → part.isElement = true → Prop}
    (subject : ∀ l id, motive (.subject l id) rfl)
    (resource : ∀ l key, motive (.resource l key) rfl) (part : PolicyPart)
    (h : part.isElement = true) : motive part h := by
  cases part with
  | subject l id => exact subject l id
  | resource l key => exact resource l key
  | whole | entries | entry | subjects | resources => cases h

/-- The side that an element is on. -/
def side : PolicyPart → PolicyPart
  | subject l _ => subjects l
  | resource l _ => resources l
  | part => part

/-- Parts of entries that have nothing in common: parts of different entries, on different sides, or
different elements of one side. -/
inductive Apart : PolicyPart → PolicyPart → Prop where
  | labels {part part' : PolicyPart} (h : part.label? ≠ part'.label?) : Apart part part'
  | sides {part part' : PolicyPart} (h : part.onSubjects ≠ part'.onSubjects) : Apart part part'
  | subjects {l : Label} {id id' : SubjectId} (h : id ≠ id') :
    Apart (.subject l id) (.subject l id')
  | resources {l : Label} {key key' : ResourceKey} (h : key ≠ key') :
    Apart (.resource l key) (.resource l key')

/-- Being apart is symmetric. -/
theorem Apart.symm {part part' : PolicyPart} (h : part.Apart part') : part'.Apart part := by
  cases h with
  | labels h => exact .labels h.symm
  | sides h => exact .sides h.symm
  | subjects h => exact .subjects h.symm
  | resources h => exact .resources h.symm

/-- The side of an element is not an element. -/
theorem isElement_side {element : PolicyPart} (h : element.isElement = true) :
    element.side.isElement = false := by
  cases element, h using element_cases with
  | subject | resource => rfl

/-- Parts that are apart do not hold the same element. -/
theorem Apart.not_both {part part' element : PolicyPart} (h : part.Apart part')
    (helement : element.isElement = true) (hpart : part = element ∨ part = element.side)
    (hpart' : part' = element ∨ part' = element.side) : False := by
  have hplace : ∀ {part : PolicyPart}, part = element ∨ part = element.side →
      part.label? = element.label? ∧ part.onSubjects = element.onSubjects := by
    rintro part (rfl | rfl)
    · exact ⟨rfl, rfl⟩
    · cases element, helement using element_cases with
      | subject | resource => exact ⟨rfl, rfl⟩
  have hsame : ∀ {part : PolicyPart}, part.isElement = true →
      part = element ∨ part = element.side → part = element := by
    rintro part hpart (rfl | rfl)
    · rfl
    · exact absurd (hpart.symm.trans (isElement_side helement)) (by decide)
  cases h with
  | labels h => exact h ((hplace hpart).1.trans (hplace hpart').1.symm)
  | sides h => exact h ((hplace hpart).2.trans (hplace hpart').2.symm)
  | subjects h =>
    cases (hsame rfl hpart).trans (hsame rfl hpart').symm
    exact h rfl
  | resources h =>
    cases (hsame rfl hpart).trans (hsame rfl hpart').symm
    exact h rfl

end PolicyPart

/-! ## What a change sets -/

/-- What stands in an entry for an element of its sides. -/
def EntryBody.element? (body : EntryBody) : PolicyPart → Option Json
  | .subject _ id => (body.subjects.get? id).map Wire.encode
  | .resource _ key => (body.resources.get? key).map Wire.encode
  | _ => none

/-- The side that a group replaces, as an entry that has nothing else. -/
def PolicyGroup.body : PolicyGroup → EntryBody
  | subjects _ s => { EntryBody.empty with subjects := s }
  | resources _ r => { EntryBody.empty with resources := r }
  | entries _ => .empty

namespace PolicyChange

/-- The part that a change is about. -/
def part : PolicyChange → PolicyPart
  | created _ | replaced _ => .whole
  | groupReplaced group => group.part
  | written _ piece => piece.part
  | removed item => item.part

/-- What a change makes of an element, if it is about it or about its side; the element is gone if
that is nothing. -/
def contentSet? (c : PolicyChange) (element : PolicyPart) : Option (Option Json) :=
  match c with
  | groupReplaced group =>
    if element.side = group.part then some (group.body.element? element) else none
  | written _ piece => if element = piece.part then some (some piece.toJson) else none
  | removed item => if element = item.part then some none else none
  | created _ | replaced _ => none

/-- Whether there is an entry of this label after the change, whatever was there before. -/
def brings : PolicyChange → Label → Bool
  | removed _, _ => false
  | c, l => c.part.label? = some l

/-- What sets an element is about it or about its side. -/
theorem part_of_contentSet? {c : PolicyChange} {element : PolicyPart} {content : Option Json}
    (h : c.contentSet? element = some content) : c.part = element ∨ c.part = element.side := by
  cases c with
  | created | replaced => cases h
  | groupReplaced => exact .inr (Option.ite_none_right_eq_some.mp h).1.symm
  | written | removed => exact .inl (Option.ite_none_right_eq_some.mp h).1.symm

/-- An element is not set by two changes of parts that are apart. -/
theorem contentSet?_of_apart {c c' : PolicyChange} (hapart : c.part.Apart c'.part)
    {element : PolicyPart} (helement : element.isElement = true) {content : Option Json}
    (h : c.contentSet? element = some content) : c'.contentSet? element = none := by
  rw [Option.eq_none_iff_forall_ne_some]
  intro content' h'
  exact hapart.not_both helement (part_of_contentSet? h) (part_of_contentSet? h')

end PolicyChange

/-! ## Policies by their elements -/

/-- Entries with the same elements are the same. -/
theorem EntryBody.ext_elements {body body' : EntryBody} (l : Label)
    (h : ∀ part : PolicyPart, part.isElement = true → part.label? = some l →
      body.element? part = body'.element? part) : body = body' := by
  obtain ⟨subjects, resources⟩ := body
  obtain ⟨subjects', resources'⟩ := body'
  have hsubjects : subjects = subjects' := by
    refine Dict.ext_get? fun id => ?_
    exact Option.map_injective (fun _ _ => LawfulWire.encode_injective)
      (h (.subject l id) rfl rfl)
  have hresources : resources = resources' := by
    refine Dict.ext_get? fun key => ?_
    exact Option.map_injective (fun _ _ => LawfulWire.encode_injective)
      (h (.resource l key) rfl rfl)
  rw [hsubjects, hresources]

namespace Policy

variable (p : Policy)

/-- An element of a missing entry is as missing as one of an empty entry. -/
theorem get?_element {part : PolicyPart} {l : Label} (helement : part.isElement = true)
    (hlabel : part.label? = some l) :
    part.get? p = ((p.entries.get? l).getD .empty).element? part := by
  cases part, helement using PolicyPart.element_cases with
  | subject l' id =>
    cases hlabel
    exact congrArg (Option.map Wire.encode) (p.subject?_eq_getD l id)
  | resource l' key =>
    cases hlabel
    show (p.resource? l key).map _ = _
    unfold resource?
    cases p.entries.get? l with
    | none => rfl
    | some body => rfl

/-- Policies with the same bookkeeping, the same labels and the same elements are the same. -/
theorem ext_elements {p q : Policy} (hid : p.id = q.id) (hbook : p.book = q.book)
    (hentries : ∀ l, p.entries.contains l = q.entries.contains l)
    (helements : ∀ part : PolicyPart, part.isElement = true → part.get? p = part.get? q) :
    p = q := by
  have hbodies : ∀ l, (p.entries.get? l).getD .empty = (q.entries.get? l).getD .empty := by
    intro l
    refine EntryBody.ext_elements l fun part helement hlabel => ?_
    rw [← p.get?_element helement hlabel, ← q.get?_element helement hlabel]
    exact helements part helement
  have hsame : p.entries = q.entries := by
    refine Dict.ext_get? fun l => ?_
    have hcontains := hentries l
    have hbody := hbodies l
    unfold Dict.contains at hcontains
    cases hp : p.entries.get? l with
    | none =>
      rw [hp] at hcontains
      exact (Option.isNone_iff_eq_none.mp (by simpa using hcontains.symm)).symm
    | some body =>
      rw [hp] at hcontains hbody
      obtain ⟨body', hq⟩ := Option.isSome_iff_exists.mp hcontains.symm
      rw [hq] at hbody ⊢
      exact congrArg some hbody
  obtain ⟨id, book, entries⟩ := p
  cases hid
  cases hbook
  cases hsame
  rfl

end Policy

/-! ## One change -/

/-- What one change of a part of an entry makes of a policy. -/
structure Policy.Edits (p : Policy) (c : PolicyChange) (q : Policy) : Prop where
  id : q.id = p.id
  book : q.book = p.book
  entries : ∀ l, q.entries.contains l = (p.entries.contains l || c.brings l)
  elements : ∀ part : PolicyPart, part.isElement = true →
    part.get? q = (c.contentSet? part).getD (part.get? p)

/-- An edit of an entry does to its elements what the change says, and the change says nothing about
other entries. -/
structure PolicyChange.Does (c : PolicyChange) (label : Label) (f : EntryBody → EntryBody) :
    Prop where
  here : ∀ (body : EntryBody) (part : PolicyPart), part.isElement = true →
    part.label? = some label →
      (f body).element? part = (c.contentSet? part).getD (body.element? part)
  elsewhere : ∀ part : PolicyPart, part.isElement = true → part.label? ≠ some label →
    c.contentSet? part = none

namespace Policy

variable (p : Policy) {c : PolicyChange} {label : Label} {f : EntryBody → EntryBody}

/-- An element is in an entry with a label. -/
theorem exists_label {part : PolicyPart} (h : part.isElement = true) :
    ∃ l, part.label? = some l := by
  cases part, h using PolicyPart.element_cases with
  | subject l _ | resource l _ => exact ⟨l, rfl⟩

/-- The elements after an edit of the entry that is there, or of the empty one. -/
theorem elements_of_does (does : c.Does label f) {q : Policy}
    (hentry : (q.entries.get? label).getD .empty = f ((p.entries.get? label).getD .empty))
    (hothers : ∀ l, l ≠ label → q.entries.get? l = p.entries.get? l) (part : PolicyPart)
    (helement : part.isElement = true) :
    part.get? q = (c.contentSet? part).getD (part.get? p) := by
  obtain ⟨l, hlabel⟩ := exists_label helement
  rw [q.get?_element helement hlabel, p.get?_element helement hlabel]
  by_cases hl : l = label
  · rw [hl] at hlabel ⊢
    rw [hentry]
    exact does.here _ part helement hlabel
  · have hne : part.label? ≠ some label := by
      rw [hlabel]
      exact fun heq => hl (Option.some.inj heq)
    rw [does.elsewhere part helement hne, hothers l hl]
    rfl

/-- A change that does an edit to one entry edits the policy as it says. -/
theorem edits_updateEntry (does : c.Does label f)
    (hbrings : ∀ l, c.brings l = decide (some label = some l)) :
    p.Edits c (p.updateEntry label f) where
  id := rfl
  book := rfl
  entries := by
    intro l
    show ((p.entries.insert label _).get? l).isSome = _
    rw [Dict.get?_insert, hbrings]
    by_cases hl : l = label
    · rw [if_pos hl, decide_eq_true (congrArg some hl.symm), Bool.or_true]
      rfl
    · rw [if_neg hl, decide_eq_false fun heq => hl (Option.some.inj heq).symm, Bool.or_false]
      rfl
  elements := by
    refine p.elements_of_does does ?_ fun l hl => ?_
    · show ((p.entries.insert label _).get? label).getD .empty = _
      rw [Dict.get?_insert_self]
      rfl
    · exact p.entries.get?_insert_of_ne hl _

/-- An edit that leaves the empty entry empty may as well be left out where no entry is. -/
theorem edits_updateExisting (does : c.Does label f) (hempty : f .empty = .empty)
    (hbrings : ∀ l, c.brings l = false) : p.Edits c (p.updateExisting label f) := by
  unfold updateExisting
  cases hfound : p.entries.get? label with
  | none =>
    refine ⟨rfl, rfl, fun l => by rw [hbrings, Bool.or_false], ?_⟩
    refine p.elements_of_does does ?_ fun _ _ => rfl
    rw [hfound]
    exact hempty.symm
  | some body =>
    refine ⟨rfl, rfl, fun l => ?_, ?_⟩
    · show ((p.entries.insert label _).get? l).isSome = _
      rw [Dict.get?_insert, hbrings, Bool.or_false]
      by_cases hl : l = label
      · rw [if_pos hl, hl]
        exact (Option.isSome_of_eq_some hfound).symm
      · rw [if_neg hl]
        rfl
    · refine p.elements_of_does does ?_ fun l hl => p.entries.get?_insert_of_ne hl _
      show ((p.entries.insert label _).get? label).getD .empty = _
      rw [Dict.get?_insert_self, hfound]
      rfl

end Policy

namespace PolicyChange

/-- A change does what it says if the edit makes this of the elements that the change touches and
leaves the others. -/
theorem does_of_touches {c : PolicyChange} {label : Label} {f : EntryBody → EntryBody}
    {touches : PolicyPart → Prop} [DecidablePred touches] {content : PolicyPart → Option Json}
    (hset : ∀ part, c.contentSet? part = if touches part then some (content part) else none)
    (hlabel : ∀ part : PolicyPart, part.isElement = true → touches part → part.label? = some label)
    (htouched : ∀ (body : EntryBody) (part : PolicyPart), part.isElement = true → touches part →
      (f body).element? part = content part)
    (hothers : ∀ (body : EntryBody) (part : PolicyPart), part.isElement = true → ¬ touches part →
      part.label? = some label → (f body).element? part = body.element? part) :
    c.Does label f where
  here body part helement hpart := by
    rw [hset]
    by_cases htouches : touches part
    · rw [if_pos htouches]
      exact htouched body part helement htouches
    · rw [if_neg htouches]
      exact hothers body part helement htouches hpart
  elsewhere part helement hpart := by
    rw [hset, if_neg]
    exact fun htouches => hpart (hlabel part helement htouches)

/-- What a replacement of the subjects does to an entry. -/
theorem does_subjects (l : Label) (subjects : Subjects) :
    (groupReplaced (.subjects l subjects)).Does l fun body => { body with subjects } := by
  refine does_of_touches (fun _ => rfl) ?_ ?_ ?_
  · intro part helement hside
    cases part, helement using PolicyPart.element_cases with
    | subject =>
      cases hside
      rfl
    | resource => cases hside
  · intro body part helement hside
    cases part, helement using PolicyPart.element_cases with
    | subject => rfl
    | resource => cases hside
  · intro body part helement hside hlabel
    cases part, helement using PolicyPart.element_cases with
    | subject =>
      cases hlabel
      exact absurd rfl hside
    | resource => rfl

/-- What a replacement of the resources does to an entry. -/
theorem does_resources (l : Label) (resources : Resources) :
    (groupReplaced (.resources l resources)).Does l fun body => { body with resources } := by
  refine does_of_touches (fun _ => rfl) ?_ ?_ ?_
  · intro part helement hside
    cases part, helement using PolicyPart.element_cases with
    | subject => cases hside
    | resource =>
      cases hside
      rfl
  · intro body part helement hside
    cases part, helement using PolicyPart.element_cases with
    | subject => cases hside
    | resource => rfl
  · intro body part helement hside hlabel
    cases part, helement using PolicyPart.element_cases with
    | subject => rfl
    | resource =>
      cases hlabel
      exact absurd rfl hside

/-- A change of one element does what it says if the edit makes this of the element and leaves the
others. -/
theorem does_element {c : PolicyChange} {label : Label} {f : EntryBody → EntryBody}
    {target : PolicyPart} {content : Option Json} (hlabel : target.label? = some label)
    (hset : ∀ part, c.contentSet? part = if part = target then some content else none)
    (htarget : ∀ body, (f body).element? target = content)
    (hothers : ∀ (body : EntryBody) (part : PolicyPart), part ≠ target →
      part.label? = some label → (f body).element? part = body.element? part) :
    c.Does label f := by
  refine does_of_touches hset ?_ ?_ ?_
  · rintro part - rfl
    exact hlabel
  · rintro body part - rfl
    exact htarget body
  · exact fun body part _ hne hpart => hothers body part hne hpart

/-- An edit of the subjects of an entry that touches one of them leaves the other elements. -/
theorem element?_other_subject {l : Label} {id : SubjectId} {body : EntryBody} {subjects : Subjects}
    (h : ∀ id', id' ≠ id → subjects.get? id' = body.subjects.get? id') {part : PolicyPart}
    (hne : part ≠ .subject l id) (hlabel : part.label? = some l) :
    { body with subjects }.element? part = body.element? part := by
  cases part with
  | subject l' id' =>
    cases hlabel
    exact congrArg (Option.map Wire.encode) (h id' fun heq => hne (heq ▸ rfl))
  | whole | entries | entry | subjects | resources | resource => rfl

/-- An edit of the resources of an entry that touches one of them leaves the other elements. -/
theorem element?_other_resource {l : Label} {key : ResourceKey} {body : EntryBody}
    {resources : Resources}
    (h : ∀ key', key' ≠ key → resources.get? key' = body.resources.get? key') {part : PolicyPart}
    (hne : part ≠ .resource l key) (hlabel : part.label? = some l) :
    { body with resources }.element? part = body.element? part := by
  cases part with
  | resource l' key' =>
    cases hlabel
    exact congrArg (Option.map Wire.encode) (h key' fun heq => hne (heq ▸ rfl))
  | whole | entries | entry | subjects | resources | subject => rfl

/-- What writing a subject does to an entry. -/
theorem does_writeSubject (how : Placement) (l : Label) (id : SubjectId) (s : Subject) :
    (written how (.subject l id s)).Does l
      fun body => { body with subjects := body.subjects.insert id s } :=
  does_element rfl (fun _ => rfl)
    (fun body => congrArg (Option.map Wire.encode) (body.subjects.get?_insert_self id s))
    fun body _ hne hlabel =>
      element?_other_subject (fun _ h => body.subjects.get?_insert_of_ne h s) hne hlabel

/-- What writing a resource does to an entry. -/
theorem does_writeResource (how : Placement) (l : Label) (key : ResourceKey) (e : Effects) :
    (written how (.resource l key e)).Does l
      fun body => { body with resources := body.resources.insert key e } :=
  does_element rfl (fun _ => rfl)
    (fun body => congrArg (Option.map Wire.encode) (body.resources.get?_insert_self key e))
    fun body _ hne hlabel =>
      element?_other_resource (fun _ h => body.resources.get?_insert_of_ne h e) hne hlabel

/-- What removing a subject does to an entry. -/
theorem does_removeSubject (l : Label) (id : SubjectId) :
    (removed (.subject l id)).Does l
      fun body => { body with subjects := body.subjects.erase id } :=
  does_element rfl (fun _ => rfl)
    (fun body => congrArg (Option.map Wire.encode) (body.subjects.get?_erase_self id))
    fun body _ hne hlabel =>
      element?_other_subject (fun _ h => body.subjects.get?_erase_of_ne h) hne hlabel

/-- What removing a resource does to an entry. -/
theorem does_removeResource (l : Label) (key : ResourceKey) :
    (removed (.resource l key)).Does l
      fun body => { body with resources := body.resources.erase key } :=
  does_element rfl (fun _ => rfl)
    (fun body => congrArg (Option.map Wire.encode) (body.resources.get?_erase_self key))
    fun body _ hne hlabel =>
      element?_other_resource (fun _ h => body.resources.get?_erase_of_ne h) hne hlabel

end PolicyChange

/-- An event on a side or an element of an entry always applies, and edits the policy as its change
says, whether the entry is there or not. -/
theorem Policy.edits_after (p : Policy) {e : Event .policy PolicyChange}
    (inside : e.change.part.inEntry = true) :
    ∃ q, p.after e = .ok q ∧ p.Edits e.change q := by
  unfold after
  cases hchange : e.change with
  | created | replaced =>
    rw [hchange] at inside
    cases inside
  | groupReplaced group =>
    cases group with
    | entries =>
      rw [hchange] at inside
      cases inside
    | subjects l subjects =>
      exact ⟨_, rfl, p.edits_updateEntry (PolicyChange.does_subjects l subjects) fun _ =>
        rfl⟩
    | resources l resources =>
      exact ⟨_, rfl, p.edits_updateEntry (PolicyChange.does_resources l resources) fun _ =>
        rfl⟩
  | written how piece =>
    cases piece with
    | entry =>
      rw [hchange] at inside
      cases inside
    | subject l id s =>
      exact ⟨_, rfl, p.edits_updateEntry (PolicyChange.does_writeSubject how l id s) fun _ =>
        rfl⟩
    | resource l key effects =>
      exact ⟨_, rfl, p.edits_updateEntry (PolicyChange.does_writeResource how l key effects)
        fun _ => rfl⟩
  | removed item =>
    cases item with
    | whole | entry =>
      rw [hchange] at inside
      cases inside
    | subject l id =>
      exact ⟨_, rfl, p.edits_updateExisting (PolicyChange.does_removeSubject l id) rfl fun _ =>
        rfl⟩
    | resource l key =>
      exact ⟨_, rfl, p.edits_updateExisting (PolicyChange.does_removeResource l key) rfl fun _ =>
        rfl⟩

/-! ## Many changes -/

/-- What changes of parts that are apart make of a policy, whatever their order: every element is
what the one change that sets it says, and all others stay. -/
structure Policy.Merges (p : Policy) (changes : List PolicyChange) (q : Policy) : Prop where
  id : q.id = p.id
  book : q.book = p.book
  entries : ∀ l, q.entries.contains l = (p.entries.contains l || changes.any (·.brings l))
  set : ∀ c ∈ changes, ∀ part : PolicyPart, part.isElement = true → ∀ content,
    c.contentSet? part = some content → part.get? q = content
  kept : ∀ part : PolicyPart, part.isElement = true →
    (∀ c ∈ changes, c.contentSet? part = none) → part.get? q = part.get? p

namespace Policy

variable {p q q' : Policy} {changes changes' : List PolicyChange}

/-- What the changes make of a policy does not depend on their order. -/
theorem Merges.of_perm (h : p.Merges changes q) (hperm : changes.Perm changes') :
    p.Merges changes' q where
  id := h.id
  book := h.book
  entries l := by
    rw [h.entries, hperm.any_eq]
  set c hc := h.set c (hperm.mem_iff.mpr hc)
  kept part helement hnone := h.kept part helement fun c hc => hnone c (hperm.mem_iff.mp hc)

/-- The changes make only one policy of a policy. -/
theorem Merges.unique (h : p.Merges changes q) (h' : p.Merges changes q') : q = q' := by
  refine ext_elements (h.id.trans h'.id.symm) (h.book.trans h'.book.symm)
    (fun l => (h.entries l).trans (h'.entries l).symm) fun part helement => ?_
  by_cases hset : ∃ c ∈ changes, ∃ content, c.contentSet? part = some content
  · obtain ⟨c, hc, content, hcontent⟩ := hset
    rw [h.set c hc part helement content hcontent, h'.set c hc part helement content hcontent]
  · have hnone : ∀ c ∈ changes, c.contentSet? part = none := by
      intro c hc
      rw [Option.eq_none_iff_forall_ne_some]
      exact fun content hcontent => hset ⟨c, hc, content, hcontent⟩
    rw [h.kept part helement hnone, h'.kept part helement hnone]

/-- No changes make no difference. -/
theorem merges_nil (p : Policy) : p.Merges [] p where
  id := rfl
  book := rfl
  entries _ := (Bool.or_false _).symm
  set _ hc := absurd hc List.not_mem_nil
  kept _ _ _ := rfl

/-- One more change in front: what it sets is not set by the changes after it. -/
theorem Edits.merges_cons {c : PolicyChange} {r : Policy} (hedits : p.Edits c r)
    (hmerges : r.Merges changes q) (hapart : ∀ c' ∈ changes, c.part.Apart c'.part) :
    p.Merges (c :: changes) q where
  id := hmerges.id.trans hedits.id
  book := hmerges.book.trans hedits.book
  entries l := by
    rw [hmerges.entries, hedits.entries, List.any_cons, Bool.or_assoc]
  set c' hc' part helement content hcontent := by
    rcases List.mem_cons.mp hc' with rfl | hlater
    · have hkept : part.get? q = part.get? r := hmerges.kept part helement fun c hc =>
        PolicyChange.contentSet?_of_apart (hapart c hc) helement hcontent
      rw [hkept, hedits.elements part helement, hcontent]
      rfl
    · exact hmerges.set c' hlater part helement content hcontent
  kept part helement hnone := by
    rw [hmerges.kept part helement fun c' hc' => hnone c' (List.mem_cons_of_mem c hc'),
      hedits.elements part helement, hnone c List.mem_cons_self]
    rfl

/-- Events on parts of entries that are apart apply one after the other, and the policy after them
is told by their changes alone. -/
theorem merges_foldlM (p : Policy) {events : List (Event .policy PolicyChange)}
    (inside : ∀ e ∈ events, e.change.part.inEntry = true)
    (apart : events.Pairwise fun e e' => e.change.part.Apart e'.change.part) :
    ∃ q, events.foldlM (fun q e => q.after e) p = .ok q ∧
      p.Merges (events.map (·.change)) q := by
  induction events generalizing p with
  | nil => exact ⟨p, rfl, merges_nil p⟩
  | cons e rest ih =>
    obtain ⟨hfirst, hrest⟩ := List.pairwise_cons.mp apart
    obtain ⟨r, hr, hedits⟩ := p.edits_after (inside e List.mem_cons_self)
    obtain ⟨q, hq, hmerges⟩ := ih r (fun e' he' => inside e' (List.mem_cons_of_mem e he')) hrest
    refine ⟨q, ?_, hedits.merges_cons hmerges ?_⟩
    · rw [List.foldlM_cons, hr]
      exact hq
    · intro c hc
      obtain ⟨e', he', rfl⟩ := List.mem_map.mp hc
      exact hfirst e' he'

/-- Events on the subjects and resources of entries that are pairwise about parts that are apart
make the same policy in every order, and they always apply, also if there is no entry yet. -/
theorem apart_events_commute (p : Policy) {events events' : List (Event .policy PolicyChange)}
    (inside : ∀ e ∈ events, e.change.part.inEntry = true)
    (apart : events.Pairwise fun e e' => e.change.part.Apart e'.change.part)
    (reordered : events.Perm events') :
    ∃ q, events.foldlM (fun q e => q.after e) p = .ok q ∧
      events'.foldlM (fun q e => q.after e) p = .ok q ∧ p.Merges (events.map (·.change)) q := by
  obtain ⟨q, hq, hmerges⟩ := p.merges_foldlM inside apart
  obtain ⟨q', hq', hmerges'⟩ := p.merges_foldlM
    (fun e he => inside e (reordered.mem_iff.mpr he))
    (apart.perm reordered PolicyPart.Apart.symm)
  have hsame : q' = q := hmerges'.unique (hmerges.of_perm (reordered.map _))
  exact ⟨q, hq, hsame ▸ hq', hmerges⟩

/-! ## A boathouse without entries -/

/-- A policy in which nobody is named. -/
def boathousePolicy : Policy := .new ⟨"org.example:boathouse", by decide⟩

/-- The label of the entry that events on the boathouse are about. -/
def rowers : Label := ⟨"rowers", by decide⟩

/-- The subject that joins the rowers. -/
def rower : SubjectId := ⟨"nginx:rower", by decide⟩

/-- The subject that leaves the rowers. -/
def formerRower : SubjectId := ⟨"nginx:former-rower", by decide⟩

/-- A subject joins, another one leaves, and the boats are granted to the entry. -/
def boathouseChanges : List PolicyChange :=
  [.written .created (.subject rowers rower ⟨"generated", none⟩),
    .removed (.subject rowers formerRower),
    .groupReplaced (.resources rowers
      (.ofList [(.thing (.ofSegments ["features", "boats"]), ⟨.read, .empty⟩)]))]

/-- The changes as events of one moment. -/
def boathouseEvents : List (Event .policy PolicyChange) :=
  boathouseChanges.map fun change =>
    { entityId := boathousePolicy.id, revision := .initial, timestamp := ⟨0⟩, correlationId := none
      metadata := none, change }

/-- The rowers are named by the events in every order, the first of which brings the entry. -/
theorem apart_events_commute_boathouse :
    (∀ e ∈ boathouseEvents, e.change.part.inEntry = true) ∧
      boathouseEvents.Pairwise (fun e e' => e.change.part.Apart e'.change.part) ∧
      ∃ q, boathouseEvents.foldlM (fun q e => q.after e) boathousePolicy = .ok q ∧
        boathouseEvents.reverse.foldlM (fun q e => q.after e) boathousePolicy = .ok q ∧
        boathousePolicy.entries.contains rowers = false ∧ q.entries.contains rowers = true := by
  have inside : ∀ e ∈ boathouseEvents, e.change.part.inEntry = true := by decide
  have apart : boathouseEvents.Pairwise fun e e' => e.change.part.Apart e'.change.part := by
    refine .cons ?_ (.cons ?_ (List.pairwise_singleton _ _))
    · intro e he
      rcases List.mem_cons.mp he with rfl | he
      · exact .subjects (by decide)
      · cases List.mem_singleton.mp he
        exact .sides (by decide)
    · intro e he
      cases List.mem_singleton.mp he
      exact .sides (by decide)
  obtain ⟨q, hq, hreversed, hmerges⟩ :=
    boathousePolicy.apart_events_commute inside apart boathouseEvents.reverse_perm.symm
  exact ⟨inside, apart, q, hq, hreversed, rfl, hmerges.entries rowers⟩

end Policy

end GuardedThings
