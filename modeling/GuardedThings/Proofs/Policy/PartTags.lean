import GuardedThings.Proofs.Policy.Decisions
import GuardedThings.Proofs.Policy.DocumentParts

/-!
# Tags of policy parts

What the tag of a request to a policy depends on. The resource that protects a
part tells which part it is (`PolicyPart.resourceKey_injective`), and the tag is
that of what the document says at the place of the part, or the revision for the
whole (`PolicyRules.tag_eq`).

An accepted change leaves the addressed part in place, unless it removes it
(`PolicyRules.kept_of_decide_mutation`), and a part that is in place can be
retrieved (`PolicyRules.decide_retrieve`).
-/

set_option autoImplicit false

namespace GuardedThings

namespace PolicyPart

/-- The segments of the resource that protects a part. -/
def resourceNames : PolicyPart → List String
  | resource l key => ["entries", l.text, "resources", key.type ++ ":"] ++ key.path.segments
  | part => part.names

/-- The path of the protecting resource is spelled by its names. -/
theorem segments_resourcePath (part : PolicyPart) :
    part.resourcePath.segments = part.resourceNames := by
  cases part with
  | resource l key =>
    have hne : key.type ++ ":" ≠ "" := by
      intro hempty
      have hlist := congrArg String.toList hempty
      simp at hlist
    have hcollection := segments_place (resources l)
    show (Pointer.append _ (key.type ++ ":")).segments ++ key.path.segments = _
    rw [Pointer.segments_append _ hne]
    exact congrArg (fun names => (names ++ [key.type ++ ":"]) ++ key.path.segments) hcollection
  | whole => exact segments_place whole
  | entries => exact segments_place entries
  | entry l => exact segments_place (entry l)
  | subjects l => exact segments_place (subjects l)
  | subject l id => exact segments_place (subject l id)
  | resources l => exact segments_place (resources l)

/-- Parts are told apart by the names of their resources. -/
theorem resourceNames_injective {a b : PolicyPart} (h : a.resourceNames = b.resourceNames) :
    a = b := by
  have hcolon : ∀ {s t : String}, s ++ ":" = t ++ ":" → s = t := by
    intro s t heq
    have hchars := congrArg String.toList heq
    rw [String.toList_append, String.toList_append] at hchars
    exact String.toList_inj.mp (List.append_cancel_right hchars)
  -- Parts of different sorts differ in the number of their names or in the collection.
  cases a <;> cases b <;>
    simp only [resourceNames, names, List.cons_append, List.nil_append, List.cons.injEq, true_and,
      and_true, reduceCtorEq, String.reduceEq, false_and, and_false] at h
  case whole.whole => rfl
  case entries.entries => rfl
  case entry.entry => rw [Label.text_injective h]
  case subjects.subjects => rw [Label.text_injective h]
  case resources.resources => rw [Label.text_injective h]
  case subject.subject => rw [Label.text_injective h.1, SubjectId.text_injective h.2]
  case resource.resource l key l' key' =>
    obtain ⟨hlabel, htype, hpath⟩ := h
    have hkey : key = key' := by
      apply Key.names_injective
      show key.type :: key.path.segments = key'.type :: key'.path.segments
      rw [hcolon htype, hpath]
    rw [Label.text_injective hlabel, hkey]

/-- Parts are told apart by the keys of their resources. -/
theorem resourceKey_injective {a b : PolicyPart} (h : a.resourceKey = b.resourceKey) : a = b := by
  have hpath : a.resourcePath = b.resourcePath := congrArg ResourceKey.path h
  apply resourceNames_injective
  rw [← segments_resourcePath, ← segments_resourcePath, hpath]

/-- Only the whole policy stands at the root. -/
theorem isRoot_place_iff (part : PolicyPart) : part.place.isRoot = true ↔ part = whole := by
  unfold Pointer.isRoot
  rw [segments_place]
  cases part with
  | whole => exact ⟨fun _ => rfl, fun _ => rfl⟩
  | entries => exact ⟨nofun, nofun⟩
  | entry l => exact ⟨nofun, nofun⟩
  | subjects l => exact ⟨nofun, nofun⟩
  | subject l id => exact ⟨nofun, nofun⟩
  | resources l => exact ⟨nofun, nofun⟩
  | resource l key => exact ⟨nofun, nofun⟩

/-- Bookkeeping makes no difference to what a part holds. -/
theorem get?_withBook (p : Policy) (book : Bookkeeping) {part : PolicyPart} (h : part ≠ whole) :
    part.get? { p with book } = part.get? p := by
  cases part with
  | whole => exact absurd rfl h
  | entries | entry _ | subjects _ | subject _ _ | resources _ | resource _ _ => rfl

/-- Nor does it to whether a part is there. -/
theorem isSome_get?_withBook (p : Policy) (book : Bookkeeping) (part : PolicyPart) :
    (part.get? { p with book }).isSome = (part.get? p).isSome := by
  by_cases hwhole : part = whole
  · rw [hwhole]
    rfl
  · rw [get?_withBook p book hwhole]

/-- A part that is there has the entry it belongs to. -/
theorem exists_entry_of_get? {p : Policy} {part : PolicyPart} {content : Json}
    (h : part.get? p = some content) {l : Label} (hlabel : part.label? = some l) :
    ∃ body, p.entries.get? l = some body := by
  cases part with
  | whole => cases hlabel
  | entries => cases hlabel
  | entry l' =>
    cases hlabel
    obtain ⟨body, hbody, -⟩ := Option.map_eq_some_iff.mp h
    exact ⟨body, hbody⟩
  | subjects l' =>
    cases hlabel
    obtain ⟨body, hbody, -⟩ := Option.map_eq_some_iff.mp h
    exact ⟨body, hbody⟩
  | resources l' =>
    cases hlabel
    obtain ⟨body, hbody, -⟩ := Option.map_eq_some_iff.mp h
    exact ⟨body, hbody⟩
  | subject l' id =>
    cases hlabel
    obtain ⟨subject, hsubject, -⟩ := Option.map_eq_some_iff.mp h
    obtain ⟨body, hbody, -⟩ := Option.bind_eq_some_iff.mp hsubject
    exact ⟨body, hbody⟩
  | resource l' key =>
    cases hlabel
    obtain ⟨effects, heffects, -⟩ := Option.map_eq_some_iff.mp h
    obtain ⟨body, hbody, -⟩ := Option.bind_eq_some_iff.mp heffects
    exact ⟨body, hbody⟩

end PolicyPart

/-- No piece that can be written is the whole policy. -/
theorem PolicyPiece.part_ne_whole (piece : PolicyPiece) : piece.part ≠ .whole := by
  cases piece with
  | entry | subject | resource => exact nofun

/-- A piece that is put in place is there. -/
theorem PolicyPiece.get?_put (piece : PolicyPiece) (p : Policy) :
    piece.part.get? (piece.put p) = some piece.toJson := by
  cases piece with
  | entry e =>
    show ((p.setEntry e).entries.get? e.label).map _ = _
    unfold Policy.setEntry
    rw [Dict.get?_insert_self]
    rfl
  | subject l id subject =>
    show ((p.setSubject l id subject).subject? l id).map _ = _
    unfold Policy.subject? Policy.setSubject Policy.updateEntry
    rw [Dict.get?_insert_self, Option.bind_some, Dict.get?_insert_self]
    rfl
  | resource l key effects =>
    show ((p.setResource l key effects).resource? l key).map _ = _
    unfold Policy.resource? Policy.setResource Policy.updateEntry
    rw [Dict.get?_insert_self, Option.bind_some, Dict.get?_insert_self]
    rfl

namespace PolicyRules

/-- The tag of a request is that of what stands at the place of its part. -/
theorem tag_eq (r : PolicyRequest) (p : Policy) :
    tag r p = if r.part.place.isRoot then some (.ofRevision p.book.revision)
      else (r.part.place.get? p.toJson).map .ofContent := by
  unfold tag
  by_cases hwhole : r.part = .whole
  · rw [hwhole]
    rfl
  · have hroot : ¬ r.part.place.isRoot = true := mt (PolicyPart.isRoot_place_iff _).mp hwhole
    rw [if_neg hroot, ← PolicyPart.get?_eq_get?_place]
    split
    · rename_i h
      exact absurd h hwhole
    · rfl

/-! ## What an accepted change leaves -/

namespace Setting

variable {s : Setting}

/-- Adjusting an entry keeps its label. -/
theorem label_of_adjustEntry {given e : Entry} (h : s.adjustEntry given = .ok e) :
    e.label = given.label := by
  obtain ⟨subjects, -, h⟩ := (bind_eq_ok_iff _ _ _).mp h
  cases h
  rfl

/-- An accepted change of an active policy leaves it active, with the addressed part in place. -/
theorem Accepts.keeps_part {current modified : Policy} {change : PolicyChange}
    {response : Response} {created deleted : Bool} {event : Event .policy PolicyChange}
    (haccepts : s.Accepts (some current) change response created deleted)
    (hactive : current.book.lifecycle.isActive = true)
    (hkeeps : ∀ item, s.command.request ≠ .remove item) (hevent : event.change = change)
    (hmodified : current.after event = .ok modified) :
    modified.book.lifecycle.isActive = true ∧
      (s.command.request.part.get? modified).isSome = true := by
  unfold Policy.after at hmodified
  rw [hevent] at hmodified
  -- What was written is there, under the label that was asked for: no adjustment changes a label.
  cases haccepts with
  | replaced _ _ _ asked _ _ _ =>
    cases hmodified
    rw [asked]
    exact ⟨rfl, rfl⟩
  | entriesReplaced _ _ _ es asked _ _ _ _ =>
    obtain ⟨entries, -, heq⟩ := (bind_eq_ok_iff _ _ _).mp hmodified
    cases heq
    rw [asked]
    exact ⟨hactive, rfl⟩
  | subjectsReplaced _ body l _ subjects asked _ _ _ _ =>
    cases hmodified
    rw [asked]
    refine ⟨hactive, ?_⟩
    show (((current.setSubjects l subjects).entries.get? l).map _).isSome = true
    unfold Policy.setSubjects Policy.updateEntry
    rw [Dict.get?_insert_self]
    rfl
  | resourcesReplaced _ body l resources asked _ _ _ =>
    cases hmodified
    rw [asked]
    refine ⟨hactive, ?_⟩
    show (((current.setResources l resources).entries.get? l).map _).isSome = true
    unfold Policy.setResources Policy.updateEntry
    rw [Dict.get?_insert_self]
    rfl
  | entryWritten _ given e asked adjusted _ _ =>
    cases hmodified
    rw [asked]
    refine ⟨hactive, ?_⟩
    show ((PolicyPart.entry given.label).get? _).isSome = true
    rw [← label_of_adjustEntry adjusted]
    exact Option.isSome_of_eq_some (PolicyPiece.get?_put (.entry e) current)
  | subjectWritten _ body l id _ subject asked _ _ _ _ =>
    cases hmodified
    rw [asked]
    exact ⟨hactive, Option.isSome_of_eq_some (PolicyPiece.get?_put (.subject l id subject) current)⟩
  | resourceWritten _ body l key effects asked _ _ _ =>
    cases hmodified
    rw [asked]
    exact ⟨hactive, Option.isSome_of_eq_some (PolicyPiece.get?_put (.resource l key effects) current)⟩
  | deleted _ asked => exact absurd asked (hkeeps _)
  | entryRemoved _ _ _ asked _ _ => exact absurd asked (hkeeps _)
  | subjectRemoved _ _ _ _ asked _ _ _ => exact absurd asked (hkeeps _)
  | resourceRemoved _ _ _ _ asked _ _ _ => exact absurd asked (hkeeps _)

end Setting

/-- A mutation that removes nothing leaves an active policy with the addressed part in place. -/
theorem kept_of_decide_mutation {config : PolicyConfig} {now : Timestamp} {policy : Option Policy}
    {revision : Revision} {c : PolicyCommand} {event : Event .policy PolicyChange}
    {response : Response} {created deleted : Bool} {next : Policy}
    (hdecided : decide config now policy revision c = .mutation event response created deleted)
    (hkeeps : ∀ item, c.request ≠ .remove item)
    (happlied : Aggregate.apply event policy = .ok next) :
    Aggregate.isActive next = true ∧ (c.request.part.get? next).isSome = true := by
  obtain ⟨change, hevent, haccepts⟩ := decide_mutation hdecided
  cases hactive : Aggregate.active? policy with
  | some current =>
    rw [hactive] at haccepts
    obtain ⟨-, hcurrent⟩ := Option.filter_eq_some_iff.mp hactive
    obtain ⟨modified, hmodified, rfl⟩ := Aggregate.modified_of_apply hactive happlied
    obtain ⟨hlife, hpart⟩ := haccepts.keeps_part hcurrent hkeeps
      (congrArg Event.change hevent) hmodified
    refine ⟨hlife, ?_⟩
    rw [← hpart]
    exact PolicyPart.isSome_get?_withBook modified _ _
  | none =>
    rw [hactive] at haccepts
    have hwhole : c.request.part = .whole := haccepts.part_of_none
    rw [hwhole]
    refine ⟨?_, rfl⟩
    rcases Aggregate.apply_cases happlied with ⟨-, -, made, hmade, rfl⟩ |
      ⟨-, current, _, hsome, -, -⟩
    · have hcreated : Policy.ofCreation event = .ok made := hmade
      unfold Policy.ofCreation at hcreated
      split at hcreated
      · cases hcreated
        rfl
      · cases hcreated
    · rw [hactive] at hsome
      cases hsome

/-- A part that is in place can be retrieved. -/
theorem decide_retrieve {config : PolicyConfig} {now : Timestamp} {policy : Option Policy}
    {revision : Revision} {c : PolicyCommand} {current : Policy} {part : PolicyPart}
    {content : Json} (hactive : Aggregate.active? policy = some current)
    (asked : c.request = .retrieve part) (hcontent : part.get? current = some content) :
    decide config now policy revision c =
      .query (Setting.response ⟨config, now, revision, c⟩ .ok (some content)) := by
  have hretrieved : Setting.retrieve ⟨config, now, revision, c⟩ current part =
      .ok (.query (Setting.response ⟨config, now, revision, c⟩ .ok (some content))) := by
    unfold Setting.retrieve
    cases hlabel : part.label? with
    | none =>
      simp only [hcontent]
      rfl
    | some l =>
      -- The entry is checked first, and it is there since the part is.
      obtain ⟨body, hbody⟩ := PolicyPart.exists_entry_of_get? hcontent hlabel
      have hexisting := (Setting.existingEntry_eq_ok_iff
        ⟨config, now, revision, c⟩ current l body).mpr hbody
      simp only [hexisting, hcontent]
      rfl
  unfold decide Setting.onExisting
  simp only [hactive, asked, hretrieved]

end PolicyRules

end GuardedThings
