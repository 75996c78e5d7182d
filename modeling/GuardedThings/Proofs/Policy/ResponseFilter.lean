import GuardedThings.Proofs.Access.GuardVerdicts
import GuardedThings.Proofs.Policy.Decisions
import GuardedThings.Proofs.Policy.DocumentParts

/-!
# Filtered responses

A piece of a policy can be asked for by itself or as part of a larger piece. By
itself it is seen from the resource that protects it, as part of a larger piece
from where the names in the document lead. For all parts but one kind the two
addresses are the same (`resourcePath_eq_place`), so the caller sees the same
either way.

They differ for a single resource: the document names it by its whole key, while
the resource that protects it has the key's type and the segments of its path as
names of their own. What a resource grants and what it revokes are two leaves,
so the answers agree exactly if the caller may read each of the two at both
addresses or at neither (`filtered_part_eq_iff`).
-/

set_option autoImplicit false

namespace GuardedThings

/-! ## Addresses of parts -/

namespace PolicyPart

/-- All parts but single resources are protected where they stand in the document. -/
theorem resourcePath_eq_place {part : PolicyPart} (h : ∀ l key, part ≠ .resource l key) :
    part.resourcePath = part.place := by
  cases part with
  | whole | entries | entry _ | subjects _ | subject _ _ | resources _ => rfl
  | resource l key => exact absurd rfl (h l key)

/-- The names that lead from a part to one inside it. -/
def namesWithin (outer inner : PolicyPart) : List String :=
  inner.place.segments.drop outer.place.level

/-- A part with another one inside is protected where it stands in the document. -/
theorem resourcePath_eq_place_of_outer {outer inner : PolicyPart}
    (inside : inner.place.startsWith outer.place = true) (hne : outer ≠ inner) :
    outer.resourcePath = outer.place := by
  refine resourcePath_eq_place ?_
  rintro l key rfl
  have hprefix := List.isPrefixOf_iff_prefix.mp inside
  rw [segments_place, segments_place] at hprefix
  exact hne (eq_of_names_resource hprefix).symm

/-- No names lead from a part to itself. -/
theorem namesWithin_self (part : PolicyPart) : namesWithin part part = [] := List.drop_length

/-- The place of a part inside another is further down by the names in between. -/
theorem place_eq_append {outer inner : PolicyPart}
    (inside : inner.place.startsWith outer.place = true) :
    inner.place.segments = outer.place.segments ++ namesWithin outer inner := by
  have hprefix := List.isPrefixOf_iff_prefix.mp inside
  exact (List.prefix_iff_eq_append.mp hprefix).symm

/-- The names in between lead from the outer place to the inner one. -/
theorem foldl_append_namesWithin {outer inner : PolicyPart}
    (inside : inner.place.startsWith outer.place = true) :
    (namesWithin outer inner).foldl Pointer.append outer.place = inner.place := by
  have hnames := place_eq_append inside
  have hnoEmpty : "" ∉ namesWithin outer inner := by
    intro hmem
    refine inner.place.noEmpty ?_
    rw [hnames]
    exact List.mem_append_right _ hmem
  have hsegments := outer.place.segments_foldl_append hnoEmpty
  rw [← hnames] at hsegments
  exact Key.names_injective hsegments

/-- What is inside a part is found in its content. -/
theorem getPath?_namesWithin {p : Policy} {outer inner : PolicyPart} {content : Json}
    (inside : inner.place.startsWith outer.place = true) (h : outer.get? p = some content) :
    content.getPath? (namesWithin outer inner) = inner.get? p := by
  rw [get?_eq_get?_place] at h ⊢
  unfold Pointer.get? at h ⊢
  rw [place_eq_append inside, Json.getPath?_append, h]
  rfl

/-- The content of a part has no name twice. -/
theorem plain_of_get? {p : Policy} {part : PolicyPart} {content : Json}
    (h : part.get? p = some content) : content.Plain := by
  rw [get?_eq_get?_place] at h
  exact p.tidy_toJson.plain.getPath? h

end PolicyPart

/-! ## The two leaves of a resource -/

namespace Effects

variable (allowed : Pointer → Bool) (e : Effects)

/-- One of the two leaves is seen exactly if its address is allowed. -/
theorem isSome_visible?_side (here : Pointer) {side : String} (h : side ∈ ["grant", "revoke"]) :
    (((Wire.encode e : Json).visible? allowed here).bind fun view => view.member? side).isSome =
      allowed (here.append side) := by
  have hseen : ∀ (there : Pointer) (ps : Permissions),
      ((Wire.encode ps : Json).visible? allowed there).isSome = allowed there := by
    intro there ps
    rw [Json.visible?_of_isLeaf allowed there rfl]
    cases allowed there <;> rfl
  rw [Json.visible?_bind_member? allowed here e.tidy_encode.plain]
  simp only [List.mem_cons, List.not_mem_nil, or_false] at h
  rcases h with rfl | rfl
  · exact hseen _ e.grant
  · exact hseen _ e.revoke

/-- Effects look the same from two addresses exactly if each leaf is allowed at both or neither. -/
theorem visible?_eq_visible?_iff (here here' : Pointer) :
    (Wire.encode e : Json).visible? allowed here = (Wire.encode e : Json).visible? allowed here' ↔
      ∀ side ∈ ["grant", "revoke"], allowed (here.append side) = allowed (here'.append side) := by
  constructor
  · intro h side hside
    rw [← isSome_visible?_side allowed e here hside, h, isSome_visible?_side allowed e here' hside]
  · intro h
    have hgrant := h "grant" (by simp)
    have hrevoke := h "revoke" (by simp)
    show Json.visible? allowed here (.object [("grant", Wire.encode e.grant),
        ("revoke", Wire.encode e.revoke)]) =
      Json.visible? allowed here' (.object [("grant", Wire.encode e.grant),
        ("revoke", Wire.encode e.revoke)])
    have hleaf : ∀ ps : Permissions, (Wire.encode ps : Json).isLeaf = true := fun ps => rfl
    simp only [Json.visible?, Json.visibleMembers, Json.visible?_of_isLeaf allowed _ (hleaf _),
      hgrant, hrevoke]

end Effects

/-! ## Answers -/

namespace PolicyGuard

/-- The entity of a filtered answer is the view of what the part holds. -/
theorem filter_answer {config : PolicyConfig} {cache : EnforcerCache} {policy : Policy}
    {now : Timestamp} {revision : Revision} {c : PolicyCommand} {r : Response} (caller : Caller)
    (ready : cache.ReadyFor policy now)
    (answered : PolicyRules.decide config now (some policy) revision c = .query r) :
    ∃ content, c.request.part.get? policy = some content ∧
      (filter cache c r policy caller now).1.entity =
        (Enforcer.asOf policy now).viewAt? c.request.part.resourceKey content caller .read := by
  obtain ⟨current, content, hactive, hcontent, hentity⟩ := PolicyRules.decide_query answered
  obtain ⟨hsome, hlive⟩ := Option.filter_eq_some_iff.mp hactive
  cases hsome
  refine ⟨content, hcontent, ?_⟩
  have hexists : policy.isDeleted = false := by
    have hbook : policy.book.lifecycle.isActive = true := hlive
    unfold Policy.isDeleted
    cases hlifecycle : policy.book.lifecycle with
    | active => rfl
    | deleted =>
      rw [hlifecycle] at hbook
      cases hbook
  rw [entity_filter, hentity, ready.getOrBuild_fst, hexists]
  rfl

/-- What may be seen at a path of a policy is asked by the key with this path. -/
theorem allows_policy (e : Enforcer) (caller : Caller) (ps : Permissions) (path : Pointer) :
    e.allows "policy" caller ps path = e.hasPermission caller (.policy path) ps :=
  e.allows_type (.policy path) caller ps path

/-- In the view of a part, a part inside is seen from where it stands in the document. -/
theorem getPath?_viewAt? (e : Enforcer) (caller : Caller) (ps : Permissions) {policy : Policy}
    {outer inner : PolicyPart} {content : Json}
    (inside : inner.place.startsWith outer.place = true) (hne : outer ≠ inner)
    (hcontent : outer.get? policy = some content) :
    ((e.viewAt? outer.resourceKey content caller ps).bind fun view =>
        view.getPath? (PolicyPart.namesWithin outer inner)) =
      (inner.get? policy).bind fun content' =>
        e.viewAt? (.policy inner.place) content' caller ps := by
  show ((content.visible? (e.allows "policy" caller ps) outer.resourcePath).bind _) = _
  rw [PolicyPart.resourcePath_eq_place_of_outer inside hne,
    Json.visible?_bind_getPath? _ _ _ (PolicyPart.plain_of_get? hcontent),
    PolicyPart.getPath?_namesWithin inside hcontent, PolicyPart.foldl_append_namesWithin inside]
  rfl

/-- A piece of a policy that is asked for by itself looks as it does within a larger piece, unless
it is a single resource, of which a leaf may be read at one of its two addresses but not at the
other. -/
theorem filtered_part_eq_iff {config : PolicyConfig} {cache cache' : EnforcerCache}
    {policy : Policy} {caller : Caller} {now : Timestamp} {revision : Revision}
    {outer inner : PolicyCommand} {larger piece : Response}
    (ready : cache.ReadyFor policy now) (ready' : cache'.ReadyFor policy now)
    (answered : PolicyRules.decide config now (some policy) revision outer = .query larger)
    (answered' : PolicyRules.decide config now (some policy) revision inner = .query piece)
    (inside : inner.request.part.place.startsWith outer.request.part.place = true) :
    (filter cache' inner piece policy caller now).1.entity =
        ((filter cache outer larger policy caller now).1.entity.bind fun view =>
          view.getPath? (PolicyPart.namesWithin outer.request.part inner.request.part)) ↔
      ∀ l key, inner.request.part = .resource l key → outer.request.part ≠ inner.request.part →
        ∀ side ∈ ["grant", "revoke"],
          (Enforcer.asOf policy now).hasPermission caller
              (.policy (inner.request.part.resourcePath.append side)) .read =
            (Enforcer.asOf policy now).hasPermission caller
              (.policy (inner.request.part.place.append side)) .read := by
  obtain ⟨content, hcontent, hview⟩ := filter_answer caller ready answered
  obtain ⟨content', hcontent', hview'⟩ := filter_answer caller ready' answered'
  rw [hview, hview']
  by_cases hsame : outer.request.part = inner.request.part
  · rw [hsame, hcontent'] at hcontent
    cases hcontent
    rw [hsame, PolicyPart.namesWithin_self]
    constructor
    · intro _ l key _ hne
      exact absurd rfl hne
    · intro _
      exact (Option.bind_fun_some _).symm
  · rw [getPath?_viewAt? _ _ _ inside hsame hcontent, hcontent', Option.bind_some]
    show content'.visible? ((Enforcer.asOf policy now).allows "policy" caller .read)
        inner.request.part.resourcePath =
      content'.visible? ((Enforcer.asOf policy now).allows "policy" caller .read)
        inner.request.part.place ↔ _
    -- Both sides view the same content, and only a single resource has two addresses.
    by_cases hresource : ∃ l key, inner.request.part = .resource l key
    · obtain ⟨l, key, hpart⟩ := hresource
      rw [hpart] at hcontent' hsame ⊢
      obtain ⟨effects, -, rfl⟩ := Option.map_eq_some_iff.mp hcontent'
      rw [Effects.visible?_eq_visible?_iff]
      simp only [allows_policy]
      constructor
      · intro h _ _ _ _
        exact h
      · intro h
        exact h l key rfl hsame
    · have hplace : inner.request.part.resourcePath = inner.request.part.place :=
        PolicyPart.resourcePath_eq_place fun l key hpart => hresource ⟨l, key, hpart⟩
      rw [hplace]
      constructor
      · intro _ l key hpart _
        exact absurd ⟨l, key, hpart⟩ hresource
      · intro _
        rfl

/-! ## Asking for an archive -/

/-- The label of the only entry. -/
def archivist : Label := ⟨"archivist", by decide⟩

/-- The only subject. -/
def archivistId : SubjectId := ⟨"nginx:archivist", by decide⟩

/-- A resource the entry names. -/
def shelves : ResourceKey := .thing (.ofSegments ["attributes", "shelves"])

/-- A policy by which the archivist may read everything but what is granted on the shelves. -/
def archivePolicy : Policy :=
  let hidden := (PolicyPart.resource archivist shelves).resourcePath.append "grant"
  (Policy.new ⟨"org.example:archive", by decide⟩).setEntry
    { label := archivist
      body := ⟨Dict.empty.insert archivistId ⟨"generated", none⟩,
        ((Dict.empty.insert (.policy .root) ⟨.ofList [.read, .write], .empty⟩).insert
          (.policy hidden) ⟨.empty, .read⟩).insert shelves ⟨.read, .empty⟩⟩ }

/-- A query to the archive. -/
def ask (part : PolicyPart) : PolicyCommand := ⟨archivePolicy.id, .empty, .retrieve part⟩

/-- The archivist sees itself in the policy as it does when it asks for its subject next. -/
theorem filtered_part_eq_iff_archivist :
    ∃ larger piece,
      PolicyRules.decide .standard ⟨0⟩ (some archivePolicy) ⟨1⟩ (ask .whole) = .query larger ∧
      PolicyRules.decide .standard ⟨0⟩ (some archivePolicy) ⟨1⟩
        (ask (.subject archivist archivistId)) = .query piece ∧
      let (seen, cache) := filter (.new .standard) (ask .whole) larger archivePolicy
        (.single archivistId) ⟨0⟩
      (filter cache (ask (.subject archivist archivistId)) piece archivePolicy
          (.single archivistId) ⟨0⟩).1.entity =
        seen.entity.bind fun view =>
          view.getPath? ["entries", "archivist", "subjects", "nginx:archivist"] := by
  have ready := EnforcerCache.readyFor_new .standard archivePolicy ⟨0⟩
  have answered : PolicyRules.decide .standard ⟨0⟩ (some archivePolicy) ⟨1⟩ (ask .whole) =
      .query _ := rfl
  have answered' : PolicyRules.decide .standard ⟨0⟩ (some archivePolicy) ⟨1⟩
      (ask (.subject archivist archivistId)) = .query _ := rfl
  exact ⟨_, _, answered, answered',
    (filtered_part_eq_iff ready ready.again answered answered' rfl).mpr nofun⟩

/-- What is granted on the shelves is hidden from the archivist who asks for the resource, and shown
among the resources of the entry. -/
theorem hidden_grant_shown_in_larger_piece :
    ∃ larger piece,
      PolicyRules.decide .standard ⟨0⟩ (some archivePolicy) ⟨1⟩ (ask (.resources archivist)) =
        .query larger ∧
      PolicyRules.decide .standard ⟨0⟩ (some archivePolicy) ⟨1⟩
        (ask (.resource archivist shelves)) = .query piece ∧
      (PolicyPart.resource archivist shelves).place.startsWith
        (PolicyPart.resources archivist).place = true ∧
      (filter (.new .standard) (ask (.resource archivist shelves)) piece archivePolicy
        (.single archivistId) ⟨0⟩).1.entity = some (.object [("revoke", .array [])]) ∧
      ((filter (.new .standard) (ask (.resources archivist)) larger archivePolicy
          (.single archivistId) ⟨0⟩).1.entity.bind fun view =>
        view.getPath? (PolicyPart.namesWithin (.resources archivist)
          (.resource archivist shelves))) =
        some (.object [("grant", .array [.string "READ"]), ("revoke", .array [])]) :=
  ⟨_, _, rfl, rfl, rfl, rfl, rfl⟩

end PolicyGuard

end GuardedThings
