import GuardedThings.Proofs.Access.GuardVerdicts
import GuardedThings.Proofs.Access.RepeatedLookups
import GuardedThings.Proofs.Access.Subtree
import GuardedThings.Proofs.Access.ViewLeaves

/-!
# What is seen was authorized

A query passes if the caller may read something at or below the resource it
addresses, which is decided by a search of the stored tree. What the caller sees
of the answer is decided leaf by leaf, mostly at paths that the tree does not
store. The two agree in one direction: whatever is left of an answer has a leaf
(`Json.exists_reaches_leaf`), that leaf may be read, and it lies below the
resource (`hasPermissionAtOrBelow_of_viewAt?`), where the search finds a grant
however far above the leaf it was given (`AccessTree.WellFormed.grantsAtOrBelow_iff`).

Both decisions have to rest on one enforcer, so they are compared for caches that
answer alike (`EnforcerCache.AnswersAlike`).
-/

set_option autoImplicit false

namespace GuardedThings

/-! ## Views -/

/-- Appending names extends a pointer. -/
theorem Pointer.prefix_foldl_append (p : Pointer) (path : List String) :
    p.segments <+: (path.foldl append p).segments := by
  induction path generalizing p with
  | nil => exact List.prefix_rfl
  | cons name rest ih =>
    have hfirst : p.segments <+: (p.append name).segments := by
      unfold append
      split
      · exact List.prefix_rfl
      · exact List.prefix_append _ _
    exact hfirst.trans (ih (p.append name))

namespace Enforcer

/-- Who sees anything of what is found at a key holds the permissions at or below the key. -/
theorem hasPermissionAtOrBelow_of_viewAt? {policy : Policy} {t : Timestamp} {key : ResourceKey}
    {value view : Json} {caller : Caller} {ps : Permissions}
    (h : (asOf policy t).viewAt? key value caller ps = some view) :
    (asOf policy t).hasPermissionAtOrBelow caller key ps = true := by
  obtain ⟨path, leaf, hreaches, hleaf⟩ := Json.exists_reaches_leaf view
  obtain ⟨-, hallowed⟩ :=
    (Json.exists_visible?_reaches_iff _ hleaf path key.path value).mp ⟨view, h, hreaches⟩
  rw [allows_type] at hallowed
  have hcovers : key.covers { key with path := path.foldl Pointer.append key.path } = true :=
    (ResourceKey.covers_iff _ _).mpr ⟨rfl, Pointer.prefix_foldl_append key.path path⟩
  exact hasPermissionAtOrBelow_of_hasPermission hallowed hcovers

end Enforcer

/-! ## Queries and answers -/

section Guards

variable {cache cache' : EnforcerCache} {policy : Policy} {caller : Caller} {now : Timestamp}
  {r : Response}

/-- Where one cache's enforcer shows anything, the other's lets queries through. -/
theorem EnforcerCache.AnswersAlike.permits_of_view {key : ResourceKey} {entity : Option Json}
    {view : Json} (alike : AnswersAlike policy now cache cache')
    (h : (entity.bind fun value => (cache'.getOrBuild policy now).1.bind fun e =>
      e.viewAt? key value caller .read) = some view) :
    policy.isDeleted = false ∧
      ∃ e, (cache.getOrBuild policy now).1 = some e ∧ e.permits true caller key = true := by
  obtain ⟨value, -, hfound⟩ := Option.bind_eq_some_iff.mp h
  obtain ⟨e, hanswer, hview⟩ := Option.bind_eq_some_iff.mp hfound
  obtain ⟨hsame, built, t, rfl⟩ := alike.symm.answer hanswer
  constructor
  · rw [Bool.eq_false_iff]
    intro hdeleted
    rw [(getOrBuild_eq_none_iff _ _ _).mpr hdeleted] at hanswer
    cases hanswer
  · exact ⟨_, hsame, Enforcer.hasPermissionAtOrBelow_of_viewAt? hview⟩

/-- Visible implies authorized: if anything of an answer to a query is left when it is filtered for
a caller, then the query is authorized for this caller. The two decisions rest on caches that answer
alike: on one history of lookups, up to how often this policy was looked up last at this time (so
also on one cache, or on the cache that the other decision leaves), or on coherent histories. -/
theorem visible_implies_authorized (alike : EnforcerCache.AnswersAlike policy now cache cache')
    (view : Json) :
    (∀ c : PolicyCommand, c.request.isQuery = true →
      (PolicyGuard.filter cache' c r policy caller now).1.entity = some view →
        (PolicyGuard.authorize cache c (some policy) caller now).1 = .ok ()) ∧
    (∀ c : ThingCommand, c.request.isQuery = true →
      (ThingGuard.filter cache' c r policy caller now).1.entity = some view →
        (ThingGuard.authorize cache c (some policy) caller now).1 = .ok ()) := by
  constructor
  · intro c hquery hseen
    rw [PolicyGuard.entity_filter] at hseen
    obtain ⟨hlive, hpermits⟩ := alike.permits_of_view hseen
    rw [PolicyGuard.authorize_eq_ok_iff hlive, hquery]
    exact hpermits
  · intro c hquery hseen
    rw [ThingGuard.entity_filter, Option.map_eq_some_iff] at hseen
    obtain ⟨kept, hkept, -⟩ := hseen
    obtain ⟨-, hpermits⟩ := alike.permits_of_view hkept
    rw [ThingGuard.authorize_eq_ok_iff, hquery]
    exact hpermits

end Guards

/-! ## Visiting a museum -/

/-- The label of the only entry. -/
def visitors : Label := ⟨"visitors", by decide⟩

/-- A policy by which a visitor may read the attributes but the price, and who the visitors are. -/
def museumPolicy : Policy :=
  (Policy.new ⟨"org.example:museum", by decide⟩).setEntry
    { label := visitors
      body := ⟨Dict.empty.insert ⟨"nginx:tourist", by decide⟩ ⟨"generated", none⟩,
        ((Dict.empty.insert ThingPart.attributes.resourceKey ⟨.read, .empty⟩).insert
          (ThingPart.attributeAt (.ofSegments ["price"])).resourceKey ⟨.empty, .read⟩).insert
          (PolicyPart.subjects visitors).resourceKey ⟨.read, .empty⟩⟩ }

/-- The caller whom the policy names. -/
def visitor : Caller := .single ⟨"nginx:tourist", by decide⟩

/-- The answer to a query, with the given entity. -/
def exhibited (entity : Json) : Response :=
  ⟨"org.example:museum", "answer", .ok, some entity, .empty⟩

/-- A painting with a title and a price. -/
def painting : Json :=
  .object [("attributes", .object [("price", .integer 1), ("title", .string "Sea")])]

/-- A visitor who asks for a whole painting sees its title, and may ask, though the policy says
nothing about the title. Of the whole policy the visitor sees who the visitors are, and may ask. -/
theorem visible_implies_authorized_visitor :
    let look : ThingCommand := ⟨⟨"org.example:painting", by decide⟩, .empty, .retrieve .whole⟩
    let looked := ThingGuard.authorize (.new .standard) look (some museumPolicy) visitor ⟨0⟩
    let ask : PolicyCommand := ⟨museumPolicy.id, .empty, .retrieve .whole⟩
    let asked := PolicyGuard.authorize (.new .standard) ask (some museumPolicy) visitor ⟨0⟩
    (ThingGuard.filter looked.2 look (exhibited painting) museumPolicy visitor ⟨0⟩).1.entity =
        some (.object [("attributes", .object [("title", .string "Sea")]),
          ("thingId", .string "org.example:painting")]) ∧
      looked.1 = .ok () ∧
      (PolicyGuard.filter asked.2 ask (exhibited museumPolicy.toJson)
          museumPolicy visitor ⟨0⟩).1.entity =
        some (.object [("entries", .object [("visitors", .object [("subjects",
          .object [("nginx:tourist", .object [("type", .string "generated")])])])])]) ∧
      asked.1 = .ok () := by
  intro look looked ask asked
  have alike : EnforcerCache.AnswersAlike museumPolicy ⟨0⟩ (.new .standard)
      ((EnforcerCache.new .standard).getOrBuild museumPolicy ⟨0⟩).2 :=
    .repeated .standard [] 0 1
  have hseen : (ThingGuard.filter looked.2 look (exhibited painting) museumPolicy
      visitor ⟨0⟩).1.entity = some (.object [("attributes", .object [("title", .string "Sea")]),
        ("thingId", .string "org.example:painting")]) := by
    decide +kernel
  have hshown : (PolicyGuard.filter asked.2 ask (exhibited museumPolicy.toJson) museumPolicy
      visitor ⟨0⟩).1.entity = some (.object [("entries", .object [("visitors", .object [("subjects",
        .object [("nginx:tourist", .object [("type", .string "generated")])])])])]) := by
    decide +kernel
  exact ⟨hseen, (visible_implies_authorized alike _).2 look rfl hseen,
    hshown, (visible_implies_authorized alike _).1 ask rfl hshown⟩

end GuardedThings
