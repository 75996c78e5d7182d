import GuardedThings.Proofs.Access.CacheHistory
import GuardedThings.Proofs.Access.ReadableLeaves
import GuardedThings.Proofs.Thing.PartTags
import GuardedThings.Thing.Guard

/-!
# What answers to queries depend on

Two things in which a caller may read the same leaves are answered alike, except
for what is settled before the answer is cut down to what the caller may see. A
part is tagged by a hash of all its content, and the conditional headers are
checked against this tag; and whether the part is there, with the feature it
belongs to, is asked whether or not anything of it may be read
(`hidden_attributes_are_noticed`).

The whole thing is tagged by its revision and always there, so its answers do not
depend on hidden fields at all. What depends on them in the answers about a part
is the tag and whether there is one (`hidden_fields_decide_tags_only`).

The view of a part is a view into the view of the document
(`Json.visible?_getPath?_eq`), and that is determined by the readable leaves.
-/

set_option autoImplicit false

namespace GuardedThings

/-! ## Views of parts -/

/-- Descending by the segments of a pointer from the root leads to the pointer. -/
theorem Pointer.foldl_append_root (p : Pointer) : p.segments.foldl append root = p := by
  have hsegments := root.segments_foldl_append p.noEmpty
  obtain ⟨segments, noEmpty⟩ := p
  generalize segments.foldl append root = q at hsegments
  obtain ⟨segments', noEmpty'⟩ := q
  cases hsegments
  rfl

namespace Thing

/-- The caller may read the same leaves of both things. -/
def SameReadable (e : Enforcer) (caller : Caller) (t u : Thing) : Prop :=
  Json.SameLeaves
    (fun path => e.hasPermission caller (path.foldl ResourceKey.child (.thing .root)) .read = true)
    t.toJson u.toJson

variable {e : Enforcer} {caller : Caller} {t u : Thing}

/-- The same leaves are readable exactly if the documents are seen alike. -/
theorem sameReadable_iff (ht : t.toJson.Tidy) (hu : u.toJson.Tidy) :
    SameReadable e caller t u ↔
      t.toJson.visible? (e.allows "thing" caller .read) .root =
        u.toJson.visible? (e.allows "thing" caller .read) .root := by
  have hallowed : ∀ path : List String,
      e.hasPermission caller (path.foldl ResourceKey.child (.thing .root)) .read =
        e.allows "thing" caller .read (path.foldl Pointer.append .root) := by
    intro path
    rw [ResourceKey.foldl_child]
    exact (e.allows_type (.thing .root) caller .read _).symm
  rw [Json.visible?_eq_iff ht hu]
  unfold SameReadable
  simp only [hallowed]

/-- A part that both things have is seen alike if the same leaves are readable. -/
theorem SameReadable.viewAt?_part (h : SameReadable e caller t u) (ht : t.toJson.Tidy)
    (hu : u.toJson.Tidy) {part : ThingPart} {content content' : Json}
    (hcontent : part.get? t = some content) (hcontent' : part.get? u = some content') :
    e.viewAt? part.resourceKey content caller .read =
      e.viewAt? part.resourceKey content' caller .read := by
  have hsame := Json.visible?_getPath?_eq ht hu ((sameReadable_iff ht hu).mp h)
    (ThingPart.get?_place_of_get? hcontent) (ThingPart.get?_place_of_get? hcontent')
  rw [Pointer.foldl_append_root] at hsame
  exact hsame

end Thing

/-! ## What is asked for -/

namespace ThingQuery

/-- Both things have the feature that what is asked for belongs to, or neither has it. -/
def SameOwner (query : ThingQuery) (t u : Thing) : Prop :=
  ∀ id, query.part.owner? = some id → (t.feature? id).isSome = (u.feature? id).isSome

/-- The failure to find what is asked for; the feature it belongs to is missed first. -/
def absence (query : ThingQuery) (thing : ThingId) (t : Thing) : Failure :=
  match query.part.owner? with
  | some id =>
    if (t.feature? id).isSome then query.part.notAccessible thing
    else .featureNotAccessible thing.text id.text
  | none => query.part.notAccessible thing

variable {query : ThingQuery} {t u : Thing}

/-- Only parts of features belong to a feature, and missing one is not missing the feature. -/
theorem notAccessible_ne_of_owner {id : FeatureId} (h : query.part.owner? = some id)
    (thing : ThingId) :
    query.part.notAccessible thing ≠ .featureNotAccessible thing.text id.text := by
  cases query with
  | property side _ _ =>
    cases side with
    | reported => exact nofun
    | desired => exact nofun
  | whole | attributes | attributeAt _ | feature _ => cases h

/-- The failure tells whether the feature is there, and no more. -/
theorem absence_eq_iff (thing : ThingId) :
    query.absence thing t = query.absence thing u ↔ query.SameOwner t u := by
  unfold absence SameOwner
  cases howner : query.part.owner? with
  | none => exact ⟨fun _ _ => nofun, fun _ => rfl⟩
  | some id =>
    have hne := notAccessible_ne_of_owner howner thing
    simp only [Option.some.injEq, forall_eq']
    cases (t.feature? id).isSome <;> cases (u.feature? id).isSome <;>
      simp [hne, hne.symm]

/-- What stands at the place of a part decides whether the part is there. -/
theorem isSome_get?_of_place
    (h : (query.part.place.get? t.toJson).isSome = (query.part.place.get? u.toJson).isSome) :
    (query.part.get? t).isSome = (query.part.get? u).isSome := by
  by_cases hmisplaced : query.part.isMisplaced = true
  · rw [ThingPart.get?_of_isMisplaced t hmisplaced, ThingPart.get?_of_isMisplaced u hmisplaced]
  · rw [ThingPart.get?_eq_get?_place t _ (eq_false_of_ne_true hmisplaced),
      ThingPart.get?_eq_get?_place u _ (eq_false_of_ne_true hmisplaced), h]

end ThingQuery

/-! ## Execution of a query -/

namespace ThingRules

variable {config : ThingConfig} {now : Timestamp} {c : ThingCommand} {query : ThingQuery}
  {t u : Thing}

/-- Where the tags of a part are equal, it is there in both things or in neither. -/
theorem isSome_get?_of_tag (asked : c.request = .retrieve query)
    (htag : tag c.request t = tag c.request u) :
    (query.part.get? t).isSome = (query.part.get? u).isSome := by
  refine ThingQuery.isSome_get?_of_place ?_
  have hpart : c.request.part = query.part := congrArg ThingRequest.part asked
  rw [tag_eq, tag_eq, hpart] at htag
  by_cases hroot : query.part.place.isRoot = true
  · rw [(ThingPart.isRoot_place_iff _).mp hroot]
    rfl
  · rw [if_neg hroot, if_neg hroot] at htag
    have hsome := congrArg Option.isSome htag
    rw [Option.isSome_map, Option.isSome_map] at hsome
    exact hsome

/-- The tag of a part of an active thing is looked up in the thing. -/
theorem currentTag_of_active (hactive : Aggregate.active? (some t) = some t) (r : ThingRequest) :
    (thingRules config).currentTag (some t) r = tag r t := by
  unfold CommandRules.currentTag
  rw [hactive]
  rfl

/-- The response to a query of a part that is there, before it is given a tag. -/
def found (c : ThingCommand) (content : Json) : Response :=
  { entityId := c.entityId.text
    type := c.request.responseType
    status := .ok
    entity := some content
    headers := c.headers.forResponse }

/-- A part that is there is answered with what it holds. -/
theorem execute_retrieve {content : Json} (hactive : Aggregate.active? (some t) = some t)
    (asked : c.request = .retrieve query) (hcontent : query.part.get? t = some content)
    (passes : (thingRules config).checkHeaders (some t) c = none) :
    (thingRules config).execute now (some t) c =
      .query ((found c content).withTag (tag c.request t)) := by
  have hdecided : (thingRules config).decide now (some t) (Aggregate.revision (some t)).next c =
      .query (found c content) := decide_retrieve hactive asked hcontent
  unfold CommandRules.execute
  simp only [passes, hdecided]
  unfold CommandRules.attachTag
  rw [currentTag_of_active hactive]

/-- A part that is not there is missed. -/
theorem execute_retrieve_absent (hactive : Aggregate.active? (some t) = some t)
    (asked : c.request = .retrieve query) (habsent : query.part.get? t = none)
    (passes : (thingRules config).checkHeaders (some t) c = none) :
    (thingRules config).execute now (some t) c = .failed (query.absence c.entityId t) := by
  have hretrieved : Setting.retrieve ⟨config, now, (Aggregate.revision (some t)).next, c⟩ t query =
      .error (query.absence c.entityId t) := by
    unfold Setting.retrieve Setting.checkOwner Setting.checkFeature ThingQuery.absence
    rw [habsent]
    cases query.part.owner? with
    | none => rfl
    | some id =>
      by_cases hfeature : (t.feature? id).isSome = true
      · simp only [hfeature]
        rfl
      · simp only [hfeature]
        rfl
  have hdecided : (thingRules config).decide now (some t) (Aggregate.revision (some t)).next c =
      .failed (query.absence c.entityId t) := by
    show decide config now (some t) _ c = _
    unfold decide Setting.onExisting
    simp only [hactive, asked, hretrieved]
  unfold CommandRules.execute
  simp only [passes, hdecided]
  rfl

end ThingRules

/-! ## Answers -/

namespace ThingGuard

/-- The outcome of a command as the caller may see it. -/
def disclose (cache : EnforcerCache) (c : ThingCommand) (policy : Policy) (caller : Caller)
    (now : Timestamp) : Outcome .thing ThingChange → Outcome .thing ThingChange
  | .query response => .query (filter cache c response policy caller now).1
  | outcome => outcome

variable {cache : EnforcerCache} {config : ThingConfig} {c : ThingCommand} {query : ThingQuery}
  {policy : Policy} {caller : Caller} {now : Timestamp} {t u : Thing}

/-- Filtering leaves the tag alone. -/
theorem filter_withTag (r : Response) (tag : Option EntityTag) :
    (filter cache c (r.withTag tag) policy caller now).1 =
      (filter cache c r policy caller now).1.withTag tag := by
  obtain ⟨_, _, _, entity, _⟩ := r
  cases entity with
  | none => rfl
  | some _ => rfl

/-- What is disclosed of a part that is there, unless the conditional headers end the query. -/
theorem disclose_found {content : Json} (active : Aggregate.active? (some t) = some t)
    (asked : c.request = .retrieve query) (hcontent : query.part.get? t = some content)
    (passes : (thingRules config).checkHeaders (some t) c = none) :
    disclose cache c policy caller now ((thingRules config).execute now (some t) c) =
      .query ((filter cache c (ThingRules.found c content) policy caller now).1.withTag
        (ThingRules.tag c.request t)) := by
  rw [ThingRules.execute_retrieve active asked hcontent passes]
  show Outcome.query _ = _
  rw [filter_withTag]

/-- What is disclosed of a part that is not there, unless the conditional headers end the query. -/
theorem disclose_absent (active : Aggregate.active? (some t) = some t)
    (asked : c.request = .retrieve query) (habsent : query.part.get? t = none)
    (passes : (thingRules config).checkHeaders (some t) c = none) :
    disclose cache c policy caller now ((thingRules config).execute now (some t) c) =
      .failed (query.absence c.entityId t) := by
  rw [ThingRules.execute_retrieve_absent active asked habsent passes]
  rfl

/-! ## Two things that are alike to a caller -/

/-- Two active things of one revision in which a caller may read the same leaves. -/
structure Alike (policy : Policy) (caller : Caller) (now : Timestamp) (t u : Thing) : Prop where
  active : t.book.lifecycle.isActive = true
  active' : u.book.lifecycle.isActive = true
  revision : t.book.revision = u.book.revision
  tidy : t.toJson.Tidy
  tidy' : u.toJson.Tidy
  readable : Thing.SameReadable (Enforcer.asOf policy now) caller t u

namespace Alike

/-- Looking alike to a caller is symmetric. -/
theorem symm (h : Alike policy caller now t u) : Alike policy caller now u t :=
  ⟨h.active', h.active, h.revision.symm, h.tidy', h.tidy, h.readable.symm⟩

/-- Things that look alike are active. -/
theorem active?_eq (h : Alike policy caller now t u) : Aggregate.active? (some t) = some t :=
  Option.filter_eq_some_iff.mpr ⟨rfl, h.active⟩

/-- What a part holds in both things looks the same. -/
theorem filter_found_eq {content content' : Json} (h : Alike policy caller now t u)
    (ready : cache.ReadyFor policy now) (asked : c.request = .retrieve query)
    (hcontent : query.part.get? t = some content) (hcontent' : query.part.get? u = some content') :
    (filter cache c (ThingRules.found c content) policy caller now).1 =
      (filter cache c (ThingRules.found c content') policy caller now).1 := by
  have hpart : c.request.part = query.part := congrArg ThingRequest.part asked
  have hfound := ready.getOrBuild_fst
  unfold filter ThingRules.found
  dsimp only
  rw [hfound, hpart]
  by_cases hdeleted : policy.isDeleted = true
  · rw [if_pos hdeleted]
    rfl
  · rw [if_neg hdeleted, Option.bind_some, Option.bind_some,
      h.readable.viewAt?_part h.tidy h.tidy' hcontent hcontent']

/-- The answers agree if the tags do, and the feature that what is asked for belongs to is in both
things or in neither. -/
theorem disclose_eq_of_tag (h : Alike policy caller now t u) (ready : cache.ReadyFor policy now)
    (asked : c.request = .retrieve query)
    (htag : ThingRules.tag c.request t = ThingRules.tag c.request u)
    (howner : query.SameOwner t u) :
    disclose cache c policy caller now ((thingRules config).execute now (some t) c) =
      disclose cache c policy caller now ((thingRules config).execute now (some u) c) := by
  have hchecked : (thingRules config).checkHeaders (some t) c =
      (thingRules config).checkHeaders (some u) c := by
    refine CommandRules.checkHeaders_congr _ ?_
    rw [ThingRules.currentTag_of_active h.active?_eq,
      ThingRules.currentTag_of_active h.symm.active?_eq, htag]
  cases passes : (thingRules config).checkHeaders (some t) c with
  | some outcome =>
    unfold CommandRules.execute
    rw [← hchecked, passes]
  | none =>
    have passes' := hchecked.symm.trans passes
    have hthere := ThingRules.isSome_get?_of_tag asked htag
    cases hcontent : query.part.get? t with
    | some content =>
      rw [hcontent] at hthere
      obtain ⟨content', hcontent'⟩ := Option.isSome_iff_exists.mp hthere.symm
      rw [disclose_found h.active?_eq asked hcontent passes,
        disclose_found h.symm.active?_eq asked hcontent' passes', htag,
        h.filter_found_eq ready asked hcontent hcontent']
    | none =>
      rw [hcontent] at hthere
      have hcontent' : query.part.get? u = none := Option.not_isSome_iff_eq_none.mp
        (Bool.eq_false_iff.mp hthere.symm)
      rw [disclose_absent h.active?_eq asked hcontent passes,
        disclose_absent h.symm.active?_eq asked hcontent' passes',
        (query.absence_eq_iff c.entityId).mpr howner]

/-- Without conditional headers, the answers about what both things have differ in the tag at
most. -/
theorem disclose_of_found (config : ThingConfig) (h : Alike policy caller now t u)
    (ready : cache.ReadyFor policy now) (asked : c.request = .retrieve query)
    (hmatch : c.headers.ifMatch = none) (hnone : c.headers.ifNoneMatch = none)
    (hthere : (query.part.get? t).isSome = true) (hthere' : (query.part.get? u).isSome = true) :
    ∃ response : Response,
      disclose cache c policy caller now ((thingRules config).execute now (some t) c) =
        .query (response.withTag (ThingRules.tag c.request t)) ∧
      disclose cache c policy caller now ((thingRules config).execute now (some u) c) =
        .query (response.withTag (ThingRules.tag c.request u)) := by
  obtain ⟨content, hcontent⟩ := Option.isSome_iff_exists.mp hthere
  obtain ⟨content', hcontent'⟩ := Option.isSome_iff_exists.mp hthere'
  refine ⟨(filter cache c (ThingRules.found c content) policy caller now).1, ?_, ?_⟩
  · exact disclose_found h.active?_eq asked hcontent
      (CommandRules.checkHeaders_of_unconditional _ _ hmatch hnone)
  · rw [h.filter_found_eq ready asked hcontent hcontent']
    exact disclose_found h.symm.active?_eq asked hcontent'
      (CommandRules.checkHeaders_of_unconditional _ _ hmatch hnone)

/-- Without conditional headers, the answers agree exactly if the tags do or neither thing has what
is asked for, and the feature it belongs to is in both things or in neither. -/
theorem disclose_eq_iff (h : Alike policy caller now t u) (ready : cache.ReadyFor policy now)
    (asked : c.request = .retrieve query) (hmatch : c.headers.ifMatch = none)
    (hnone : c.headers.ifNoneMatch = none) :
    disclose cache c policy caller now ((thingRules config).execute now (some t) c) =
        disclose cache c policy caller now ((thingRules config).execute now (some u) c) ↔
      query.SameOwner t u ∧
        (ThingRules.tag c.request t = ThingRules.tag c.request u ∨
          query.part.get? t = none ∧ query.part.get? u = none) := by
  have passes := fun x : Thing =>
    CommandRules.checkHeaders_of_unconditional (thingRules config) (some x) hmatch hnone
  constructor
  · intro heq
    -- A part that is there in one thing only is answered in one and missed in the other.
    cases hcontent : query.part.get? t with
    | some content =>
      cases hcontent' : query.part.get? u with
      | some content' =>
        obtain ⟨response, hanswer, hanswer'⟩ := disclose_of_found config h ready asked hmatch hnone
          (Option.isSome_of_eq_some hcontent) (Option.isSome_of_eq_some hcontent')
        rw [hanswer, hanswer'] at heq
        refine ⟨fun id howner => ?_, .inl ?_⟩
        · rw [ThingPart.isSome_owner_of_get? hcontent howner,
            ThingPart.isSome_owner_of_get? hcontent' howner]
        · injection heq with hresponses
          exact congrArg (fun r : Response => r.headers.etag) hresponses
      | none =>
        rw [disclose_found h.active?_eq asked hcontent (passes t),
          disclose_absent h.symm.active?_eq asked hcontent' (passes u)] at heq
        cases heq
    | none =>
      cases hcontent' : query.part.get? u with
      | some content' =>
        rw [disclose_absent h.active?_eq asked hcontent (passes t),
          disclose_found h.symm.active?_eq asked hcontent' (passes u)] at heq
        cases heq
      | none =>
        rw [disclose_absent h.active?_eq asked hcontent (passes t),
          disclose_absent h.symm.active?_eq asked hcontent' (passes u)] at heq
        injection heq with hfailures
        exact ⟨(query.absence_eq_iff c.entityId).mp hfailures, .inr ⟨rfl, rfl⟩⟩
  · rintro ⟨howner, htag | ⟨habsent, habsent'⟩⟩
    · exact h.disclose_eq_of_tag ready asked htag howner
    · rw [disclose_absent h.active?_eq asked habsent (passes t),
        disclose_absent h.symm.active?_eq asked habsent' (passes u),
        (query.absence_eq_iff c.entityId).mpr howner]

end Alike

/-- If a caller may read the same leaves of two things, it is given the same answers about the whole
of them, and about a part that has the same tag in both. Without conditional headers the answers
about a part differ exactly if it is there in one of them at least and the tags differ, or if just
one of them has the feature that the part belongs to. Where both have the part, nothing but the tag
differs. -/
theorem hidden_fields_decide_tags_only (config : ThingConfig)
    (alike : Alike policy caller now t u) (ready : cache.ReadyFor policy now)
    (asked : c.request = .retrieve query) :
    let answer := fun x : Thing =>
      disclose cache c policy caller now ((thingRules config).execute now (some x) c)
    let tag := ThingRules.tag c.request
    (query = .whole → answer t = answer u) ∧
      (tag t = tag u → query.SameOwner t u → answer t = answer u) ∧
      (c.headers.ifMatch = none → c.headers.ifNoneMatch = none →
        (answer t = answer u ↔
          query.SameOwner t u ∧
            (tag t = tag u ∨ query.part.get? t = none ∧ query.part.get? u = none)) ∧
        ((query.part.get? t).isSome = true → (query.part.get? u).isSome = true →
          ∃ response : Response, answer t = .query (response.withTag (tag t)) ∧
            answer u = .query (response.withTag (tag u)))) := by
  refine ⟨?_, alike.disclose_eq_of_tag ready asked, fun hmatch hnone =>
    ⟨alike.disclose_eq_iff ready asked hmatch hnone,
      alike.disclose_of_found config ready asked hmatch hnone⟩⟩
  -- The whole is tagged by the revision, and it belongs to no feature.
  rintro rfl
  refine alike.disclose_eq_of_tag ready asked ?_ nofun
  rw [asked]
  exact congrArg (fun r => some (EntityTag.ofRevision r)) alike.revision

/-! ## Inspecting a machine -/

/-- A pointer from the attributes to the location of a machine. -/
def location : Pointer := .ofSegments ["location"]

/-- A policy by which the technician may read the location of a machine, and nothing else. -/
def machinePolicy : Policy :=
  (Policy.new ⟨"org.example:machine", by decide⟩).setEntry
    { label := ⟨"technician", by decide⟩
      body := ⟨Dict.empty.insert ⟨"nginx:technician", by decide⟩ ⟨"generated", none⟩,
        Dict.empty.insert (ThingPart.attributeAt location).resourceKey ⟨.read, .empty⟩⟩ }

/-- The caller whom the policy names. -/
def technician : Caller := .single ⟨"nginx:technician", by decide⟩

/-- A machine with the given attributes. -/
def machine (attributes : Option JsonObject) : Thing :=
  { id := ⟨"org.example:machine", by decide⟩
    policyId := some machinePolicy.id
    attributes }

/-- A question about the machine. -/
def inspect (query : ThingQuery) : ThingCommand := ⟨(machine none).id, .empty, .retrieve query⟩

/-- What the technician is answered. -/
def inspected (query : ThingQuery) (t : Thing) : Outcome .thing ThingChange :=
  disclose (.new .standard) (inspect query) machinePolicy technician ⟨0⟩
    ((thingRules .standard).execute ⟨0⟩ (some t) (inspect query))

/-- The document of a machine is tidy if its attributes are in order and none is an object. -/
theorem tidy_machine {attributes : Option JsonObject}
    (sorted : ∀ members ∈ attributes, Assoc.Sorted members)
    (flat : ∀ members ∈ attributes, ∀ member ∈ members, member.2.members? = none) :
    (machine attributes).toJson.Tidy := by
  refine (Thing.tidy_toJson_iff _).mpr ⟨fun members hmembers => ?_, nofun⟩
  exact Json.tidy_object (sorted members hmembers) fun name value hmem =>
    Json.tidy_of_noObject (flat members hmembers (name, value) hmem)

/-- Machines of which the technician sees the same are alike to the technician. -/
theorem alike_machines {attributes attributes' : Option JsonObject}
    (tidy : (machine attributes).toJson.Tidy) (tidy' : (machine attributes').toJson.Tidy)
    (seen : (machine attributes).toJson.visible?
        ((Enforcer.asOf machinePolicy ⟨0⟩).allows "thing" technician .read) .root =
      (machine attributes').toJson.visible?
        ((Enforcer.asOf machinePolicy ⟨0⟩).allows "thing" technician .read) .root) :
    Alike machinePolicy technician ⟨0⟩ (machine attributes) (machine attributes') :=
  ⟨rfl, rfl, rfl, tidy, tidy', (Thing.sameReadable_iff tidy tidy').mpr seen⟩

/-- The technician who asks where the machine is does not learn its serial number. -/
theorem hidden_fields_decide_tags_only_machine :
    let first := machine (some [("location", .string "hall"), ("serial", .string "X-1")])
    let second := machine (some [("location", .string "hall"), ("serial", .string "X-2")])
    Alike machinePolicy technician ⟨0⟩ first second ∧
      (authorize (.new .standard) (inspect (.attributeAt location)) (some machinePolicy) technician
        ⟨0⟩).1 = .ok () ∧
      inspected (.attributeAt location) first = inspected (.attributeAt location) second := by
  intro first second
  have tidy : first.toJson.Tidy := tidy_machine (by unfold Assoc.Sorted; decide) (by decide)
  have tidy' : second.toJson.Tidy := tidy_machine (by unfold Assoc.Sorted; decide) (by decide)
  have alike : Alike machinePolicy technician ⟨0⟩ first second := alike_machines tidy tidy' rfl
  refine ⟨alike, rfl, ?_⟩
  obtain ⟨-, hanswers, -⟩ := hidden_fields_decide_tags_only .standard alike
    (EnforcerCache.readyFor_new .standard machinePolicy ⟨0⟩)
    (c := inspect (.attributeAt location)) rfl
  exact hanswers rfl nofun

/-- The technician who asks for the attributes may see none of these, and is told whether there are
any. -/
theorem hidden_attributes_are_noticed :
    let marked := machine (some [("serial", .string "X-1")])
    let plain := machine none
    marked.id = plain.id ∧ Alike machinePolicy technician ⟨0⟩ marked plain ∧
      (authorize (.new .standard) (inspect .attributes) (some machinePolicy) technician ⟨0⟩).1 =
        .ok () ∧
      inspected .attributes marked =
        .query { entityId := plain.id.text
                 type := "things.responses:retrieveAttributes"
                 status := .ok
                 entity := none
                 headers := { etag := some (.ofContent (.object [("serial", .string "X-1")])) } } ∧
      inspected .attributes plain = .failed (.attributesNotAccessible plain.id.text) := by
  intro marked plain
  have tidy : marked.toJson.Tidy := tidy_machine (by unfold Assoc.Sorted; decide) (by decide)
  have tidy' : plain.toJson.Tidy := tidy_machine nofun nofun
  have alike : Alike machinePolicy technician ⟨0⟩ marked plain := alike_machines tidy tidy' rfl
  exact ⟨rfl, alike, rfl, rfl, rfl⟩

end ThingGuard

end GuardedThings
