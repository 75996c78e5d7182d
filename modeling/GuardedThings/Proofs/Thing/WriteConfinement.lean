import GuardedThings.Proofs.Access.GuardVerdicts
import GuardedThings.Proofs.Access.Subtree
import GuardedThings.Proofs.Thing.PointerEdits

/-!
# Write confinement

What an authorized command can take away from a thing. A value that is no
object is lost if it was in the document and is missing or different after the
event. Every accepted change edits the document at the place of the part that
the command addresses, so what is lost lies there or below
(`ThingRules.lost_at_or_below`). On that part the caller holds write access
without restriction, and so it does on everything lost (`lost_values_writable`).

There is one exception. A write below a value that is no object puts an object
in its place (`Displaces`). That value stands above the addressed part, and
nobody has asked whether the caller may write there
(`write_below_value_displaces_it`).
-/

set_option autoImplicit false

namespace GuardedThings

/-- A value that is no object was at the path, and is missing there or different afterwards. -/
structure Json.Loses (before after : Json) (path : List String) (w : Json) : Prop where
  was : before.getPath? path = some w
  noObject : w.members? = none
  changed : after.getPath? path ≠ some w

/-- A write whose path goes on below the given one, where an object stands afterwards. -/
def ThingRequest.Displaces (r : ThingRequest) (after : Json) (path : List String) : Prop :=
  ∃ piece, r = .write piece ∧ path <+: piece.part.place.segments ∧
    path ≠ piece.part.place.segments ∧ ∃ members, after.getPath? path = some (.object members)

/-- Dropping empty names does not cut off a pointer that the names begin with. -/
theorem Pointer.prefix_ofSegments {p : Pointer} {path : List String} (h : p.segments <+: path) :
    p.segments <+: (ofSegments path).segments := by
  obtain ⟨rest, rfl⟩ := h
  have hkept : p.segments.filter (· ≠ "") = p.segments := by
    refine List.filter_eq_self.mpr fun segment hmem => ?_
    rw [decide_eq_true_iff]
    rintro rfl
    exact p.noEmpty hmem
  show p.segments <+: (p.segments ++ rest).filter (· ≠ "")
  rw [List.filter_append, hkept]
  exact List.prefix_append _ _

namespace Thing

/-- The document of a thing, being an object, is not among the values that are lost. -/
theorem ne_nil_of_loses {t : Thing} {after w : Json} {path : List String}
    (h : t.toJson.Loses after path w) : path ≠ [] := by
  rintro rfl
  have hw := h.was
  cases hw
  cases h.noObject

end Thing

/-- What a requested edit takes from a document lies at or below the addressed place, unless it was
displaced from above it. -/
theorem ThingRequest.lost_of_edit {r : ThingRequest} {before after w : Json} {path : List String}
    (hedit : r.edit? before = some after) (hne : path ≠ []) (hlost : before.Loses after path w) :
    r.part.place.segments <+: path ∨ r.Displaces after path := by
  unfold edit? at hedit
  cases hvalue : r.value? with
  | none =>
    rw [hvalue] at hedit
    obtain ⟨⟨removed, rest⟩, hremoved, heq⟩ := Option.map_eq_some_iff.mp hedit
    cases heq
    exact .inl
      (Json.prefix_of_removePath?_changes hremoved hlost.was hlost.noObject hlost.changed)
  | some value =>
    rw [hvalue] at hedit
    cases hedit
    rcases Json.prefix_of_setPath_changes hlost.was hlost.changed with
      hbelow | ⟨habove, hapart, hobject⟩
    · exact .inl hbelow
    · cases r with
      | write piece => exact .inr ⟨piece, rfl, habove, hapart, hobject⟩
      | assignPolicy id =>
        -- Above the policy id there is only the whole document, and that is an object.
        rcases List.prefix_cons_iff.mp habove with hnil | ⟨rest, rfl, hrest⟩
        · exact absurd hnil hne
        · rw [List.prefix_nil.mp hrest] at hapart
          exact absurd rfl hapart
      | create _ | replace _ | remove _ | retrieve _ => cases hvalue

namespace ThingRules.Setting

variable {s : Setting} {t modified : Thing} {change : ThingChange}
  {event : Event .thing ThingChange} {path : List String} {w : Json}

/-- What an accepted change takes from the thing lies at or below the addressed part, unless it was
displaced from above it. -/
theorem Accepts.lost_at_or_below (haccepts : s.Accepts (some t) change)
    (hevent : event.change = change) (hmodified : Thing.after event t = .ok modified)
    (hlost : t.toJson.Loses modified.toJson path w) :
    s.command.request.part.place.segments <+: path ∨
      s.command.request.Displaces modified.toJson path := by
  by_cases hpart : s.command.request.part = .whole
  · rw [hpart]
    exact .inl List.nil_prefix
  · have hedit := haccepts.toJson_after hpart hevent hmodified
    exact ThingRequest.lost_of_edit hedit (Thing.ne_nil_of_loses hlost) hlost

/-- No accepted request is a query. -/
theorem Accepts.isQuery_eq_false {current : Option Thing} (haccepts : s.Accepts current change) :
    s.command.request.isQuery = false := by
  cases haccepts with
  | created _ _ asked _ =>
    rcases asked with hasked | hasked
    · rw [hasked]
      rfl
    · rw [hasked]
      rfl
  | replaced _ _ _ asked _ => rw [asked]; rfl
  | policyAssigned _ _ asked _ => rw [asked]; rfl
  | written _ _ asked _ _ _ => rw [asked]; rfl
  | deleted _ asked => rw [asked]; rfl
  | removed _ _ _ asked _ _ _ => rw [asked]; rfl

end ThingRules.Setting

/-- What a mutation takes from a thing lies at or below the part that its command addresses, unless
it was displaced from above it. -/
theorem ThingRules.lost_at_or_below {config : ThingConfig} {now : Timestamp} {t next : Thing}
    {revision : Revision} {c : ThingCommand} {event : Event .thing ThingChange}
    {response : Response} {created deleted : Bool} {path : List String} {w : Json}
    (hdecided : decide config now (some t) revision c = .mutation event response created deleted)
    (happlied : Aggregate.apply event (some t) = .ok next) (hcontent : Thing.IsContent path)
    (hlost : t.toJson.Loses next.toJson path w) :
    c.request.part.place.segments <+: path ∨ c.request.Displaces next.toJson path := by
  obtain ⟨change, hevent, haccepts⟩ := decide_mutation hdecided
  cases hactive : Aggregate.active? (some t) with
  | none =>
    rw [hactive] at haccepts
    have hwhole : c.request.part = .whole := haccepts.part_of_none
    rw [hwhole]
    exact .inl List.nil_prefix
  | some current =>
    rw [hactive] at haccepts
    obtain ⟨hsome, -⟩ := Option.filter_eq_some_iff.mp hactive
    cases hsome
    obtain ⟨modified, hmodified, rfl⟩ := Aggregate.modified_of_apply hactive happlied
    -- Only the bookkeeping tells the stamped thing from the modified one.
    have hstamped : (Aggregate.stamp event modified).toJson.getPath? path =
        modified.toJson.getPath? path :=
      modified.getPath?_toJson_withBook _ (Thing.ne_nil_of_loses hlost) hcontent
    have hlost' : t.toJson.Loses modified.toJson path w := by
      refine ⟨hlost.was, hlost.noObject, ?_⟩
      rw [← hstamped]
      exact hlost.changed
    rcases haccepts.lost_at_or_below (congrArg Event.change hevent) hmodified hlost' with
      hbelow | ⟨piece, asked, habove, hne, members, hobject⟩
    · exact .inl hbelow
    · exact .inr ⟨piece, asked, habove, hne, members, hstamped.trans hobject⟩

namespace ThingGuard

/-- An authorized command is let through by the enforcer of the policy at the time. -/
theorem permits_of_authorize {cache : EnforcerCache} {c : ThingCommand} {policy : Policy}
    {caller : Caller} {now : Timestamp} (hready : cache.ReadyFor policy now)
    (h : (authorize cache c (some policy) caller now).1 = .ok ()) :
    (Enforcer.asOf policy now).permits c.request.isQuery caller c.request.part.resourceKey =
      true := by
  obtain ⟨e, hanswer, hpermits⟩ := authorize_eq_ok_iff.mp h
  rw [hready.getOrBuild_fst] at hanswer
  split at hanswer
  · cases hanswer
  · cases hanswer
    exact hpermits

/-- Whatever value an authorized command takes from a thing, the caller may write there, unless the
command is a write below the value. -/
theorem lost_values_writable {cache : EnforcerCache} {c : ThingCommand} {policy : Policy}
    {caller : Caller} {now : Timestamp} {config : ThingConfig} {t : Thing}
    {event : Event .thing ThingChange} {response : Response} {created deleted : Bool}
    (ready : cache.ReadyFor policy now)
    (authorized : (authorize cache c (some policy) caller now).1 = .ok ())
    (executed : (thingRules config).execute now (some t) c =
      .mutation event response created deleted) :
    ∃ next, Aggregate.apply event (some t) = .ok next ∧
      ∀ path w, Thing.IsContent path → t.toJson.Loses next.toJson path w →
        (Enforcer.asOf policy now).hasPermission caller (.thing (.ofSegments path)) .write = true ∨
          c.request.Displaces next.toJson path := by
  obtain ⟨-, decided, next, hdecided, happlied, -⟩ := CommandRules.execute_mutation executed
  refine ⟨next, happlied, fun path w hcontent hlost => ?_⟩
  rcases ThingRules.lost_at_or_below hdecided happlied hcontent hlost with hbelow | hdisplaced
  · left
    obtain ⟨change, -, haccepts⟩ := ThingRules.decide_mutation hdecided
    have hpermits := permits_of_authorize ready authorized
    unfold Enforcer.permits at hpermits
    rw [haccepts.isQuery_eq_false] at hpermits
    have hcovers : c.request.part.resourceKey.covers (.thing (.ofSegments path)) = true :=
      (ResourceKey.covers_iff _ _).mpr ⟨rfl, Pointer.prefix_ofSegments hbelow⟩
    exact Enforcer.hasPermission_of_hasUnrestrictedPermission hpermits hcovers
  · exact .inr hdisplaced

/-! ## Tending a garden -/

/-- A pointer from the attributes to the north bed. -/
def northBed : Pointer := .ofSegments ["beds", "north"]

/-- A policy by which the gardener may write the north bed, and nothing else. -/
def gardenPolicy : Policy :=
  (Policy.new ⟨"org.example:garden", by decide⟩).setEntry
    { label := ⟨"gardener", by decide⟩
      body := ⟨Dict.empty.insert ⟨"nginx:gardener", by decide⟩ ⟨"generated", none⟩,
        Dict.empty.insert (ThingPart.attributeAt northBed).resourceKey ⟨.write, .empty⟩⟩ }

/-- The caller whom the policy names. -/
def gardener : Caller := .single ⟨"nginx:gardener", by decide⟩

/-- A garden with the given beds. -/
def garden (beds : Json) : Thing :=
  { id := ⟨"org.example:garden", by decide⟩
    policyId := some gardenPolicy.id
    attributes := some [("beds", beds)] }

/-- A command to the garden. -/
def tend (request : ThingRequest) : ThingCommand := ⟨(garden .null).id, .empty, request⟩

/-- The answer to a command to the garden. -/
def tended (request : ThingRequest) (status : Status) (entity : Option Json)
    (etag : Option EntityTag) : Response :=
  { entityId := (garden .null).id.text
    type := request.responseType
    status
    entity
    headers := { etag } }

/-- The gardener may clear the north bed: what grew there is lost, and the gardener may write it. -/
theorem lost_values_writable_cleared :
    let before := garden (.object [("north", .integer 1)])
    let after : Thing := { garden (.object []) with book := ⟨.active, ⟨1⟩, none, some ⟨0⟩⟩ }
    let request : ThingRequest := .remove (.attributeAt northBed)
    let event := (tend request).event ⟨1⟩ ⟨0⟩ (.removed (.attributeAt northBed))
    (authorize (.new .standard) (tend request) (some gardenPolicy) gardener ⟨0⟩).1 = .ok () ∧
      (thingRules .standard).execute ⟨0⟩ (some before) (tend request) =
        .mutation event (tended request .noContent none none) false false ∧
      before.toJson.Loses after.toJson ["attributes", "beds", "north"] (.integer 1) ∧
      (Enforcer.asOf gardenPolicy ⟨0⟩).hasPermission gardener
        (.thing (.ofSegments ["attributes", "beds", "north"])) .write = true := by
  intro before after request event
  have authorized :
      (authorize (.new .standard) (tend request) (some gardenPolicy) gardener ⟨0⟩).1 = .ok () := rfl
  have executed : (thingRules .standard).execute ⟨0⟩ (some before) (tend request) =
      .mutation event (tended request .noContent none none) false false := by
    decide +kernel
  have lost : before.toJson.Loses after.toJson ["attributes", "beds", "north"] (.integer 1) :=
    ⟨rfl, rfl, nofun⟩
  have content : Thing.IsContent ["attributes", "beds", "north"] := by
    intro name h
    cases h
    decide
  obtain ⟨next, happlied, hwritable⟩ := lost_values_writable
    (EnforcerCache.readyFor_new .standard gardenPolicy ⟨0⟩) authorized executed
  have hnext : Aggregate.apply event (some before) = .ok after := rfl
  rw [hnext] at happlied
  cases happlied
  have hremoves : ¬ request.Displaces after.toJson ["attributes", "beds", "north"] := by
    rintro ⟨piece, hwrites, -⟩
    have hnever : ThingRequest.remove (.attributeAt northBed) ≠ .write piece := nofun
    exact hnever hwrites
  exact ⟨authorized, executed, lost, (hwritable _ _ content lost).resolve_right hremoves⟩

/-- The gardener may plant the north bed, and a garden that just counted its beds loses the count,
which the gardener may not write. -/
theorem write_below_value_displaces_it :
    let before := garden (.integer 4)
    let request : ThingRequest := .write (.attributeAt northBed (.integer 2))
    let event :=
      (tend request).event ⟨1⟩ ⟨0⟩ (.written .created (.attributeAt northBed (.integer 2)))
    (authorize (.new .standard) (tend request) (some gardenPolicy) gardener ⟨0⟩).1 = .ok () ∧
      (thingRules .standard).execute ⟨0⟩ (some before) (tend request) =
        .mutation event (tended request .created (some (.integer 2))
          (some (.ofContent (.integer 2)))) false false ∧
      (∃ after, Aggregate.apply event (some before) = .ok after ∧
        before.toJson.Loses after.toJson ["attributes", "beds"] (.integer 4)) ∧
      (Enforcer.asOf gardenPolicy ⟨0⟩).hasPermission gardener
        (.thing (.ofSegments ["attributes", "beds"])) .write = false := by
  exact ⟨rfl, by decide +kernel, ⟨_, rfl, rfl, rfl, nofun⟩, by decide⟩

end ThingGuard

end GuardedThings
