import GuardedThings.Proofs.Access.CacheHistory

/-!
# Transparent caches

Whoever asks a cache for the enforcer of a policy gets what would have been built
on the spot, and nothing for a deleted policy, as long as policies with the same
id and revision are the same and time never runs backwards.

If time does run backwards, an enforcer may be served that was built for a later
time, so it may lack members that still count. But it never has one that is
expired: an enforcer is stale as soon as one of its members is
(`Enforcer.isStale_asOf_iff`), and stale enforcers are not served
(`getOrBuild_of_history`). `getOrBuild_transparent` says both.
-/

set_option autoImplicit false

namespace GuardedThings

/-! ## Members -/

namespace Policy

/-- Some entry of the policy names the subject under the id. -/
def HasMember (p : Policy) (id : SubjectId) (subject : Subject) : Prop :=
  ∃ label body, p.entries.get? label = some body ∧ body.subjects.get? id = some subject

/-- The members left are those that are not expired. -/
theorem hasMember_removeExpired_iff {p : Policy} {now : Timestamp} {id : SubjectId}
    {subject : Subject} :
    (p.removeExpired now).HasMember id subject ↔
      p.HasMember id subject ∧ subject.isExpired now = false := by
  have hkept : ∀ subjects : Subjects, (subjects.withoutExpired now).get? id = some subject ↔
      subjects.get? id = some subject ∧ subject.isExpired now = false := by
    intro subjects
    unfold Subjects.withoutExpired
    rw [Dict.get?_filter, Option.filter_eq_some_iff, Bool.not_eq_true']
  unfold HasMember removeExpired
  simp only [Dict.get?_mapValues, Option.map_eq_some_iff]
  constructor
  · rintro ⟨label, _, ⟨body, hbody, rfl⟩, hsubject⟩
    obtain ⟨hsubject, hcounts⟩ := (hkept _).mp hsubject
    exact ⟨⟨label, body, hbody, hsubject⟩, hcounts⟩
  · rintro ⟨⟨label, body, hbody, hsubject⟩, hcounts⟩
    exact ⟨label, _, ⟨body, hbody, rfl⟩, (hkept _).mpr ⟨hsubject, hcounts⟩⟩

end Policy

namespace Enforcer

/-- The expiries that are watched are those of members that count. -/
theorem hasMember_of_mem_expiries {counts : Subject → Bool} {policy : Policy} {t : Timestamp}
    (h : t ∈ expiries counts policy) :
    ∃ id subject, policy.HasMember id subject ∧ subject.expiry = some t := by
  unfold expiries at h
  obtain ⟨body, hvalue, h⟩ := List.mem_flatMap.mp h
  obtain ⟨subject, hcounted, hexpiry⟩ := List.mem_filterMap.mp h
  obtain ⟨⟨label, _⟩, hentry, heq⟩ := List.mem_map.mp hvalue
  cases heq
  obtain ⟨⟨id, _⟩, hnamed, heq⟩ := List.mem_map.mp (List.mem_filter.mp hcounted).1
  cases heq
  exact ⟨id, _, ⟨label, _, (Dict.mem_toList_iff _ _ _).mp hentry,
    (Dict.mem_toList_iff _ _ _).mp hnamed⟩, hexpiry⟩

/-- An enforcer is stale exactly if one of its members is expired. -/
theorem isStale_asOf_iff {policy : Policy} {t now : Timestamp} :
    (asOf policy t).isStale now = true ↔
      ∃ id subject, (policy.removeExpired t).HasMember id subject ∧
        subject.isExpired now = true := by
  unfold asOf ofPolicy
  rw [isStale_build_iff]
  constructor
  · rintro ⟨expiry, hwatched, hreached⟩
    obtain ⟨id, subject, hmember, hexpiry⟩ := hasMember_of_mem_expiries hwatched
    refine ⟨id, subject, hmember, ?_⟩
    unfold Subject.isExpired
    rw [hexpiry]
    exact hreached
  · rintro ⟨id, subject, ⟨label, body, hbody, hsubject⟩, hexpired⟩
    unfold Subject.isExpired at hexpired
    split at hexpired
    · cases hexpired
    · rename_i expiry hexpiry
      exact ⟨expiry, mem_expiries _ hbody hsubject rfl hexpiry, hexpired⟩

/-- An enforcer that was just built is not stale. -/
theorem isStale_asOf_self (policy : Policy) (now : Timestamp) :
    (asOf policy now).isStale now = false := by
  rw [Bool.eq_false_iff]
  intro hstale
  obtain ⟨id, subject, hmember, hexpired⟩ := isStale_asOf_iff.mp hstale
  obtain ⟨-, hcounts⟩ := Policy.hasMember_removeExpired_iff.mp hmember
  rw [hcounts] at hexpired
  cases hexpired

end Enforcer

/-! ## Answers -/

namespace EnforcerCache

/-- Only for a deleted policy there is no answer. -/
theorem getOrBuild_eq_none_iff (c : EnforcerCache) (policy : Policy) (now : Timestamp) :
    (c.getOrBuild policy now).1 = none ↔ policy.isDeleted = true := by
  unfold getOrBuild
  split
  · rename_i hdeleted
    exact ⟨fun _ => hdeleted, fun _ => rfl⟩
  · rename_i hlive
    constructor
    · intro hnone
      split at hnone
      · cases hnone
      · cases hnone
    · intro hdeleted
      exact absurd hdeleted hlive

/-- Whatever the clock did, an answer was built at some lookup from a policy of the same id and
revision, and it is not stale. -/
theorem getOrBuild_of_history {config : CacheConfig} {uses : List CacheUse} {policy : Policy}
    {now : Timestamp} {e : Enforcer}
    (h : (((new config).after uses).getOrBuild policy now).1 = some e) :
    ∃ built t, (built, t) ∈ CacheUse.lookups uses ++ [(policy, now)] ∧ built.id = policy.id ∧
      built.book.revision = policy.book.revision ∧ e = Enforcer.asOf built t ∧
      e.isStale now = false := by
  unfold getOrBuild at h
  split at h
  · cases h
  · split at h
    · rename_i served hserved
      cases h
      unfold served? at hserved
      obtain ⟨hkept, husable⟩ := Option.filter_eq_some_iff.mp hserved
      rw [Bool.and_eq_true, decide_eq_true_iff, Bool.not_eq_true'] at husable
      obtain ⟨built, t, hmem, hid, rfl⟩ := kept_of_history config uses policy.id e hkept
      exact ⟨built, t, List.mem_append_left _ hmem, hid, husable.1, rfl, husable.2⟩
    · cases h
      exact ⟨policy, now, List.mem_append_right _ List.mem_cons_self, rfl, rfl, rfl,
        Enforcer.isStale_asOf_self policy now⟩

/-- The lookups up to one that is part of a history. -/
theorem lookups_sublist (before after : List CacheUse) (policy : Policy) (now : Timestamp) :
    (CacheUse.lookups before ++ [(policy, now)]).Sublist
      (CacheUse.lookups (before ++ .lookup policy now :: after)) := by
  unfold CacheUse.lookups
  rw [List.filterMap_append]
  refine List.Sublist.append_left ?_ _
  exact List.Sublist.cons_cons _ (List.nil_sublist _)

/-- In a history in which policies stay the same as long as their revision does, a lookup has no
answer exactly if the policy was deleted. If time never runs backwards the answer is the enforcer of
the policy at the time. In any case it is the enforcer of what was left of the policy at some time,
and that has no member who is expired at the time of the lookup. -/
theorem getOrBuild_transparent (config : CacheConfig) (before after : List CacheUse)
    (policy : Policy) (now : Timestamp)
    (consistent : Consistent (CacheUse.lookups (before ++ .lookup policy now :: after))) :
    let answer := (((new config).after before).getOrBuild policy now).1
    (answer = none ↔ policy.isDeleted = true) ∧
    (Ordered (CacheUse.lookups (before ++ .lookup policy now :: after)) →
      answer = if policy.isDeleted then none else some (Enforcer.asOf policy now)) ∧
    ∀ e, answer = some e → ∃ left, e = Enforcer.ofPolicy left ∧
      (∃ t, left = policy.removeExpired t) ∧
        ∀ id subject, left.HasMember id subject → subject.isExpired now = false := by
  intro answer
  have hsublist := lookups_sublist before after policy now
  have hconsistent : Consistent (CacheUse.lookups before ++ [(policy, now)]) :=
    fun p t p' t' h h' => consistent p t p' t' (hsublist.mem h) (hsublist.mem h')
  refine ⟨getOrBuild_eq_none_iff _ policy now, fun ordered => ?_, fun e hanswer => ?_⟩
  · have hready : ((new config).after before).ReadyFor policy now :=
      ⟨config, before, rfl, hconsistent, ordered.sublist hsublist⟩
    exact hready.getOrBuild_fst
  · obtain ⟨built, t, hmem, hid, hrevision, rfl, hfresh⟩ := getOrBuild_of_history hanswer
    have hsame : built = policy := hconsistent built t policy now hmem
      (List.mem_append_right _ List.mem_cons_self) hid hrevision
    subst hsame
    refine ⟨built.removeExpired t, rfl, ⟨t, rfl⟩, fun id subject hmember => ?_⟩
    rw [Bool.eq_false_iff]
    intro hexpired
    have hstale := Enforcer.isStale_asOf_iff.mpr ⟨id, subject, hmember, hexpired⟩
    rw [hfresh] at hstale
    cases hstale

/-! ## A house with a guest -/

/-- The id of the guest. -/
def houseGuest : SubjectId := ⟨"nginx:guest", by decide⟩

/-- A policy with a permanent host and a guest who leaves at a time. -/
def guestHouse : Policy :=
  (Policy.new ⟨"org.example:house", by decide⟩).setEntry
    { label := ⟨"house", by decide⟩
      body := ⟨(Dict.empty.insert ⟨"nginx:host", by decide⟩ ⟨"generated", none⟩).insert
          houseGuest ⟨"generated", some ⟨1000⟩⟩,
        Dict.empty.insert (.thing .root) ⟨.read, .empty⟩⟩ }

/-- The guest is there; in between the house is forgotten. -/
def morning : List CacheUse :=
  [.lookup guestHouse ⟨0⟩, .invalidate guestHouse.id, .lookup guestHouse ⟨10⟩]

/-- The guest is there and then has left. -/
def departure : List CacheUse := [.lookup guestHouse ⟨10⟩, .lookup guestHouse ⟨1000⟩]

/-- Who asks for nothing but the house asks for one policy. -/
theorem consistent_guestHouse {uses : List CacheUse}
    (h : ∀ lookup ∈ CacheUse.lookups uses, lookup.1 = guestHouse) :
    Consistent (CacheUse.lookups uses) := by
  intro p t p' t' hmem hmem' _ _
  exact (h _ hmem).trans (h _ hmem').symm

/-- Just before the guest leaves, the house is still known from the morning, and what is served is
what would be built. If the clock is set back to that time after the departure, the house is known
without the guest, who would count again; nobody in it is expired. -/
theorem getOrBuild_transparent_guestHouse :
    let visits := morning ++ .lookup guestHouse ⟨999⟩ :: [.lookup guestHouse ⟨1000⟩]
    let kept := (new .standard).after morning
    let setBack := departure ++ .lookup guestHouse ⟨999⟩ :: []
    let late := (new .standard).after departure
    (Consistent (CacheUse.lookups visits) ∧ Ordered (CacheUse.lookups visits) ∧
      (kept.served? guestHouse ⟨999⟩).isSome = true ∧
      (kept.getOrBuild guestHouse ⟨999⟩).1 = some (Enforcer.asOf guestHouse ⟨999⟩)) ∧
    Consistent (CacheUse.lookups setBack) ∧ ¬Ordered (CacheUse.lookups setBack) ∧
      (Enforcer.asOf guestHouse ⟨999⟩).subjects.contains houseGuest = true ∧
      ∃ e, (late.getOrBuild guestHouse ⟨999⟩).1 = some e ∧
        e.subjects.contains houseGuest = false ∧ ∃ left, e = Enforcer.ofPolicy left ∧
          ∀ id subject, left.HasMember id subject → subject.isExpired ⟨999⟩ = false := by
  intro visits kept setBack late
  have consistent : Consistent (CacheUse.lookups visits) :=
    consistent_guestHouse (by simp [visits, morning, CacheUse.lookups])
  have ordered : Ordered (CacheUse.lookups visits) := by
    simp [Ordered, visits, morning, CacheUse.lookups, Timestamp.reached]
  have htransparent := getOrBuild_transparent .standard morning [.lookup guestHouse ⟨1000⟩]
    guestHouse ⟨999⟩ consistent
  have consistent' : Consistent (CacheUse.lookups setBack) :=
    consistent_guestHouse (by simp [setBack, departure, CacheUse.lookups])
  have unordered : ¬Ordered (CacheUse.lookups setBack) := by
    simp [Ordered, setBack, departure, CacheUse.lookups, Timestamp.reached]
  obtain ⟨-, -, hunexpired⟩ :=
    getOrBuild_transparent .standard departure [] guestHouse ⟨999⟩ consistent'
  have hlate : (late.getOrBuild guestHouse ⟨999⟩).1 = some (Enforcer.asOf guestHouse ⟨1000⟩) :=
    rfl
  obtain ⟨left, hleft, -, hcounts⟩ := hunexpired _ hlate
  exact ⟨⟨consistent, ordered, by decide, htransparent.2.1 ordered⟩, consistent', unordered,
    by decide, _, hlate, by decide, left, hleft, hcounts⟩

end EnforcerCache

end GuardedThings
