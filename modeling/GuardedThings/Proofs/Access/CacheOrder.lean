import GuardedThings.Proofs.Access.CacheRevisions
import GuardedThings.Proofs.Access.RepeatedLookups
import GuardedThings.Proofs.Dictionaries
import Mathlib.Data.List.Induction

/-!
# Which enforcer a cache gives up

A cache keeps its enforcers twice: in a dictionary, to find them, and as a queue of
their ids, to know which one to give up. The two name the same ids, each once
(`EnforcerCache.Balanced`), because every use of a cache does one of three things
(`CacheUse.apply_cases`): it changes nothing, it forgets one id in both, or it puts
one id at the end of the queue, whether the id was kept before or not. So at most
one enforcer is ever too many, and the front of the queue is given up for it
(`EnforcerCache.Balanced.insert_cases`).

When an id was put at the end of the queue for the last time can be told from the
history (`EnforcerCache.lastInsertion?`). The ids stand in the queue in this order
(`EnforcerCache.InStep`), so the one given up is the one whose last insertion is the
oldest: rebuilding an enforcer counts as an insertion and serving it does not.
-/

set_option autoImplicit false

namespace GuardedThings

/-- The use asks for an id to be forgotten, or shows that its policy was deleted. -/
def CacheUse.Forgets (use : CacheUse) (id : PolicyId) : Prop :=
  use = .invalidate id ∨ ∃ policy now, use = .lookup policy now ∧ policy.isDeleted = true ∧
    policy.id = id

/-! ## The queue and the dictionary -/

namespace EnforcerCache

/-- The queue has the ids of the kept enforcers, each once, and there are not too many. -/
structure Balanced (c : EnforcerCache) : Prop where
  nodup : c.queue.Nodup
  mem_queue_iff : ∀ id, id ∈ c.queue ↔ c.enforcers.contains id = true
  size_le : c.size ≤ c.capacity

/-- A new cache keeps nothing and queues nothing. -/
theorem balanced_new (config : CacheConfig) : (new config).Balanced where
  nodup := List.nodup_nil
  mem_queue_iff id := by
    show id ∈ [] ↔ false = true
    simp
  size_le := Nat.zero_le _

/-- Nothing is given up as long as there are not too many. -/
theorem evict_of_size_le {capacity : Nat} {enforcers : Dict PolicyId Enforcer}
    (h : enforcers.size ≤ capacity) (queue : List PolicyId) :
    evict capacity enforcers queue = (enforcers, queue) := by
  cases queue with
  | nil => rfl
  | cons id rest => rw [evict, if_neg (by omega)]

/-- If there is one too many, the first one is given up. -/
theorem evict_of_size_eq {capacity : Nat} {enforcers : Dict PolicyId Enforcer} {first : PolicyId}
    (h : enforcers.size = capacity + 1) (hfirst : enforcers.contains first = true)
    (rest : List PolicyId) :
    evict capacity enforcers (first :: rest) = (enforcers.erase first, rest) := by
  have hsize := Dict.size_erase_of_contains hfirst
  rw [evict, if_pos (by omega), evict_of_size_le (by omega)]

namespace Balanced

variable {c : EnforcerCache}

/-- An id whose enforcer is not kept does not stand in the queue. -/
theorem queue_filter_of_not_contains (h : c.Balanced) {id : PolicyId}
    (hid : c.enforcers.contains id = false) : c.queue.filter (· ≠ id) = c.queue := by
  refine List.filter_eq_self.mpr fun other hother => decide_eq_true ?_
  rintro rfl
  have hkept := (h.mem_queue_iff other).mp hother
  rw [hid] at hkept
  exact Bool.false_ne_true hkept

/-- To forget an id is to take it out of the queue and of the dictionary. -/
theorem invalidate_eq (h : c.Balanced) (id : PolicyId) :
    (c.invalidate id).queue = c.queue.filter (· ≠ id) ∧
      ∀ other, (c.invalidate id).enforcers.get? other =
        if other = id then none else c.enforcers.get? other := by
  unfold invalidate
  cases hid : c.enforcers.contains id with
  | true =>
    rw [if_pos rfl]
    exact ⟨rfl, c.enforcers.get?_erase id⟩
  | false =>
    rw [if_neg Bool.false_ne_true]
    refine ⟨(h.queue_filter_of_not_contains hid).symm, fun other => ?_⟩
    by_cases hother : other = id
    · rw [if_pos hother, hother]
      exact Option.not_isSome_iff_eq_none.mp (Bool.eq_false_iff.mp hid)
    · rw [if_neg hother]

/-- If enforcers are kept, one of them is the first in the queue. -/
theorem exists_first (h : c.Balanced) (hsize : 0 < c.size) :
    ∃ first rest, c.queue = first :: rest ∧ c.enforcers.contains first = true := by
  have hkeys : 0 < c.enforcers.keys.length := by
    rw [← c.enforcers.size_eq_length_keys]
    exact hsize
  obtain ⟨id, hid⟩ := List.exists_mem_of_length_pos hkeys
  have hmem := (h.mem_queue_iff id).mpr ((c.enforcers.mem_keys_iff id).mp hid)
  obtain ⟨first, rest, hqueue⟩ := List.exists_cons_of_ne_nil (List.ne_nil_of_mem hmem)
  have hfirst : first ∈ c.queue := hqueue ▸ List.mem_cons_self
  exact ⟨first, rest, hqueue, (h.mem_queue_iff first).mp hfirst⟩

/-- An insertion into a cache with room for anything moves the id to the back of the queue and
evicts. -/
theorem insert_eq (h : c.Balanced) (hcapacity : 0 < c.capacity) (e : Enforcer) :
    c.insert e =
      let left := evict c.capacity (c.enforcers.insert e.policyId e)
        (c.queue.filter (· ≠ e.policyId) ++ [e.policyId])
      { c with enforcers := left.1, queue := left.2 } := by
  unfold EnforcerCache.insert
  rw [if_neg (by omega)]
  cases hid : c.enforcers.contains e.policyId with
  | true => rfl
  | false => rw [h.queue_filter_of_not_contains hid, if_neg Bool.false_ne_true]

/-- An inserted enforcer comes last in the queue. Only if its id is new and the cache is full, one
is given up for it, the first one. -/
theorem insert_cases (h : c.Balanced) (hcapacity : 0 < c.capacity) (e : Enforcer) :
    ((c.enforcers.contains e.policyId = true ∨ c.size < c.capacity) ∧
      c.insert e = { c with
        enforcers := c.enforcers.insert e.policyId e
        queue := c.queue.filter (· ≠ e.policyId) ++ [e.policyId] }) ∨
    (c.enforcers.contains e.policyId = false ∧ c.size = c.capacity ∧
      ∃ oldest rest, c.queue = oldest :: rest ∧
        c.insert e = { c with
          enforcers := (c.enforcers.insert e.policyId e).erase oldest
          queue := rest ++ [e.policyId] }) := by
  have hsize : c.enforcers.size ≤ c.capacity := h.size_le
  rw [h.insert_eq hcapacity e]
  cases hid : c.enforcers.contains e.policyId with
  | true =>
    have hinserted : (c.enforcers.insert e.policyId e).size ≤ c.capacity := by
      rw [Dict.size_insert_of_contains hid]
      exact hsize
    exact .inl ⟨.inl rfl, by rw [evict_of_size_le hinserted]⟩
  | false =>
    have hinserted := Dict.size_insert_of_not_contains hid e
    rw [h.queue_filter_of_not_contains hid]
    by_cases hroom : c.enforcers.size < c.capacity
    · exact .inl ⟨.inr hroom, by rw [evict_of_size_le (by omega)]⟩
    · have hfull : c.enforcers.size = c.capacity := by omega
      obtain ⟨oldest, rest, hqueue, holdest⟩ := h.exists_first (by unfold size; omega)
      have hkept := (Dict.contains_insert _ e.policyId oldest e).mpr (.inr holdest)
      refine .inr ⟨rfl, hfull, oldest, rest, hqueue, ?_⟩
      rw [hqueue, List.cons_append, evict_of_size_eq (hinserted.trans (by omega)) hkept]

/-- What is left of the queue in front of an inserted enforcer is what is still kept. -/
theorem exists_front (h : c.Balanced) (hcapacity : 0 < c.capacity) (e : Enforcer) :
    ∃ front, front.Sublist c.queue ∧ e.policyId ∉ front ∧
      (c.insert e).queue = front ++ [e.policyId] ∧
        ∀ id, (c.insert e).enforcers.get? id =
          if id = e.policyId then some e else if id ∈ front then c.enforcers.get? id else none := by
  have habsent : ∀ id, id ∉ c.queue → c.enforcers.get? id = none := by
    intro id hid
    rw [h.mem_queue_iff] at hid
    exact Option.not_isSome_iff_eq_none.mp hid
  rcases h.insert_cases hcapacity e with ⟨-, heq⟩ | ⟨hnew, -, oldest, rest, hqueue, heq⟩
  · refine ⟨c.queue.filter (· ≠ e.policyId), List.filter_sublist, by simp, by rw [heq], ?_⟩
    intro id
    rw [heq, Dict.get?_insert]
    by_cases hid : id = e.policyId
    · rw [if_pos hid, if_pos hid]
    · rw [if_neg hid, if_neg hid]
      by_cases hmem : id ∈ c.queue
      · rw [if_pos (List.mem_filter.mpr ⟨hmem, decide_eq_true hid⟩)]
      · rw [if_neg fun hkept => hmem (List.mem_filter.mp hkept).1, habsent id hmem]
  · have hdifferent : e.policyId ∉ oldest :: rest := by
      rw [← hqueue, h.mem_queue_iff, hnew]
      exact Bool.false_ne_true
    rw [List.mem_cons, not_or] at hdifferent
    have hnodup := h.nodup
    rw [hqueue] at hnodup habsent ⊢
    refine ⟨rest, List.sublist_cons_self _ _, hdifferent.2, by rw [heq], fun id => ?_⟩
    rw [heq, Dict.get?_erase, Dict.get?_insert]
    by_cases hid : id = e.policyId
    · rw [if_pos hid, if_pos hid, if_neg (hid ▸ hdifferent.1)]
    · rw [if_neg hid, if_neg hid]
      by_cases holdest : id = oldest
      · rw [if_pos holdest, holdest, if_neg (List.nodup_cons.mp hnodup).1]
      · rw [if_neg holdest]
        by_cases hmem : id ∈ rest
        · rw [if_pos hmem]
        · rw [if_neg hmem, habsent id (List.not_mem_cons_of_ne_of_not_mem holdest hmem)]

/-- An invalidation takes the id out of the dictionary and out of the queue alike. -/
theorem invalidate (h : c.Balanced) (id : PolicyId) : (c.invalidate id).Balanced := by
  obtain ⟨hqueue, hget⟩ := h.invalidate_eq id
  refine ⟨?_, fun other => ?_, ?_⟩
  · rw [hqueue]
    exact h.nodup.filter _
  · rw [hqueue, List.mem_filter, decide_eq_true_iff, h.mem_queue_iff, Dict.contains, Dict.contains,
      hget]
    by_cases hother : other = id
    · simp [hother]
    · simp [hother]
  · unfold EnforcerCache.invalidate size
    split
    · rename_i hkept
      have hsize : c.enforcers.size ≤ c.capacity := h.size_le
      have herased := Dict.size_erase_of_contains hkept
      show (c.enforcers.erase id).size ≤ c.capacity
      omega
    · exact h.size_le

/-- An insertion, with what it evicts, acts on the dictionary and on the queue alike. -/
theorem insert (h : c.Balanced) (e : Enforcer) : (c.insert e).Balanced := by
  have hlast : ∀ queue : List PolicyId, queue.Nodup → e.policyId ∉ queue →
      (queue ++ [e.policyId]).Nodup := by
    intro queue hqueue hnew
    refine List.nodup_append.mpr ⟨hqueue, List.pairwise_singleton _ _, ?_⟩
    intro id hid last hmem heq
    rw [← List.mem_singleton.mp hmem, ← heq] at hnew
    exact hnew hid
  by_cases hcapacity : c.capacity = 0
  · unfold EnforcerCache.insert
    rw [if_pos hcapacity]
    exact h
  · have hsize : c.enforcers.size ≤ c.capacity := h.size_le
    rcases h.insert_cases (by omega) e with ⟨hroom, heq⟩ | ⟨hnew, hfull, oldest, rest, hqueue, heq⟩
    · -- Nothing is evicted: the id moves to the back, or there was room for it.
      rw [heq]
      refine ⟨hlast _ (h.nodup.filter _) (by simp), fun id => ?_, ?_⟩
      · rw [List.mem_append, List.mem_filter, h.mem_queue_iff, Dict.contains_insert]
        by_cases hid : id = e.policyId
        · simp [hid]
        · simp [hid]
      · show (c.enforcers.insert e.policyId e).size ≤ c.capacity
        cases hid : c.enforcers.contains e.policyId with
        | true =>
          rw [Dict.size_insert_of_contains hid]
          exact hsize
        | false =>
          rw [Dict.size_insert_of_not_contains hid]
          rw [hid] at hroom
          exact hroom.resolve_left Bool.false_ne_true
    · -- The first in the queue makes room for the new one, which was not in the queue.
      have hnodup := h.nodup
      rw [hqueue, List.nodup_cons] at hnodup
      have hmem := h.mem_queue_iff
      rw [hqueue] at hmem
      have hdifferent : e.policyId ∉ oldest :: rest := by
        rw [hmem, hnew]
        exact Bool.false_ne_true
      rw [List.mem_cons, not_or] at hdifferent
      rw [heq]
      refine ⟨hlast rest hnodup.2 hdifferent.2, fun id => ?_, ?_⟩
      · rw [List.mem_append, List.mem_singleton, Dict.contains_erase, Dict.contains_insert, ← hmem,
          List.mem_cons]
        by_cases hid : id = oldest
        · subst hid
          simp [hnodup.1, Ne.symm hdifferent.1]
        · simp [hid, or_comm]
      · have hinserted := Dict.size_insert_of_not_contains hnew e
        have hkept := (Dict.contains_insert _ e.policyId oldest e).mpr
          (.inr ((hmem oldest).mp List.mem_cons_self))
        have herased := Dict.size_erase_of_contains hkept
        have hfull : c.enforcers.size = c.capacity := hfull
        show ((c.enforcers.insert e.policyId e).erase oldest).size ≤ c.capacity
        omega

end Balanced

/-! ## Insertions in a history -/

/-- The id whose enforcer is inserted by a use: that of a policy that was not deleted and for which
no kept enforcer is served, unless the cache keeps nothing at all. -/
def inserted? (c : EnforcerCache) : CacheUse → Option PolicyId
  | .lookup policy now =>
    if policy.isDeleted || (c.served? policy now).isSome || c.capacity = 0 then none
    else some policy.id
  | .invalidate _ => none

/-- What one use does: nothing, or it forgets an id, or it inserts an enforcer that was just
built. -/
theorem apply_cases (c : EnforcerCache) (use : CacheUse) :
    (use.apply c = c ∧ c.inserted? use = none) ∨
      (∃ id, use.Forgets id ∧ use.apply c = c.invalidate id ∧ c.inserted? use = none) ∨
        ∃ policy now, use = .lookup policy now ∧ 0 < c.capacity ∧
          use.apply c = c.insert (Enforcer.asOf policy now) ∧
            c.inserted? use = some policy.id := by
  cases use with
  | invalidate id => exact .inr (.inl ⟨id, .inl rfl, rfl, rfl⟩)
  | lookup policy now =>
    unfold CacheUse.apply inserted?
    cases hdeleted : policy.isDeleted with
    | true =>
      refine .inr (.inl ⟨policy.id, .inr ⟨policy, now, rfl, hdeleted, rfl⟩, ?_, by simp [hdeleted]⟩)
      unfold getOrBuild
      simp only [hdeleted, if_true]
    | false =>
      cases hserved : c.served? policy now with
      | some e =>
        simp only [getOrBuild_of_served hdeleted hserved]
        exact .inl ⟨trivial, by simp [hserved]⟩
      | none =>
        simp only [getOrBuild_of_not_served hdeleted hserved]
        by_cases hcapacity : c.capacity = 0
        · unfold insert
          simp [hcapacity]
        · refine .inr (.inr ⟨policy, now, rfl, by omega, rfl, ?_⟩)
          simp [hdeleted, hserved, hcapacity]

/-- Every use of a cache keeps its dictionary and its queue in balance. -/
theorem Balanced.apply {c : EnforcerCache} (h : c.Balanced) (use : CacheUse) :
    (use.apply c).Balanced := by
  rcases apply_cases c use with ⟨heq, -⟩ | ⟨id, -, heq, -⟩ | ⟨policy, now, -, -, heq, -⟩
  · rw [heq]
    exact h
  · rw [heq]
    exact h.invalidate id
  · rw [heq]
    exact h.insert _

/-- Dictionary and queue are in balance after every history. -/
theorem balanced_after (config : CacheConfig) (uses : List CacheUse) :
    ((new config).after uses).Balanced := by
  suffices h : ∀ c : EnforcerCache, c.Balanced → (c.after uses).Balanced from
    h _ (balanced_new config)
  induction uses with
  | nil => exact fun c h => h
  | cons use rest ih => exact fun c h => ih _ (h.apply use)

/-- No use changes the capacity of a cache. -/
theorem capacity_apply (c : EnforcerCache) (use : CacheUse) :
    (use.apply c).capacity = c.capacity := by
  have hinsert : ∀ e, (c.insert e).capacity = c.capacity := by
    intro e
    unfold insert
    split
    · rfl
    · rfl
  rcases apply_cases c use with ⟨heq, -⟩ | ⟨id, -, heq, -⟩ | ⟨policy, now, -, -, heq, -⟩
  · rw [heq]
  · rw [heq]
    unfold invalidate
    split
    · rfl
    · rfl
  · rw [heq, hinsert]

/-- The capacity of a cache is that of its settings, whatever its history. -/
theorem capacity_after (config : CacheConfig) (uses : List CacheUse) :
    ((new config).after uses).capacity = config.maxEntries.toNat := by
  suffices h : ∀ c : EnforcerCache, (c.after uses).capacity = c.capacity from h _
  induction uses with
  | nil => exact fun c => rfl
  | cons use rest ih => exact fun c => (ih _).trans (capacity_apply c use)

/-- The last use of a history acts on the cache after the uses before it. -/
theorem after_concat (config : CacheConfig) (uses : List CacheUse) (use : CacheUse) :
    (new config).after (uses ++ [use]) = use.apply ((new config).after uses) :=
  after_append (new config) uses [use]

/-- The id whose enforcer is inserted by the use at a position in a history. -/
def insertedAt? (config : CacheConfig) (uses : List CacheUse) (n : Nat) : Option PolicyId :=
  uses[n]?.bind ((new config).after (uses.take n)).inserted?

/-- The position in a history at which an enforcer of the policy was last inserted. -/
def lastInsertion? (config : CacheConfig) (uses : List CacheUse) (id : PolicyId) : Option Nat :=
  ((List.range uses.length).filter fun n => insertedAt? config uses n = some id).getLast?

/-- One more use is the last insertion of the id it inserts, and of no other. -/
theorem lastInsertion?_concat (config : CacheConfig) (uses : List CacheUse) (use : CacheUse)
    (id : PolicyId) :
    lastInsertion? config (uses ++ [use]) id =
      if ((new config).after uses).inserted? use = some id then some uses.length
      else lastInsertion? config uses id := by
  have hbefore : ∀ n ∈ List.range uses.length,
      insertedAt? config (uses ++ [use]) n = insertedAt? config uses n := by
    intro n hn
    have hlt := List.mem_range.mp hn
    unfold insertedAt?
    rw [List.getElem?_append_left hlt, List.take_append_of_le_length (by omega)]
  have hnow : insertedAt? config (uses ++ [use]) uses.length =
      ((new config).after uses).inserted? use := by
    unfold insertedAt?
    rw [List.getElem?_concat_length, List.take_left]
    rfl
  have hfilter : (List.range uses.length).filter
        (fun n => insertedAt? config (uses ++ [use]) n = some id) =
      (List.range uses.length).filter (fun n => insertedAt? config uses n = some id) :=
    List.filter_congr fun n hn => by rw [hbefore n hn]
  unfold lastInsertion?
  rw [List.length_append, List.length_singleton, List.range_succ, List.filter_append, hfilter]
  by_cases hid : ((new config).after uses).inserted? use = some id
  · simp [hnow, hid]
  · simp [hnow, hid]

/-- Every kept enforcer was built at the last insertion of its id, and the queue is in the order of
the last insertions. -/
structure InStep (config : CacheConfig) (uses : List CacheUse) (c : EnforcerCache) : Prop where
  built : ∀ id e, c.enforcers.get? id = some e → ∃ n policy now,
    lastInsertion? config uses id = some n ∧ uses[n]? = some (.lookup policy now) ∧
      policy.id = id ∧ e = Enforcer.asOf policy now
  ascending : c.queue.Pairwise fun a b => ∀ n m, lastInsertion? config uses a = some n →
    lastInsertion? config uses b = some m → n < m

/-- A cache that lost some ids, and whose history gained a use that inserted none of the ids left,
stays in step. -/
theorem InStep.of_sublist {config : CacheConfig} {uses : List CacheUse} {c c' : EnforcerCache}
    (h : InStep config uses c) (use : CacheUse) (hqueue : c'.queue.Sublist c.queue)
    (hget : ∀ id e, c'.enforcers.get? id = some e → c.enforcers.get? id = some e)
    (hothers : ∀ id, lastInsertion? config (uses ++ [use]) id = lastInsertion? config uses id) :
    InStep config (uses ++ [use]) c' where
  built id e hkept := by
    obtain ⟨n, policy, now, hlast, huse, hrest⟩ := h.built id e (hget id e hkept)
    refine ⟨n, policy, now, ?_, ?_, hrest⟩
    · rw [hothers, hlast]
    · rw [List.getElem?_append_left (List.getElem?_eq_some_iff.mp huse).1, huse]
  ascending := by
    simp only [hothers]
    exact h.ascending.sublist hqueue

/-- After every history the cache is in step with it. -/
theorem inStep_after (config : CacheConfig) (uses : List CacheUse) :
    InStep config uses ((new config).after uses) := by
  induction uses using List.reverseRecOn with
  | nil => exact ⟨nofun, List.Pairwise.nil⟩
  | append_singleton uses use ih =>
    have hbalanced := balanced_after config uses
    have hlast := lastInsertion?_concat config uses use
    rw [after_concat]
    generalize (new config).after uses = c at ih hbalanced hlast
    rcases apply_cases c use with ⟨heq, hnone⟩ | ⟨id, -, heq, hnone⟩ |
      ⟨policy, now, rfl, hcapacity, heq, hinserted⟩
    · simp only [hnone, reduceCtorEq, if_false] at hlast
      rw [heq]
      exact ih.of_sublist use (List.Sublist.refl _) (fun _ _ h => h) hlast
    · simp only [hnone, reduceCtorEq, if_false] at hlast
      rw [heq]
      refine ih.of_sublist use ?_ (fun _ _ h => get?_invalidate h) hlast
      rw [(hbalanced.invalidate_eq id).1]
      exact List.filter_sublist
    · obtain ⟨front, hfront, hnew, hqueue, hget⟩ :=
        hbalanced.exists_front hcapacity (Enforcer.asOf policy now)
      have hid : (Enforcer.asOf policy now).policyId = policy.id := rfl
      rw [hid] at hnew hqueue hget
      simp only [hinserted, Option.some.injEq] at hlast
      have hother : ∀ id ∈ front, lastInsertion? config (uses ++ [.lookup policy now]) id =
          lastInsertion? config uses id := by
        intro id hmem
        rw [hlast, if_neg]
        rintro rfl
        exact hnew hmem
      rw [heq]
      constructor
      · intro id e hkept
        rw [hget] at hkept
        by_cases hsame : id = policy.id
        · rw [if_pos hsame] at hkept
          cases hkept
          refine ⟨uses.length, policy, now, ?_, List.getElem?_concat_length, hsame.symm, rfl⟩
          rw [hlast, if_pos hsame.symm]
        · rw [if_neg hsame] at hkept
          obtain ⟨hmem, hkept⟩ := Option.ite_none_right_eq_some.mp hkept
          obtain ⟨n, policy', now', hn, huse, hrest⟩ := ih.built id e hkept
          refine ⟨n, policy', now', (hother id hmem).trans hn, ?_, hrest⟩
          rw [List.getElem?_append_left (List.getElem?_eq_some_iff.mp huse).1, huse]
      · rw [hqueue, List.pairwise_append]
        refine ⟨?_, List.pairwise_singleton _ _, ?_⟩
        · refine (ih.ascending.sublist hfront).imp_of_mem fun {a b} ha hb hlt => ?_
          rw [hother a ha, hother b hb]
          exact hlt
        · intro a ha b hb n m hn hm
          rw [List.mem_singleton.mp hb, hlast, if_pos rfl] at hm
          rw [hother a ha] at hn
          -- What was inserted before was inserted at an earlier position.
          obtain ⟨e, hkept⟩ := Option.isSome_iff_exists.mp
            ((hbalanced.mem_queue_iff a).mp (hfront.subset ha))
          obtain ⟨n', _, _, hn', huse, -⟩ := ih.built a e hkept
          have hlt := (List.getElem?_eq_some_iff.mp huse).1
          cases hm
          rw [hn] at hn'
          cases hn'
          exact hlt

/-! ## The enforcer that is given up -/

/-- The id is kept, and its last insertion came before that of every other kept id. -/
def IsOldest (config : CacheConfig) (uses : List CacheUse) (id : PolicyId) : Prop :=
  ((new config).after uses).enforcers.contains id = true ∧
    ∃ n, lastInsertion? config uses id = some n ∧
      ∀ other, ((new config).after uses).enforcers.contains other = true → other ≠ id →
        ∃ m, lastInsertion? config uses other = some m ∧ n < m

/-- The first id in the queue is the oldest one. -/
theorem isOldest_of_queue {config : CacheConfig} {uses : List CacheUse} {oldest : PolicyId}
    {rest : List PolicyId} (h : ((new config).after uses).queue = oldest :: rest) :
    IsOldest config uses oldest := by
  have hbalanced := balanced_after config uses
  have hstep := inStep_after config uses
  have hqueued := hbalanced.mem_queue_iff
  have hascending := hstep.ascending
  rw [h] at hqueued hascending
  have hinserted : ∀ id, ((new config).after uses).enforcers.contains id = true →
      ∃ n, lastInsertion? config uses id = some n := by
    intro id hkept
    obtain ⟨e, hget⟩ := Option.isSome_iff_exists.mp hkept
    obtain ⟨n, _, _, hlast, -⟩ := hstep.built id e hget
    exact ⟨n, hlast⟩
  have holdest := (hqueued oldest).mp List.mem_cons_self
  obtain ⟨n, hn⟩ := hinserted oldest holdest
  refine ⟨holdest, n, hn, fun other hkept hother => ?_⟩
  obtain ⟨m, hm⟩ := hinserted other hkept
  have hmem : other ∈ rest := ((List.mem_cons.mp ((hqueued other).mpr hkept)).resolve_left hother)
  exact ⟨m, hm, (List.pairwise_cons.mp hascending).1 other hmem n m hn hm⟩

/-- If a use gives room to a new id in a full cache, the oldest id makes way, and the others keep
their enforcers. -/
theorem exists_oldest {config : CacheConfig} {uses : List CacheUse} {use : CacheUse} {id : PolicyId}
    (hfull : ((new config).after uses).size = config.maxEntries.toNat)
    (hnew : ((new config).after uses).enforcers.contains id = false)
    (hkept : (use.apply ((new config).after uses)).enforcers.contains id = true) :
    ∃ oldest, IsOldest config uses oldest ∧
      (use.apply ((new config).after uses)).enforcers.contains oldest = false ∧
        ∀ other, other ≠ oldest → other ≠ id →
          (use.apply ((new config).after uses)).enforcers.get? other =
            ((new config).after uses).enforcers.get? other := by
  have hbalanced := balanced_after config uses
  have holdest : ∀ oldest rest, ((new config).after uses).queue = oldest :: rest →
      IsOldest config uses oldest := fun _ _ => isOldest_of_queue
  rw [← capacity_after config uses] at hfull
  generalize (new config).after uses = c at hbalanced holdest hfull hnew hkept ⊢
  -- Only an insertion into the full cache brings an enforcer that was not kept before.
  obtain ⟨e, hget⟩ := Option.isSome_iff_exists.mp hkept
  have hbefore : c.enforcers.get? id ≠ some e := by
    intro hsome
    have hcontains : c.enforcers.contains id = true := Option.isSome_of_eq_some hsome
    rw [hnew] at hcontains
    exact Bool.false_ne_true hcontains
  rcases apply_cases c use with ⟨heq, -⟩ | ⟨_, -, heq, -⟩ | ⟨policy, now, -, hcapacity, heq, -⟩
  · rw [heq] at hget
    exact absurd hget hbefore
  · rw [heq] at hget
    exact absurd (get?_invalidate hget) hbefore
  · rw [heq] at hget ⊢
    have hid : id = policy.id := ((get?_insert hget).resolve_right hbefore).1
    rw [hid] at hnew
    rcases hbalanced.insert_cases hcapacity (Enforcer.asOf policy now) with
      ⟨hroom, -⟩ | ⟨-, -, oldest, rest, hqueue, hinsert⟩
    · rcases hroom with hcontains | hlt
      · exact absurd (hnew.symm.trans hcontains) Bool.false_ne_true
      · omega
    · rw [hinsert]
      refine ⟨oldest, holdest oldest rest hqueue, ?_, fun other hother hne => ?_⟩
      · unfold Dict.contains
        rw [Dict.get?_erase_self]
        rfl
      · rw [Dict.get?_erase_of_ne _ hother, Dict.get?_insert_of_ne]
        exact fun hsame => hne (hsame.trans hid.symm)

/-- An id that is no longer kept was forgotten on purpose, or it was the oldest one and made way for
a new one in a full cache. -/
theorem forgets_or_isOldest {config : CacheConfig} {uses : List CacheUse} {use : CacheUse}
    {id : PolicyId} (hkept : ((new config).after uses).enforcers.contains id = true)
    (hgone : (use.apply ((new config).after uses)).enforcers.contains id = false) :
    use.Forgets id ∨ (IsOldest config uses id ∧
      ((new config).after uses).size = config.maxEntries.toNat ∧
        ∃ policy now, use = .lookup policy now ∧
          ((new config).after uses).enforcers.contains policy.id = false) := by
  have hbalanced := balanced_after config uses
  have holdest : ∀ oldest rest, ((new config).after uses).queue = oldest :: rest →
      IsOldest config uses oldest := fun _ _ => isOldest_of_queue
  rw [← capacity_after config uses]
  generalize (new config).after uses = c at hbalanced holdest hkept hgone ⊢
  rcases apply_cases c use with
    ⟨heq, -⟩ | ⟨other, hforgets, heq, -⟩ | ⟨policy, now, huse, hcapacity, heq, -⟩
  · rw [heq, hkept] at hgone
    cases hgone
  · by_cases hid : id = other
    · exact .inl (hid ▸ hforgets)
    · unfold Dict.contains at hgone hkept
      rw [heq, (hbalanced.invalidate_eq other).2, if_neg hid, hkept] at hgone
      cases hgone
  · rw [heq] at hgone
    rw [Bool.eq_false_iff] at hgone
    rcases hbalanced.insert_cases hcapacity (Enforcer.asOf policy now) with
      ⟨-, hinsert⟩ | ⟨hnew, hfull, oldest, rest, hqueue, hinsert⟩
    · rw [hinsert, Ne, Dict.contains_insert, not_or] at hgone
      exact absurd hkept hgone.2
    · rw [hinsert, Ne, Dict.contains_erase, Dict.contains_insert, not_and, not_or] at hgone
      have hid : id = oldest := by
        by_contra hne
        exact (hgone hne).2 hkept
      exact .inr ⟨hid ▸ holdest oldest rest hqueue, hfull, policy, now, huse, hnew⟩

/-- Unless nothing at all is kept, an enforcer that was asked for is kept afterwards. -/
theorem get?_getOrBuild {config : CacheConfig} {uses : List CacheUse} {policy : Policy}
    (hlive : policy.isDeleted = false) (hmax : 0 < config.maxEntries.toNat) (now : Timestamp) :
    (((new config).after uses).getOrBuild policy now).2.enforcers.get? policy.id =
      (((new config).after uses).getOrBuild policy now).1 := by
  have hbalanced := balanced_after config uses
  rw [← capacity_after config uses] at hmax
  generalize (new config).after uses = c at hbalanced hmax ⊢
  cases hserved : c.served? policy now with
  | some e =>
    rw [getOrBuild_of_served hlive hserved]
    exact (Option.filter_eq_some_iff.mp hserved).1
  | none =>
    obtain ⟨front, -, -, -, hget⟩ := hbalanced.exists_front hmax (Enforcer.asOf policy now)
    rw [getOrBuild_of_not_served hlive hserved]
    exact (hget policy.id).trans (if_pos rfl)

/-- After every history the queue names the kept ids, each once, and there are not too many of them.
A revision that is noted beside an enforcer is that of the enforcer, and the key is its policy's id.
What is kept under an id was built for it at its last insertion, and is kept for the revision that
the policy had then. An enforcer that was asked for is kept, unless nothing ever is; if it is new in
a full cache, exactly the id whose last insertion is the oldest makes way for it; and apart from
that an id is only forgotten when its policy is invalidated or was deleted. -/
theorem kept_in_order (config : CacheConfig) (uses : List CacheUse) :
    let c := (new config).after uses
    let noted := (NotedCache.new config).after uses
    (noted.toCache = c ∧
      (∀ id kept, noted.entries.get? id = some kept →
        kept.revision = kept.enforcer.revision ∧ kept.enforcer.policyId = id) ∧
      ∀ policy now, (noted.getOrBuild policy now).1 = (c.getOrBuild policy now).1) ∧
    (c.queue.Nodup ∧ ∀ id, id ∈ c.queue ↔ c.enforcers.contains id = true) ∧
    c.size ≤ config.maxEntries.toNat ∧
    (∀ id e, c.enforcers.get? id = some e → e.policyId = id ∧ c.revision? id = some e.revision ∧
      ∃ n policy now, lastInsertion? config uses id = some n ∧
        uses[n]? = some (.lookup policy now) ∧ policy.id = id ∧
          policy.book.revision = e.revision ∧ e = Enforcer.asOf policy now) ∧
    (∀ policy now, policy.isDeleted = false → 0 < config.maxEntries.toNat →
      (c.getOrBuild policy now).2.enforcers.get? policy.id = (c.getOrBuild policy now).1) ∧
    (∀ (use : CacheUse) (id : PolicyId), c.size = config.maxEntries.toNat →
      c.enforcers.contains id = false → (use.apply c).enforcers.contains id = true →
        ∃ oldest, IsOldest config uses oldest ∧
          (use.apply c).enforcers.contains oldest = false ∧
            ∀ other, other ≠ oldest → other ≠ id →
              (use.apply c).enforcers.get? other = c.enforcers.get? other) ∧
    ∀ (use : CacheUse) (id : PolicyId), c.enforcers.contains id = true →
      (use.apply c).enforcers.contains id = false →
        use.Forgets id ∨ (IsOldest config uses id ∧ c.size = config.maxEntries.toNat ∧
          ∃ policy now, use = .lookup policy now ∧ c.enforcers.contains policy.id = false) := by
  intro c noted
  have hbalanced := balanced_after config uses
  obtain ⟨hfaithful, hcache⟩ := NotedCache.toCache_after config uses
  refine ⟨⟨hcache, hfaithful, fun policy now => ?_⟩, ⟨hbalanced.nodup, hbalanced.mem_queue_iff⟩,
    ?_, ?_, ?_, ?_, ?_⟩
  · have hanswer := congrArg Prod.fst (NotedCache.getOrBuild_toCache hfaithful policy now)
    rw [hcache] at hanswer
    exact hanswer.symm
  · rw [← capacity_after config uses]
    exact hbalanced.size_le
  · intro id e hkept
    obtain ⟨n, policy, now, hlast, huse, hid, rfl⟩ := (inStep_after config uses).built id e hkept
    refine ⟨hid, ?_, n, policy, now, hlast, huse, hid, rfl, rfl⟩
    unfold revision?
    rw [hkept]
    rfl
  · intro policy now hlive hmax
    exact get?_getOrBuild hlive hmax now
  · intro use id hfull hnew hkept
    exact exists_oldest hfull hnew hkept
  · intro use id hkept hgone
    exact forgets_or_isOldest hkept hgone

/-- A policy without entries, at a revision. -/
def emptyHouse (name : String) (h : EntityId.flaw? name = none) (revision : Revision) : Policy :=
  { Policy.new ⟨name, h⟩ with book := { Bookkeeping.fresh with revision } }

/-- The policies of three houses. -/
def northHouse : Revision → Policy := emptyHouse "org.example:north" (by decide)

/-- The second house. -/
def southHouse : Revision → Policy := emptyHouse "org.example:south" (by decide)

/-- The third house. -/
def eastHouse : Revision → Policy := emptyHouse "org.example:east" (by decide)

/-- Both houses are visited; the one in the south is served again, the one in the north is rebuilt,
because it has changed. -/
def visits : List CacheUse :=
  [.lookup (northHouse ⟨1⟩) ⟨0⟩, .lookup (southHouse ⟨1⟩) ⟨1⟩, .lookup (northHouse ⟨2⟩) ⟨2⟩,
    .lookup (southHouse ⟨1⟩) ⟨3⟩]

/-- In a cache for two houses, the one in the south makes way for the one in the east, although it
was visited last: its last insertion is the older one. -/
theorem kept_in_order_visits :
    let c := (new ⟨2⟩).after visits
    let c' := (CacheUse.lookup (eastHouse ⟨1⟩) ⟨4⟩).apply c
    c.size = 2 ∧ c.enforcers.contains (eastHouse ⟨1⟩).id = false ∧
      c'.enforcers.contains (eastHouse ⟨1⟩).id = true ∧
      lastInsertion? ⟨2⟩ visits (southHouse ⟨1⟩).id = some 1 ∧
      lastInsertion? ⟨2⟩ visits (northHouse ⟨1⟩).id = some 2 ∧
      ∃ oldest, IsOldest ⟨2⟩ visits oldest ∧ oldest = (southHouse ⟨1⟩).id ∧
        c'.enforcers.contains oldest = false := by
  intro c c'
  have hsize : c.size = 2 := by decide
  have hnew : c.enforcers.contains (eastHouse ⟨1⟩).id = false := by decide
  have hkept : c'.enforcers.contains (eastHouse ⟨1⟩).id = true := by decide
  have hsouth : lastInsertion? ⟨2⟩ visits (southHouse ⟨1⟩).id = some 1 := by decide
  have hnorth : lastInsertion? ⟨2⟩ visits (northHouse ⟨1⟩).id = some 2 := by decide
  obtain ⟨-, -, -, -, -, heviction, -⟩ := kept_in_order ⟨2⟩ visits
  obtain ⟨oldest, holdest, hgone, hothers⟩ := heviction _ _ hsize hnew hkept
  refine ⟨hsize, hnew, hkept, hsouth, hnorth, oldest, holdest, ?_, hgone⟩
  by_contra hne
  have hstays := hothers (southHouse ⟨1⟩).id (Ne.symm hne) (by decide)
  have hleft : (c'.enforcers.get? (southHouse ⟨1⟩).id).isSome = false := by decide
  rw [hstays] at hleft
  have hthere : (c.enforcers.get? (southHouse ⟨1⟩).id).isSome = true := by decide
  rw [hleft] at hthere
  cases hthere

end EnforcerCache

end GuardedThings
