import GuardedThings.Subject
import Mathlib.Order.Bounds.Basic
import Mathlib.Order.MinMax

/-!
# Rounding up points in time

A positive granularity has a least multiple from any point in time on, but near the
greatest word that multiple may be no word. Rounding up ends at the multiple or at the
greatest word, whichever is less (`Timestamp.toNat_roundUp`). How rounding goes with the
order of time follows from this alone, on either side of the last multiple:

* no point in time is rounded to an earlier one (`Timestamp.le_roundUp`);
* points in time keep their order, though not their distance (`Timestamp.roundUp_mono`);
* what was rounded stays where it is (`Timestamp.roundUp_roundUp`).

On words, rounding up takes a remainder, a difference and a sum that stops at the greatest
word. Neither the remainder nor the difference is ever left without a result
(`Timestamp.roundUpInWords_eq`): a granularity of zero is set apart before it divides, and
a remainder is less than its divisor.

Since no expiry is rounded to an earlier one, a subject that counts keeps counting when its
expiry is rounded up (`Subject.isExpired_roundUp`).
-/

set_option autoImplicit false

namespace GuardedThings

/-! ## Operations on words -/

/-- Why an operation on words has no result. -/
inductive WordFault where
  | zeroDivisor
  | overflow
deriving DecidableEq

namespace Word

/-- The remainder of a division. -/
def remainder (a b : UInt64) : Except WordFault UInt64 :=
  if b = 0 then .error .zeroDivisor else .ok (a % b)

/-- The difference; there is no word below zero. -/
def difference (a b : UInt64) : Except WordFault UInt64 :=
  if a < b then .error .overflow else .ok (a - b)

/-- The sum, or the greatest word if `b` is more than what is left above `a`. -/
def cappedSum (a b : UInt64) : UInt64 :=
  if maxWord - a < b then maxWord else a + b

/-- No word is beyond the greatest one. -/
theorem toNat_le (a : UInt64) : a.toNat ≤ UInt64.size - 1 := by
  have hsize := a.toNat_lt_size
  omega

/-- A word that is not zero counts for something. -/
theorem toNat_pos {a : UInt64} (h : a ≠ 0) : 0 < a.toNat :=
  Nat.pos_of_ne_zero fun hzero => h (UInt64.toNat_inj.mp hzero)

/-- A remainder by a word that is not zero does not fault. -/
theorem remainder_eq_ok (a : UInt64) {b : UInt64} (h : b ≠ 0) : remainder a b = .ok (a % b) :=
  if_neg h

/-- A difference does not fault where it is not negative. -/
theorem difference_eq_ok {a b : UInt64} (h : b ≤ a) : difference a b = .ok (a - b) :=
  if_neg (UInt64.not_lt.mpr h)

/-- The sum of words stops where that of natural numbers is capped. -/
theorem cappedSum_eq (a b : UInt64) : cappedSum a b = saturate (a.toNat + b.toNat) := by
  have ha := toNat_le a
  have hroom : (maxWord - a).toNat = UInt64.size - 1 - a.toNat :=
    UInt64.toNat_sub_of_le maxWord a (UInt64.le_iff_toNat_le.mpr ha)
  rw [← UInt64.toNat_inj, toNat_saturate]
  unfold cappedSum
  split
  · rename_i hbeyond
    rw [UInt64.lt_iff_toNat_lt, hroom] at hbeyond
    rw [min_eq_right (by omega)]
    rfl
  · rename_i hfits
    rw [UInt64.lt_iff_toNat_lt, hroom] at hfits
    have hsum : a.toNat + b.toNat ≤ UInt64.size - 1 := by omega
    rw [min_eq_left hsum, UInt64.toNat_add]
    exact Nat.mod_eq_of_lt (Nat.lt_of_le_pred (by decide) hsum)

end Word

namespace Timestamp

variable {t u : Timestamp} {granularity : UInt64}

/-! ## The least multiple -/

/-- The multiples of the granularity that are not before `t`, whether or not they are words. -/
def multiplesFrom (t : Timestamp) (granularity : UInt64) : Set ℕ :=
  {m | granularity.toNat ∣ m ∧ t.millis.toNat ≤ m}

/-- Fewer multiples follow a later time. -/
theorem multiplesFrom_anti (h : t.millis ≤ u.millis) :
    u.multiplesFrom granularity ⊆ t.multiplesFrom granularity := by
  rintro m ⟨hmultiple, hfrom⟩
  exact ⟨hmultiple, (UInt64.le_iff_toNat_le.mp h).trans hfrom⟩

/-- A multiple of the granularity is the first one from itself on. -/
theorem isLeast_self (h : granularity.toNat ∣ t.millis.toNat) :
    IsLeast (t.multiplesFrom granularity) t.millis.toNat :=
  ⟨⟨h, le_rfl⟩, fun _ hm => hm.2⟩

/-- From anywhere else, the first one is reached by what the remainder leaves of the granularity. -/
theorem isLeast_next (h : granularity ≠ 0)
    (hexcess : t.millis.toNat % granularity.toNat ≠ 0) :
    IsLeast (t.multiplesFrom granularity)
      (t.millis.toNat + (granularity.toNat - t.millis.toNat % granularity.toNat)) := by
  have hdivided := Nat.div_add_mod t.millis.toNat granularity.toNat
  have hless := Nat.mod_lt t.millis.toNat (Word.toNat_pos h)
  have hnext : t.millis.toNat + (granularity.toNat - t.millis.toNat % granularity.toNat) =
      granularity.toNat * (t.millis.toNat / granularity.toNat + 1) := by
    rw [Nat.mul_add, Nat.mul_one]
    omega
  refine ⟨⟨hnext ▸ Nat.dvd_mul_right _ _, by omega⟩, ?_⟩
  -- A multiple from `t` on is beyond the last one before `t`, since `t` itself is none.
  rintro _ ⟨⟨k, rfl⟩, hfrom⟩
  have hbeyond : granularity.toNat * (t.millis.toNat / granularity.toNat) <
      granularity.toNat * k := by omega
  rw [hnext]
  exact Nat.mul_le_mul_left _ (Nat.lt_of_mul_lt_mul_left hbeyond)

/-- Rounding up ends at the least multiple from `t` on, or at the greatest word if that is less. -/
theorem toNat_roundUp (t : Timestamp) (h : granularity ≠ 0) :
    ∃ m, IsLeast (t.multiplesFrom granularity) m ∧
      (t.roundUp granularity).millis.toNat = min m (UInt64.size - 1) := by
  unfold roundUp
  dsimp only
  split
  · rename_i hkept
    have hmultiple := Nat.dvd_of_mod_eq_zero (hkept.resolve_left h)
    exact ⟨_, isLeast_self hmultiple, (min_eq_left (Word.toNat_le _)).symm⟩
  · rename_i hmoved
    exact ⟨_, isLeast_next h fun hexact => hmoved (.inr hexact), toNat_saturate _⟩

/-! ## Rounding and the order of time -/

/-- Without a granularity no time is rounded. -/
theorem roundUp_zero (t : Timestamp) : t.roundUp 0 = t := by
  unfold roundUp
  exact if_pos (.inl rfl)

/-- Rounding up never goes back. -/
theorem le_roundUp (t : Timestamp) (granularity : UInt64) :
    t.millis ≤ (t.roundUp granularity).millis := by
  by_cases h : granularity = 0
  · rw [h, roundUp_zero]
    exact UInt64.le_refl _
  · obtain ⟨m, hleast, hrounded⟩ := t.toNat_roundUp h
    rw [UInt64.le_iff_toNat_le, hrounded]
    exact le_min hleast.1.2 (Word.toNat_le _)

/-- Rounding up keeps the order of times. -/
theorem roundUp_mono (granularity : UInt64) (h : t.millis ≤ u.millis) :
    (t.roundUp granularity).millis ≤ (u.roundUp granularity).millis := by
  by_cases hzero : granularity = 0
  · rw [hzero, roundUp_zero, roundUp_zero]
    exact h
  · obtain ⟨m, hleast, hrounded⟩ := t.toNat_roundUp hzero
    obtain ⟨n, hleast', hrounded'⟩ := u.toNat_roundUp hzero
    have hle : m ≤ n := hleast'.mono hleast (multiplesFrom_anti h)
    rw [UInt64.le_iff_toNat_le, hrounded, hrounded']
    exact min_le_min hle le_rfl

/-- Rounding up ends at a multiple of the granularity or at the greatest point in time. -/
theorem roundUp_ends (t : Timestamp) (granularity : UInt64) :
    granularity = 0 ∨ granularity.toNat ∣ (t.roundUp granularity).millis.toNat ∨
      (t.roundUp granularity).millis = maxWord := by
  by_cases h : granularity = 0
  · exact .inl h
  · obtain ⟨m, hleast, hrounded⟩ := t.toNat_roundUp h
    rcases min_choice m (UInt64.size - 1) with hmultiple | hgreatest
    · rw [hmultiple] at hrounded
      exact .inr (.inl (hrounded ▸ hleast.1.1))
    · rw [hgreatest] at hrounded
      exact .inr (.inr (UInt64.toNat_inj.mp hrounded))

/-- A point in time at which rounding up may end is rounded up already. -/
theorem roundUp_eq_self
    (h : granularity = 0 ∨ granularity.toNat ∣ t.millis.toNat ∨ t.millis = maxWord) :
    t.roundUp granularity = t := by
  by_cases hzero : granularity = 0
  · rw [hzero, roundUp_zero]
  · obtain ⟨m, hleast, hrounded⟩ := t.toNat_roundUp hzero
    have hsame : min m (UInt64.size - 1) = t.millis.toNat := by
      rcases h.resolve_left hzero with hmultiple | hgreatest
      · rw [hleast.unique (isLeast_self hmultiple)]
        exact min_eq_left (Word.toNat_le _)
      · have hmax : t.millis.toNat = UInt64.size - 1 := by
          rw [hgreatest]
          rfl
        rw [hmax]
        exact min_eq_right (hmax ▸ hleast.1.2)
    exact congrArg Timestamp.mk (UInt64.toNat_inj.mp (hrounded.trans hsame))

/-- A rounded time stays where it is. -/
theorem roundUp_roundUp (t : Timestamp) (granularity : UInt64) :
    (t.roundUp granularity).roundUp granularity = t.roundUp granularity :=
  roundUp_eq_self (t.roundUp_ends granularity)

/-! ## Rounding on words -/

/-- Rounding up, one operation on words after the other. -/
def roundUpInWords (t : Timestamp) (granularity : UInt64) : Except WordFault Timestamp :=
  if granularity = 0 then .ok t
  else do
    let excess ← Word.remainder t.millis granularity
    if excess = 0 then return t
    else
      let missing ← Word.difference granularity excess
      return ⟨Word.cappedSum t.millis missing⟩

/-- Every operation has a result, and together they round up. -/
theorem roundUpInWords_eq (t : Timestamp) (granularity : UInt64) :
    t.roundUpInWords granularity = .ok (t.roundUp granularity) := by
  unfold roundUpInWords
  by_cases hzero : granularity = 0
  · rw [if_pos hzero, hzero, roundUp_zero]
  · have hexcess : (t.millis % granularity).toNat = t.millis.toNat % granularity.toNat :=
      UInt64.toNat_mod _ _
    have hless : t.millis % granularity ≤ granularity := by
      rw [UInt64.le_iff_toNat_le, hexcess]
      exact (Nat.mod_lt _ (Word.toNat_pos hzero)).le
    rw [if_neg hzero, Word.remainder_eq_ok _ hzero]
    show (if _ then _ else _) = _
    split
    · rename_i hexact
      have hmultiple : granularity.toNat ∣ t.millis.toNat := by
        refine Nat.dvd_of_mod_eq_zero ?_
        rw [← hexcess, hexact]
        rfl
      rw [roundUp_eq_self (.inr (.inl hmultiple))]
      rfl
    · rename_i hinexact
      have hmoved : ¬(granularity = 0 ∨ t.millis.toNat % granularity.toNat = 0) := by
        rw [← hexcess]
        exact not_or_intro hzero fun h => hinexact (UInt64.toNat_inj.mp h)
      rw [Word.difference_eq_ok hless]
      show Except.ok (Timestamp.mk (Word.cappedSum _ _)) = _
      rw [Word.cappedSum_eq, UInt64.toNat_sub_of_le _ _ hless, hexcess]
      exact congrArg Except.ok (if_neg hmoved).symm

end Timestamp

/-- A subject that counts keeps counting when its expiry is rounded up. -/
theorem Subject.isExpired_roundUp (subject : Subject) {now : Timestamp} (granularity : UInt64)
    (h : subject.isExpired now = false) :
    ({ subject with expiry := subject.expiry.map fun expiry => expiry.roundUp granularity } :
      Subject).isExpired now = false := by
  obtain ⟨type, expiry⟩ := subject
  cases expiry with
  | none => rfl
  | some expiry =>
    have hlater : now.millis < expiry.millis := by
      simpa [isExpired, Timestamp.reached] using h
    have hrounded := UInt64.lt_of_lt_of_le hlater (expiry.le_roundUp granularity)
    simpa [isExpired, Timestamp.reached] using hrounded

namespace Timestamp

/-- Rounding up leaves no operation on words without a result. It keeps a point in time if the
granularity is zero; else it ends at the least multiple of the granularity from there on, or at the
greatest word if that multiple is none. It never goes back, it keeps the order of points in time,
and rounding twice is rounding once. So a subject that is not expired at some time is not expired
at that time with its expiry rounded up. -/
theorem roundUp_laws :
    (∀ (t : Timestamp) (granularity : UInt64),
      t.roundUpInWords granularity = .ok (t.roundUp granularity)) ∧
    (∀ t : Timestamp, t.roundUp 0 = t) ∧
    (∀ (t : Timestamp) (granularity : UInt64), granularity ≠ 0 →
      ∃ m, IsLeast (t.multiplesFrom granularity) m ∧
        (t.roundUp granularity).millis.toNat = if m < UInt64.size then m else UInt64.size - 1) ∧
    (∀ (t : Timestamp) (granularity : UInt64), t.millis ≤ (t.roundUp granularity).millis) ∧
    (∀ (t u : Timestamp) (granularity : UInt64), t.millis ≤ u.millis →
      (t.roundUp granularity).millis ≤ (u.roundUp granularity).millis) ∧
    (∀ (t : Timestamp) (granularity : UInt64),
      (t.roundUp granularity).roundUp granularity = t.roundUp granularity) ∧
    ∀ (subject : Subject) (now : Timestamp) (granularity : UInt64),
      subject.isExpired now = false →
        ({ subject with expiry := subject.expiry.map fun expiry => expiry.roundUp granularity } :
          Subject).isExpired now = false := by
  refine ⟨roundUpInWords_eq, roundUp_zero, ?_, le_roundUp, fun _ _ granularity h =>
    roundUp_mono granularity h, roundUp_roundUp, fun subject _ granularity h =>
    subject.isExpired_roundUp granularity h⟩
  intro t granularity h
  obtain ⟨m, hleast, hrounded⟩ := t.toNat_roundUp h
  refine ⟨m, hleast, hrounded.trans ?_⟩
  split
  · rename_i hword
    exact min_eq_left (Nat.le_sub_one_of_lt hword)
  · rename_i hbeyond
    exact min_eq_right (by omega)

/-- An hour, as a granularity. -/
def fullHours : UInt64 := 3600000

/-- The last full hour that is a word. -/
def lastFullHour : Timestamp := ⟨18446744073708000000⟩

/-- A point in time after the last full hour. -/
def afterLastHour : Timestamp := ⟨18446744073709551000⟩

/-- A guest who leaves after the last full hour. -/
def lastGuest : Subject := ⟨"generated", some afterLastHour⟩

/-- After the last full hour only the greatest word is left to round up to, which is still in
order, and the guest who is there at the last full hour is there with the rounded expiry. -/
theorem roundUp_laws_last_guest :
    afterLastHour.roundUp fullHours = ⟨maxWord⟩ ∧
    afterLastHour.roundUpInWords fullHours = .ok (afterLastHour.roundUp fullHours) ∧
    fullHours ≠ 0 ∧
    (∃ m, IsLeast (afterLastHour.multiplesFrom fullHours) m ∧
      (afterLastHour.roundUp fullHours).millis.toNat =
        if m < UInt64.size then m else UInt64.size - 1) ∧
    lastFullHour.millis ≤ afterLastHour.millis ∧
    (lastFullHour.roundUp fullHours).millis ≤ (afterLastHour.roundUp fullHours).millis ∧
    lastGuest.isExpired lastFullHour = false ∧
    ({ lastGuest with expiry := some (afterLastHour.roundUp fullHours) } : Subject).isExpired
      lastFullHour = false := by
  have hhours : fullHours ≠ 0 := by decide
  have hlater : lastFullHour.millis ≤ afterLastHour.millis := by decide
  have hcounts : lastGuest.isExpired lastFullHour = false := by decide
  obtain ⟨hwords, -, hleast, -, hmono, -, hguest⟩ := roundUp_laws
  exact ⟨by decide, hwords afterLastHour fullHours, hhours, hleast afterLastHour fullHours hhours,
    hlater, hmono lastFullHour afterLastHour fullHours hlater, hcounts,
    hguest lastGuest lastFullHour fullHours hcounts⟩

end Timestamp

end GuardedThings
