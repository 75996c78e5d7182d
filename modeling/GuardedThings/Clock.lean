/-!
# Revisions, points in time and lifecycles

Revisions and points in time are 64-bit words. Both grow, and both stop at the
greatest word instead of wrapping around: `saturate` is the word of a natural
number, capped there (`toNat_saturate`).
-/

set_option autoImplicit false

namespace GuardedThings

/-- The greatest 64-bit word. -/
def maxWord : UInt64 := 0xffffffffffffffff

/-- The word of a natural number, or the greatest word if the number is too large. -/
def saturate (n : Nat) : UInt64 := if n < UInt64.size then n.toUInt64 else maxWord

/-- Saturating a natural number caps it at the greatest word. -/
theorem toNat_saturate (n : Nat) : (saturate n).toNat = min n (UInt64.size - 1) := by
  unfold saturate
  split
  · rename_i h
    rw [Nat.min_eq_left (by omega)]
    exact Nat.mod_eq_of_lt h
  · rename_i h
    rw [Nat.min_eq_right (by omega)]
    rfl

/-- The number of events an aggregate has seen; zero before the first. -/
structure Revision where
  number : UInt64
deriving DecidableEq

namespace Revision

/-- The revision of an aggregate that does not exist. -/
def initial : Revision := ⟨0⟩

/-- The revision of the next event. -/
def next (r : Revision) : Revision := ⟨saturate (r.number.toNat + 1)⟩

/-- The decimal text of a revision. -/
def text (r : Revision) : String := toString r.number.toNat

end Revision

/-- A point in time, in milliseconds. -/
structure Timestamp where
  millis : UInt64
deriving DecidableEq

namespace Timestamp

/-- Whether `t` is at or before `now`. -/
def reached (t now : Timestamp) : Bool := t.millis ≤ now.millis

/-- The earlier of two points in time. -/
def earlier (t u : Timestamp) : Timestamp := if t.millis ≤ u.millis then t else u

/-- The least multiple of `granularity` from `t` on; a granularity of zero keeps `t`. -/
def roundUp (t : Timestamp) (granularity : UInt64) : Timestamp :=
  let excess := t.millis.toNat % granularity.toNat
  if granularity = 0 ∨ excess = 0 then t
  else ⟨saturate (t.millis.toNat + (granularity.toNat - excess))⟩

/-- The text of a point in time. -/
def text (t : Timestamp) : String := toString t.millis.toNat ++ "ms"

end Timestamp

/-- Whether an existing aggregate accepts commands. -/
inductive Lifecycle where
  | active
  | deleted
deriving DecidableEq

namespace Lifecycle

/-- The name of a lifecycle. -/
def name : Lifecycle → String
  | active => "ACTIVE"
  | deleted => "DELETED"

/-- Whether the lifecycle is active. -/
def isActive (l : Lifecycle) : Bool := l = active

/-- Whether the lifecycle is deleted. -/
def isDeleted (l : Lifecycle) : Bool := l = deleted

end Lifecycle

end GuardedThings
