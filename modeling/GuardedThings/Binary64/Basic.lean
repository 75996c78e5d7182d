/-!
# Binary64 numbers

A finite 64-bit floating-point number is kept as its bit pattern, so that two
numbers are equal exactly when they print the same (`-0.0` is not `0.0`), and
all arithmetic on it is exact arithmetic on naturals followed by one rounding
to the nearest pattern, halves to the even one.

A decimal literal is read in three roundings: its significand is rounded, its
power of ten is rounded, and their product or quotient is rounded again.
-/

set_option autoImplicit false

namespace GuardedThings

/-- A finite 64-bit floating-point number, given by its bits. -/
structure Binary64 where
  /-- Sign bit, eleven exponent bits and 52 fraction bits. -/
  bits : UInt64
deriving DecidableEq

/-- The magnitude `mantissa · 2 ^ exponent`. -/
structure Dyadic where
  mantissa : Nat
  exponent : Int
deriving DecidableEq

namespace Dyadic

/-- The leading bit of a full mantissa, `2 ^ 52`; the pattern does not store it. -/
def hiddenBit : Nat := 0x10000000000000

/-- The number zero, on the finest grid. -/
def zero : Dyadic := ⟨0, -1074⟩

/-- The integer nearest to `num / den`, a half going to the even neighbour. -/
def nearestQuotient (num den : Nat) : Nat :=
  let floor := num / den
  let twice := 2 * (num % den)
  if twice < den then floor
  else if den < twice then floor + 1
  else if floor % 2 = 0 then floor
  else floor + 1

/-- The power of two for a non-negative exponent, else one. -/
def twoUp (e : Int) : Nat := Nat.pow 2 e.toNat

/-- The binary64 magnitude nearest to `num / den`; none above the greatest finite one. -/
def nearest (num den : Nat) : Option Dyadic :=
  if num = 0 then some zero
  else
    let guess : Int := (num.log2 : Int) - (den.log2 : Int)
    let top := if num * twoUp (-guess) < den * twoUp guess then guess - 1 else guess
    let e := max (top - 52) (-1074)
    let m := nearestQuotient (num * twoUp (-e)) (den * twoUp e)
    let rounded : Dyadic := if m = 2 * hiddenBit then ⟨hiddenBit, e + 1⟩ else ⟨m, e⟩
    if 971 < rounded.exponent then none else some rounded

/-- The rounded product. -/
def mul (a b : Dyadic) : Option Dyadic :=
  let e := a.exponent + b.exponent
  nearest (a.mantissa * b.mantissa * twoUp e) (twoUp (-e))

/-- The rounded quotient; the divisor is not zero. -/
def div (a b : Dyadic) : Option Dyadic :=
  let e := a.exponent - b.exponent
  nearest (a.mantissa * twoUp e) (b.mantissa * twoUp (-e))

/-- The rounded power of ten, for exponents up to 308. -/
def tenPow (n : Nat) : Option Dyadic := nearest (Nat.pow 10 n) 1

/-- Divides by a power of ten, by at most 308 powers at a time. -/
def divTenPow (a : Dyadic) (n : Nat) : Option Dyadic :=
  if n ≤ 308 then (tenPow n).bind a.div
  else if a.mantissa = 0 then some a
  else ((tenPow 308).bind a.div).bind fun b => divTenPow b (n - 308)
termination_by n

/-- Multiplies by a power of ten; beyond 308 only zero stays finite. -/
def mulTenPow (a : Dyadic) (n : Nat) : Option Dyadic :=
  if n ≤ 308 then (tenPow n).bind a.mul
  else if a.mantissa = 0 then some a
  else none

end Dyadic

namespace Binary64

/-- The sign bit. -/
def signBit : UInt64 := 0x8000000000000000

/-- Whether the sign bit is set. -/
def isNegative (x : Binary64) : Bool := x.bits &&& signBit != 0

/-- The number with the sign of a zero dropped. -/
def withoutZeroSign (x : Binary64) : Binary64 := if x.bits = signBit then ⟨0⟩ else x

/-- The magnitude that the exponent and fraction bits stand for. -/
def magnitude (x : Binary64) : Dyadic :=
  let biased : Nat := x.bits.toNat / Dyadic.hiddenBit % 2048
  let fraction : Nat := x.bits.toNat % Dyadic.hiddenBit
  if biased = 0 then ⟨fraction, -1074⟩ else ⟨Dyadic.hiddenBit + fraction, (biased : Int) - 1075⟩

/-- The pattern of a magnitude on the binary64 grid. -/
def ofDyadic (negative : Bool) (d : Dyadic) : Binary64 :=
  let low := if d.mantissa < Dyadic.hiddenBit then d.mantissa
    else (d.exponent + 1075).toNat * Dyadic.hiddenBit + (d.mantissa - Dyadic.hiddenBit)
  ⟨(if negative then signBit else 0) ||| low.toUInt64⟩

/-- The number read from `± significand · 10 ^ exponent`; none when it is too large. -/
def ofDecimal (negative : Bool) (significand : Nat) (exponent : Int) : Option Binary64 :=
  let scaled := (Dyadic.nearest significand 1).bind fun s =>
    if 0 ≤ exponent then s.mulTenPow exponent.toNat else s.divTenPow (-exponent).toNat
  scaled.map (ofDyadic negative)

end Binary64

end GuardedThings
