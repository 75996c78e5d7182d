import GuardedThings.Binary64.Basic

/-!
# Shortest decimal text of a binary64 number

The digits are the fewest that read back as the number: of the decimal grids
`10 ^ k`, from coarse to fine, the first one with a point that rounds to the
number is taken, of two such points the nearer, and of two equally near ones
the even. They are written positionally, with at least one decimal, while the
first digit stands for `10 ^ -5` to `10 ^ 15`, and with a signed exponent
otherwise.
-/

set_option autoImplicit false

namespace GuardedThings.Binary64

/-- The power of ten for a non-negative exponent, else one. -/
def tenUp (k : Int) : Nat := Nat.pow 10 k.toNat

/-- The point `c` of the grid `10 ^ k` that stands for `d`, if one does. -/
def gridPoint? (d : Dyadic) (k : Int) : Option Nat :=
  let scale := Dyadic.twoUp d.exponent * tenUp (-k)
  let unit := Dyadic.twoUp (-d.exponent) * tenUp k
  let value := d.mantissa * scale
  let below := if d.mantissa = Dyadic.hiddenBit ∧ -1074 < d.exponent then 1 else 2
  let low := (4 * d.mantissa - below) * scale
  let high := (4 * d.mantissa + 2) * scale
  let inside (c : Nat) : Bool :=
    let point := 4 * c * unit
    if d.mantissa % 2 = 0 then low ≤ point && point ≤ high else low < point && point < high
  let floor := value / unit
  match inside floor, inside (floor + 1) with
  | false, false => none
  | true, false => some floor
  | false, true => some (floor + 1)
  | true, true => some (Dyadic.nearestQuotient value unit)

/-- The first grid, going down from `10 ^ k`, that has a point standing for `d`. -/
def coarsestPoint? (d : Dyadic) : Nat → Int → Option (Nat × Int)
  | 0, _ => none
  | steps + 1, k =>
    match gridPoint? d k with
    | some c => some (c, k)
    | none => coarsestPoint? d steps (k - 1)

/-- Digits and power of ten of the shortest decimal that stands for `d`. -/
def shortest (d : Dyadic) : Nat × Int :=
  let top := (d.exponent + d.mantissa.log2 + 1) * 30103 / 100000 + 2
  (coarsestPoint? d (top + 1075).toNat top).getD (0, 0)

/-- The text of an exponent, with its sign. -/
def exponentText (e : Int) : String :=
  if e < 0 then "e-" ++ toString e.natAbs else "e+" ++ toString e.natAbs

/-- The text of a magnitude. -/
def magnitudeText (d : Dyadic) : String :=
  if d.mantissa = 0 then "0.0"
  else
    let (point, k) := shortest d
    let digits := Nat.toDigits 10 point
    let count := digits.length
    let e := k + count - 1
    let zeros (n : Int) : List Char := List.replicate n.toNat '0'
    if 15 < e ∨ e < -5 then
      let fraction := digits.drop 1
      String.ofList (digits.take 1 ++ (if fraction.isEmpty then [] else '.' :: fraction)) ++
        exponentText e
    else if e < 0 then String.ofList ('0' :: '.' :: zeros (-e - 1) ++ digits)
    else if e < count - 1 then
      String.ofList (digits.take (e.toNat + 1) ++ '.' :: digits.drop (e.toNat + 1))
    else String.ofList (digits ++ zeros (e - count + 1) ++ ['.', '0'])

/-- The shortest text that reads back as the number. -/
def text (x : Binary64) : String :=
  let t := magnitudeText x.magnitude
  if x.isNegative then "-" ++ t else t

end GuardedThings.Binary64
