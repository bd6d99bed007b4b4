import TaskRelay.Decimal.Double

/-!
# The shortest decimal that reads back

Every real number between the midpoints to the two neighbouring doubles rounds to a double `x`;
the midpoints themselves do when the significand of `x` is even. `Double.shortest` looks on the
grid of one-digit decimals, then of two-digit ones, and so on, for a point in that interval. If a
grid has a point there, one of the two grid points next to `x` is in it, so two candidates per
grid are enough, and seventeen digits always suffice.

All of it is exact arithmetic on natural numbers: the interval is scaled by `4` (so that the
midpoints are whole) and by the power of two or ten that clears the denominator.
-/

namespace TaskRelay

/-- `digits · 10 ^ exponent`; the digits are a natural number. -/
structure Decimal where
  digits : Nat
  exponent : Int
deriving DecidableEq, Repr, Inhabited

namespace Decimal

/-- Drops trailing zeros of the digits, at most `fuel` of them, and raises the exponent instead. -/
def trim : Nat → Decimal → Decimal
  | 0, d => d
  | fuel + 1, d =>
    if d.digits ≠ 0 ∧ d.digits % 10 = 0 then trim fuel ⟨d.digits / 10, d.exponent + 1⟩ else d

/-- The number of decimal digits; one for zero. -/
def digitCount (n : Nat) : Nat := (Nat.toDigits 10 n).length

end Decimal

/-- The set of reals that round to one double: between `low / den` and `high / den`, with the ends
where `closed` holds; `mid / den` is the double itself. -/
structure RoundingInterval where
  low : Nat
  mid : Nat
  high : Nat
  den : Nat
  closed : Bool
deriving Repr

namespace RoundingInterval

def ofDouble (x : Double) : RoundingInterval :=
  let m := x.significand
  let below := if x.hasNearLowerNeighbour then 1 else 2
  let q := x.scale - 2
  let up := 1 <<< q.toNat
  { low := (4 * m - below) * up
    mid := 4 * m * up
    high := (4 * m + 2) * up
    den := 1 <<< (-q).toNat
    closed := m % 2 = 0 }

/-- Whether `n / d` is in the interval. -/
def contains (i : RoundingInterval) (n d : Nat) : Bool :=
  let left := i.low * d
  let point := n * i.den
  let right := i.high * d
  if i.closed then left ≤ point && point ≤ right else left < point && point < right

/-- The power of ten of the first digit of `mid / den`, for a positive number. -/
def leadingExponent (i : RoundingInterval) : Int :=
  if i.den ≤ i.mid then (Decimal.digitCount (i.mid / i.den) : Int) - 1
  else
    let places := Decimal.digitCount (i.den / i.mid) - 1
    if i.den ≤ i.mid * Nat.pow 10 places then -(places : Int) else -(places + 1 : Int)

/-- The point with this many digits that is in the interval and nearest to the number, if there
is one. Of two points equally near the one with an even last digit is taken. -/
def nearestOnGrid (i : RoundingInterval) (count : Nat) : Option Decimal :=
  let unit := i.leadingExponent - (count - 1 : Int)
  let num := Nat.pow 10 unit.toNat
  let den := Nat.pow 10 (-unit).toNat
  -- the number in units of the grid, as a quotient
  let top := i.mid * den
  let bottom := i.den * num
  let lower := top / bottom
  let rest := top % bottom
  let lowerFits := lower ≠ 0 ∧ i.contains (lower * num) den
  let upperFits := i.contains ((lower + 1) * num) den
  if lowerFits ∧ upperFits then
    let pickLower := 2 * rest < bottom ∨ (2 * rest = bottom ∧ lower % 2 = 0)
    some ⟨if pickLower then lower else lower + 1, unit⟩
  else if lowerFits then some ⟨lower, unit⟩
  else if upperFits then some ⟨lower + 1, unit⟩
  else none

/-- Tries the grids from `count` digits on, at most `fuel` of them. -/
def searchFrom (i : RoundingInterval) : (fuel count : Nat) → Option Decimal
  | 0, _ => none
  | fuel + 1, count =>
    match i.nearestOnGrid count with
    | some d => some d
    | none => searchFrom i fuel (count + 1)

end RoundingInterval

/-- The decimal with the fewest digits that rounds to the magnitude of a finite double, and of
those the nearest; zero for a zero. -/
def Double.shortest (x : Double) : Decimal :=
  if x.isZero then ⟨0, 0⟩
  else match (RoundingInterval.ofDouble x).searchFrom 17 1 with
    | some d => d.trim 18
    | none => ⟨0, 0⟩

end TaskRelay
