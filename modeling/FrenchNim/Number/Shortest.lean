import FrenchNim.Number.Double

namespace FrenchNim

/-!
# Shortest decimals

A finite number is written with the fewest decimal digits that read back as the
same number and, among those, with the digits nearest to it. The search is
exact: the reals that round to a number form an interval, and for each digit
count only the two decimals around the number have to be tried.
-/

/-- The decimal `digits * 10 ^ exponent`. -/
structure Decimal where
  digits : Nat
  exponent : Int
  deriving Repr, DecidableEq, Inhabited

namespace Decimal

/-- Drop trailing zeros, at most as many as the fuel allows. -/
def trimZeros : Nat → Decimal → Decimal
  | 0, decimal => decimal
  | fuel + 1, decimal =>
      if decimal.digits ≠ 0 ∧ decimal.digits % 10 = 0 then
        trimZeros fuel ⟨decimal.digits / 10, decimal.exponent + 1⟩
      else
        decimal

end Decimal

/--
The reals that round to a number, as a fraction over a common denominator.

The number itself is `middle / denominator`. The ends belong to the interval
when the number's significand is even.
-/
structure RoundingInterval where
  low : Nat
  middle : Nat
  high : Nat
  denominator : Nat
  closed : Bool
  deriving Repr

namespace RoundingInterval

/-- The interval of a finite number other than zero. -/
def ofDouble (number : Double) : RoundingInterval :=
  let significand := number.significand
  let narrow := significand = Nat.pow 2 Double.fractionBits && 1 < number.exponentField
  let low := 4 * significand - (if narrow then 1 else 2)
  let high := 4 * significand + 2
  let exponent := number.exponent - 2
  let scale := if 0 ≤ exponent then Nat.pow 2 exponent.toNat else 1
  { low := low * scale
    middle := 4 * significand * scale
    high := high * scale
    denominator := if 0 ≤ exponent then 1 else Nat.pow 2 (-exponent).toNat
    closed := significand % 2 = 0 }

/-- The integer multiple of a power of ten lies in the interval. -/
def contains (interval : RoundingInterval) (multiple : Nat) (exponent : Int) : Bool :=
  let up := Nat.pow 10 exponent.toNat
  let down := Nat.pow 10 (-exponent).toNat
  let point := multiple * up * interval.denominator
  if interval.closed then
    interval.low * down ≤ point && point ≤ interval.high * down
  else
    interval.low * down < point && point < interval.high * down

/-- The decimal on the grid of an exponent that is in the interval and nearest to the number. -/
def onGrid? (interval : RoundingInterval) (exponent : Int) : Option Decimal :=
  let numerator := interval.middle * Nat.pow 10 (-exponent).toNat
  let unit := interval.denominator * Nat.pow 10 exponent.toNat
  let below := numerator / unit
  let twice := 2 * (numerator % unit)
  let belowFirst := twice < unit || (twice = unit && below % 2 = 0)
  let order := if belowFirst then [below, below + 1] else [below + 1, below]
  (order.find? (interval.contains · exponent)).map (⟨·, exponent⟩)

/-- The exponent of the largest power of ten that is at most the number. -/
def floorLog10 (interval : RoundingInterval) : Int :=
  let reaches (exponent : Int) : Bool :=
    interval.denominator * Nat.pow 10 exponent.toNat ≤
      interval.middle * Nat.pow 10 (-exponent).toNat
  let binary := Double.floorLog2 interval.middle interval.denominator
  let estimate := Int.fdiv (binary * 30103) 100000
  if reaches (estimate + 1) then estimate + 1
  else if reaches estimate then estimate
  else estimate - 1

end RoundingInterval

namespace Double

/-- Seventeen digits always read back. -/
def mostDigits : Nat := 17

/-- The shortest decimal of a finite number, without trailing zeros. -/
def shortest (number : Double) : Decimal :=
  if number.isZero then
    ⟨0, 0⟩
  else
    let interval := RoundingInterval.ofDouble number
    let top := interval.floorLog10
    let grids := (List.range mostDigits).map fun (count : Nat) => top - (count : Int)
    let found := (grids.findSome? interval.onGrid?).getD ⟨0, 0⟩
    found.trimZeros mostDigits

end Double

end FrenchNim
