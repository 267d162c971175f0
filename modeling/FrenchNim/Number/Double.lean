namespace FrenchNim

/-!
# Double-precision numbers

A number of the language is a binary64 value. It is kept as its bit pattern, so
that two numbers are equal exactly when they are the same number, and all
arithmetic on it is exact arithmetic on natural numbers.
-/

/-- A binary64 number, given by its bit pattern. -/
structure Double where
  bits : UInt64
  deriving Repr, DecidableEq, Inhabited

/-- The integer nearest to a quotient. A tie goes to the even neighbour. -/
def roundHalfEven (numerator denominator : Nat) : Nat :=
  let quotient := numerator / denominator
  let twice := 2 * (numerator % denominator)
  if denominator < twice || (twice = denominator && quotient % 2 = 1) then
    quotient + 1
  else
    quotient

namespace Double

/-- The number of fraction bits. -/
def fractionBits : Nat := 52

/-- The exponent of the last fraction bit of the smallest numbers. -/
def leastExponent : Int := -1074

/-- The bit that holds the sign. -/
def signBit : Nat := 0x8000000000000000

/-- The magnitude bits of infinity. -/
def infinityBits : Nat := 0x7FF * Nat.pow 2 fractionBits

/-- The number with the given sign and magnitude bits. -/
def ofMagnitude (negative : Bool) (magnitude : Nat) : Double :=
  ⟨UInt64.ofNat ((if negative then signBit else 0) + magnitude)⟩

/-- The number zero. -/
def zero : Double := ⟨0⟩

/-- The infinity of the given sign. -/
def infinity (negative : Bool) : Double :=
  ofMagnitude negative infinityBits

/-- The value that is not a number. -/
def nan : Double := ⟨0x7FF8000000000001⟩

/-- The sign bit is set. -/
def isNegative (number : Double) : Bool :=
  signBit ≤ number.bits.toNat

/-- The bits below the sign. -/
def magnitude (number : Double) : Nat :=
  number.bits.toNat % signBit

/-- One of the two infinities. -/
def isInfinite (number : Double) : Bool :=
  number.magnitude = infinityBits

/-- Not a number. -/
def isNaN (number : Double) : Bool :=
  infinityBits < number.magnitude

/-- One of the two zeros. -/
def isZero (number : Double) : Bool :=
  number.magnitude = 0

/-- The exponent field. -/
def exponentField (number : Double) : Nat :=
  number.magnitude / Nat.pow 2 fractionBits

/-- The integer `m` of a finite magnitude `m * 2 ^ e`. -/
def significand (number : Double) : Nat :=
  let fraction := number.magnitude % Nat.pow 2 fractionBits
  if number.exponentField = 0 then fraction else Nat.pow 2 fractionBits + fraction

/-- The integer `e` of a finite magnitude `m * 2 ^ e`. -/
def exponent (number : Double) : Int :=
  if number.exponentField = 0 then leastExponent else number.exponentField - 1075

/-- The exponent of the largest power of two that is at most the given positive quotient. -/
def floorLog2 (numerator denominator : Nat) : Int :=
  let estimate : Int := (Nat.log2 numerator : Int) - (Nat.log2 denominator : Int)
  let reaches :=
    if 0 ≤ estimate then
      denominator * Nat.pow 2 estimate.toNat ≤ numerator
    else
      denominator ≤ numerator * Nat.pow 2 (-estimate).toNat
  if reaches then estimate else estimate - 1

/--
The number nearest to a quotient, ties to even.

The significand is rounded at the exponent that leaves 53 bits, or at the least
exponent. A significand that rounds up to the next power of two carries into
the exponent field by itself.
-/
def ofRatio (negative : Bool) (numerator denominator : Nat) : Double :=
  if numerator = 0 then
    ofMagnitude negative 0
  else
    let exponent := max (floorLog2 numerator denominator - fractionBits) leastExponent
    let significand :=
      if 0 ≤ exponent then
        roundHalfEven numerator (denominator * Nat.pow 2 exponent.toNat)
      else
        roundHalfEven (numerator * Nat.pow 2 (-exponent).toNat) denominator
    let magnitude := (exponent - leastExponent).toNat * Nat.pow 2 fractionBits + significand
    ofMagnitude negative (min magnitude infinityBits)

/-- The number nearest to `mantissa * base ^ exponent`. -/
def ofScaled (negative : Bool) (mantissa base : Nat) (exponent : Int) : Double :=
  if 0 ≤ exponent then
    ofRatio negative (mantissa * Nat.pow base exponent.toNat) 1
  else
    ofRatio negative mantissa (Nat.pow base (-exponent).toNat)

end Double

end FrenchNim
