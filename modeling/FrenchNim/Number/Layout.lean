import FrenchNim.Number.Shortest

namespace FrenchNim

/-!
# Writing numbers

Numbers are written positionally from one millionth up to, but not including,
10 to the power 21, and with an exponent outside this range. The texts of the
special values belong to the format that writes the number.
-/

/-- The texts a format has for numbers without shortest digits. -/
structure NumberStyle where
  zero : String
  negativeZero : String
  infinity : String
  negativeInfinity : String
  nan : String
  deriving Repr

namespace Decimal

/-- The row of digits. -/
def row (decimal : Decimal) : List Char :=
  Nat.toDigits 10 decimal.digits

/-- The place of the decimal point, counted from the left of the digits. -/
def point (decimal : Decimal) : Int :=
  decimal.row.length + decimal.exponent

/-- Positional notation. -/
def positional (decimal : Decimal) : String :=
  let row := decimal.row
  let point := decimal.point
  if point ≤ 0 then
    String.ofList ("0.".toList ++ List.replicate (-point).toNat '0' ++ row)
  else if row.length ≤ point.toNat then
    String.ofList (row ++ List.replicate (point.toNat - row.length) '0')
  else
    String.ofList (row.take point.toNat ++ '.' :: row.drop point.toNat)

/-- Notation with an exponent, one digit before the point. -/
def scientific (decimal : Decimal) : String :=
  let exponent := decimal.point - 1
  let fraction :=
    match decimal.row with
    | first :: second :: rest => first :: '.' :: second :: rest
    | row => row
  let sign := if exponent < 0 then "-" else "+"
  String.ofList fraction ++ "e" ++ sign ++ Nat.repr exponent.natAbs

/-- The notation the magnitude calls for. -/
def text (decimal : Decimal) : String :=
  if -6 < decimal.point ∧ decimal.point ≤ 21 then decimal.positional else decimal.scientific

end Decimal

namespace Double

/-- The text of a number in a format. -/
def text (style : NumberStyle) (number : Double) : String :=
  if number.isNaN then
    style.nan
  else if number.isInfinite then
    if number.isNegative then style.negativeInfinity else style.infinity
  else if number.isZero then
    if number.isNegative then style.negativeZero else style.zero
  else if number.isNegative then
    "-" ++ number.shortest.text
  else
    number.shortest.text

end Double

end FrenchNim
