import FrenchNim.Number.Layout
import FrenchNim.Number.Reading

namespace FrenchNim

/-!
# Scalars of a settings file

The text of an unquoted scalar decides what it is: nothing, a truth value, a
number or a text. Numbers may be written in four bases and with underscores.
-/

/-- The value of a scalar. -/
inductive Scalar where
  | null
  | bool (value : Bool)
  | integer (value : Int)
  | decimal (value : Double)
  | text (value : String)
  deriving Repr, DecidableEq

namespace Scalar

/-- The words that are no plain text. -/
def words : List (String × Scalar) :=
  [("", .null), ("~", .null), ("null", .null), ("Null", .null), ("NULL", .null),
   ("true", .bool true), ("True", .bool true), ("TRUE", .bool true),
   ("false", .bool false), ("False", .bool false), ("FALSE", .bool false),
   (".inf", .decimal (.infinity false)), (".Inf", .decimal (.infinity false)),
   (".INF", .decimal (.infinity false)), ("-.inf", .decimal (.infinity true)),
   ("-.Inf", .decimal (.infinity true)), ("-.INF", .decimal (.infinity true)),
   (".nan", .decimal .nan), (".NaN", .decimal .nan), (".NAN", .decimal .nan)]

/-- The value of a row of digits, if there is one and all of them are digits of the base. -/
def digitsValue? (base : Nat) (digits : List Char) : Option Nat :=
  if digits.isEmpty || digits.any (fun c => (Number.digit? base c).isNone) then
    none
  else
    some (Number.ofDigits base digits)

/-- The base and the digits of an integer without its sign. -/
def baseOf : List Char → Nat × List Char
  | '0' :: 'x' :: digits => (16, digits)
  | '0' :: 'o' :: digits => (8, digits)
  | '0' :: 'b' :: digits => (2, digits)
  | '0' :: digit :: rest => (8, '0' :: digit :: rest)
  | digits => (10, digits)

/-- Drop a character from the start of a text, if it stands there. -/
def dropSign (sign : Char) : List Char → List Char
  | [] => []
  | first :: rest => if first = sign then rest else first :: rest

/-- The integer of an unsigned text, if it has 64 bits. -/
def integer? (negative : Bool) (text : List Char) : Option Scalar :=
  let written := baseOf text
  match digitsValue? written.1 written.2 with
  | none => none
  | some value =>
      if negative then
        if value ≤ 0x8000000000000000 then some (.integer (-value)) else none
      else
        if value < 0x10000000000000000 then some (.integer value) else none

/-- The number of a text with a point, if it is finite. -/
def decimal? (negative : Bool) (text : List Char) : Option Scalar :=
  let signed := if negative then '-' :: text else text
  match Number.read? (String.ofList signed) with
  | none => none
  | some value => if value.isInfinite || value.isNaN then none else some (.decimal value)

/-- The number that a text denotes. -/
def number? (text : List Char) : Option Scalar :=
  let negative := text.head? = some '-'
  let unsigned := (dropSign '-' (dropSign '+' text)).filter (· ≠ '_')
  let points := text.count '.'
  if text.head? = some '_' then
    none
  else if points = 0 then
    integer? negative unsigned
  else if points = 1 ∧ (baseOf unsigned).1 ≠ 16 then
    decimal? negative unsigned
  else
    none

/-- The value of an unquoted scalar. -/
def ofPlain (text : String) : Scalar :=
  match words.lookup text with
  | some value => value
  | none => (number? text.toList).getD (.text text)

/-- Notation with an exponent of at least two digits. -/
def scientificText (decimal : Decimal) : String :=
  let exponent := decimal.point - 1
  let fraction :=
    match decimal.row with
    | first :: second :: rest => first :: '.' :: second :: rest
    | row => row
  let digits := Nat.repr exponent.natAbs
  String.ofList fraction ++ (if exponent < 0 then "e-" else "e+") ++
    (if digits.length < 2 then "0" ++ digits else digits)

/-- The shortest text of a number, with an exponent if it is very small or very large. -/
def numberText (value : Double) : String :=
  let sign := if value.isNegative then "-" else ""
  if value.isNaN then
    "NaN"
  else if value.isInfinite then
    if value.isNegative then "-Inf" else "+Inf"
  else if value.isZero then
    sign ++ "0"
  else
    let decimal := value.shortest
    if -4 < decimal.point ∧ decimal.point ≤ 6 then
      sign ++ decimal.positional
    else
      sign ++ scientificText decimal

/-- The scalar as a text. A scalar that is nothing is the empty text. -/
def toText : Scalar → String
  | null => ""
  | bool value => if value then "true" else "false"
  | integer value => toString value
  | decimal value => numberText value
  | text value => value

/-- The integer part of a finite number. -/
def integerPart (value : Double) : Int :=
  let magnitude :=
    if 0 ≤ value.exponent then
      value.significand * Nat.pow 2 value.exponent.toNat
    else
      value.significand / Nat.pow 2 (-value.exponent).toNat
  if value.isNegative then -(magnitude : Int) else magnitude

/-- The largest integer of a setting. -/
def largestInteger : Int := 0x7FFFFFFFFFFFFFFF

/-- The smallest integer of a setting. It also stands for every integer that is out of range. -/
def smallestInteger : Int := -largestInteger - 1

/-- An integer of 64 bits. -/
def toWord (whole : Int) : Int :=
  if smallestInteger ≤ whole ∧ whole ≤ largestInteger then whole else smallestInteger

/-- The integer of a number that is not too large. -/
def ofDecimal? (value : Double) : Option Int :=
  if value.isNaN then
    none
  else if value.isInfinite then
    if value.isNegative then some smallestInteger else none
  else
    let whole := integerPart value
    if whole ≤ largestInteger + 1 then some (toWord whole) else none

/-- The integer of a quoted number, which must be neither negative nor too large. -/
def ofText? (value : String) : Option Int :=
  match Number.read? value with
  | none => none
  | some number =>
      if number.isNaN || number.isInfinite then
        none
      else if number.isNegative && !number.isZero then
        none
      else
        let whole := integerPart number
        if whole ≤ 2 * (largestInteger + 1) then some (toWord whole) else none

/-- The scalar as an integer; `none` inside if it is nothing. -/
def toInteger? : Scalar → Option (Option Int)
  | null => some none
  | integer value => if value ≤ largestInteger then some (some value) else none
  | decimal value => (ofDecimal? value).map some
  | text value => (ofText? value).map some
  | bool _ => none

/-- The scalar as a truth value; `none` inside if it is nothing. -/
def toBool? : Scalar → Option (Option Bool)
  | null => some none
  | bool value => some (some value)
  | _ => none

end Scalar

end FrenchNim
