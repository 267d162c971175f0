import FrenchNim.Number.Double
import FrenchNim.Text.Escaped

namespace FrenchNim

/-!
# Durations

A duration is a number of nanoseconds. It is written as a sum of numbers with
units, such as `1h2m3.5s`.
-/

/-- A length of time. -/
structure Duration where
  nanoseconds : Int
  deriving Repr, DecidableEq, Inhabited

/-- Why a text is no duration. -/
inductive DurationFault where
  | malformed
  | missingUnit
  | unknownUnit (unit : String)
  deriving Repr, DecidableEq

namespace Duration

/-- The number of nanoseconds of a second. -/
def second : Nat := 1000000000

/-- The number of nanoseconds of a millisecond. -/
def millisecond : Nat := 1000000

/-- The number of nanoseconds of a microsecond. -/
def microsecond : Nat := 1000

/-- The number of nanoseconds of a minute. -/
def minute : Nat := 60 * second

/-- The number of nanoseconds of an hour. -/
def hour : Nat := 60 * minute

/-- The units by name. Both micro signs are understood. -/
def units : List (String × Nat) :=
  [("ns", 1), ("us", microsecond), ("\u00b5s", microsecond), ("\u03bcs", microsecond),
   ("ms", millisecond), ("s", second), ("m", minute), ("h", hour)]

/-- The largest magnitude of a duration. -/
def largest : Nat := 0x8000000000000000

/-- The sum of two magnitudes of 64 bits. It is zero again behind the largest one twice. -/
def addMagnitudes (total value : Nat) : Nat :=
  (total + value) % 0x10000000000000000

/-! ## Reading -/

/-- A character that ends the name of a unit. -/
def startsNumber (c : Char) : Bool :=
  c = '.' || c.isDigit

/-- Append a digit to the fraction and its scale, unless the fraction is already too long. -/
def appendFraction (fraction : Nat × Nat × Bool) (digit : Char) : Nat × Nat × Bool :=
  let value := fraction.1
  let scale := fraction.2.1
  let next := value * 10 + (digit.toNat - '0'.toNat)
  if fraction.2.2 || (largest - 1) / 10 < value || largest < next then
    (value, scale, true)
  else
    (next, scale * 10, false)

/-- The value of a row of digits. -/
def wholeValue (digits : List Char) : Nat :=
  digits.foldl (fun value digit => value * 10 + (digit.toNat - '0'.toNat)) 0

/-- The nanoseconds of a fraction of a unit, computed in double precision and cut off. -/
def fractionValue (digits : List Char) (unit : Nat) : Nat :=
  let fraction := digits.foldl appendFraction (0, 1, false)
  let step := Double.ofRatio false unit fraction.2.1
  let count := Double.ofRatio false fraction.1 1
  let product := Double.ofScaled false (count.significand * step.significand) 2
    (count.exponent + step.exponent)
  if 0 ≤ product.exponent then
    product.significand * Nat.pow 2 product.exponent.toNat
  else
    product.significand / Nat.pow 2 (-product.exponent).toNat

/-- The digits before the point, the digits behind it, and what follows. -/
def splitNumber (text : List Char) : List Char × List Char × List Char :=
  let whole := text.takeWhile Char.isDigit
  match text.dropWhile Char.isDigit with
  | '.' :: rest => (whole, rest.takeWhile Char.isDigit, rest.dropWhile Char.isDigit)
  | rest => (whole, [], rest)

/-- Nothing is longer than the text it was split from. -/
theorem length_splitNumber_le (text : List Char) :
    (splitNumber text).2.2.length ≤ text.length := by
  have shorter := (List.dropWhile_suffix (l := text) Char.isDigit).length_le
  unfold splitNumber
  simp only
  split
  next rest split =>
      have shorterRest := (List.dropWhile_suffix (l := rest) Char.isDigit).length_le
      rw [split] at shorter
      simp only [List.length_cons] at shorter
      exact Nat.le_trans shorterRest (by omega)
  next =>
      exact shorter

/-- The nanoseconds of a number with a unit, if they are not too many. -/
def termValue? (whole fraction : List Char) (unit : Nat) : Option Nat :=
  let value := wholeValue whole
  if largest < value || largest / unit < value then
    none
  else
    let total := value * unit + fractionValue fraction unit
    if largest < total then none else some total

/-- Add the terms of a text to the nanoseconds so far. -/
def sumTerms (total : Nat) (text : List Char) : Except DurationFault Nat :=
  match text with
  | [] => .ok total
  | first :: behind =>
      let number := splitNumber (first :: behind)
      let unit := number.2.2.takeWhile (!startsNumber ·)
      let rest := number.2.2.dropWhile (!startsNumber ·)
      if number.1.isEmpty && number.2.1.isEmpty || largest < wholeValue number.1 then
        .error .malformed
      else if _named : unit.isEmpty then
        .error .missingUnit
      else
        match units.lookup (String.ofList unit) with
        | none => .error (.unknownUnit (String.ofList unit))
        | some size =>
            match termValue? number.1 number.2.1 size with
            | none => .error .malformed
            | some value =>
                let sum := addMagnitudes total value
                if largest < sum then .error .malformed else sumTerms sum rest
  termination_by text.length
  decreasing_by
    have bound := length_splitNumber_le (first :: behind)
    have parts := congrArg List.length
      (List.takeWhile_append_dropWhile
        (p := fun c => !startsNumber c) (l := (splitNumber (first :: behind)).2.2))
    simp only [List.length_append] at parts
    simp only [List.isEmpty_iff, ← List.length_eq_zero_iff] at _named
    simp only [number, unit] at *
    omega

/-- Split a leading sign off. -/
def splitSign : List Char → Bool × List Char
  | '-' :: rest => (true, rest)
  | '+' :: rest => (false, rest)
  | rest => (false, rest)

/-- The duration that a text denotes. -/
def read (text : String) : Except DurationFault Duration := do
  let signed := splitSign text.toList
  if signed.2 = ['0'] then
    return ⟨0⟩
  else if signed.2.isEmpty then
    throw .malformed
  else
    let total ← sumTerms 0 signed.2
    if signed.1 then
      return ⟨-total⟩
    else if total = largest then
      throw .malformed
    else
      return ⟨total⟩

/-! ## Writing -/

/-- The digits of a fraction without zeros at the end, behind a point if there are any. -/
def fractionText (places value : Nat) : String :=
  let digits := Nat.toDigits 10 value
  let padded := List.replicate (places - digits.length) '0' ++ digits
  let significant := (padded.reverse.dropWhile (· = '0')).reverse
  if significant.isEmpty then "" else String.ofList ('.' :: significant)

/-- A number of nanoseconds in a unit of which it is at most a thousand. -/
def inUnit (places unit nanoseconds : Nat) : String :=
  Nat.repr (nanoseconds / unit) ++ fractionText places (nanoseconds % unit)

/-- The text of a number of nanoseconds. -/
def magnitudeText (nanoseconds : Nat) : String :=
  if nanoseconds = 0 then
    "0s"
  else if nanoseconds < microsecond then
    Nat.repr nanoseconds ++ "ns"
  else if nanoseconds < millisecond then
    inUnit 3 microsecond nanoseconds ++ "\u00b5s"
  else if nanoseconds < second then
    inUnit 6 millisecond nanoseconds ++ "ms"
  else
    let hours := nanoseconds / hour
    let minutes := nanoseconds / minute % 60
    let seconds := inUnit 9 second (nanoseconds % minute) ++ "s"
    if hours ≠ 0 then
      Nat.repr hours ++ "h" ++ Nat.repr minutes ++ "m" ++ seconds
    else if minutes ≠ 0 then
      Nat.repr minutes ++ "m" ++ seconds
    else
      seconds

/-- The text of a duration. -/
def text (duration : Duration) : String :=
  if duration.nanoseconds < 0 then
    "-" ++ magnitudeText duration.nanoseconds.natAbs
  else
    magnitudeText duration.nanoseconds.natAbs

end Duration

namespace DurationFault

/-- The bytes of a character as escapes. -/
def escapeBytes (c : Char) : List Char :=
  (String.utf8EncodeChar c).flatMap fun byte =>
    ['\\', 'x'] ++ Escaped.hexDigits 2 byte.toNat

/-- The characters that stand for one character of a quoted duration. -/
def escape (c : Char) : List Char :=
  if c = '"' ∨ c = '\\' then
    ['\\', c]
  else if c.toNat < 0x20 ∨ 0x80 ≤ c.toNat then
    escapeBytes c
  else
    [c]

/-- A part of a duration between double quotes. -/
def quote (text : String) : String :=
  String.ofList ('"' :: text.toList.flatMap escape ++ ['"'])

/-- What is wrong with a text. -/
def message (text : String) : DurationFault → String
  | malformed => "time: invalid duration " ++ quote text
  | missingUnit => "time: missing unit in duration " ++ quote text
  | unknownUnit unit => "time: unknown unit " ++ quote unit ++ " in duration " ++ quote text

end DurationFault

end FrenchNim
