import FrenchNim.Number.Double

namespace FrenchNim

/-!
# Reading numbers

A number literal of the language is a run of digits with an optional fraction.
Token lists made by hand may hold any text in a number token, so the reader
accepts the full notation for floating-point numbers: a sign, a decimal or
hexadecimal significand, an exponent, underscores between digits, and the names
of the special values.
-/

namespace Number

/-- The value of a digit in a base of at most sixteen. -/
def digit? (base : Nat) (c : Char) : Option Nat :=
  let value? :=
    if '0' ≤ c ∧ c ≤ '9' then some (c.toNat - '0'.toNat)
    else if 'a' ≤ c ∧ c ≤ 'f' then some (c.toNat - 'a'.toNat + 10)
    else if 'A' ≤ c ∧ c ≤ 'F' then some (c.toNat - 'A'.toNat + 10)
    else none
  value?.filter (· < base)

/-- A digit, or an underscore between digits. -/
def isDigitOrUnderscore (base : Nat) (c : Char) : Bool :=
  c = '_' || (digit? base c).isSome

/-- The number a row of digits denotes. Underscores do not count. -/
def ofDigits (base : Nat) (digits : List Char) : Nat :=
  digits.foldl (fun value c => (digit? base c).elim value (value * base + ·)) 0

/-- The number of digits in a row. -/
def countDigits (base : Nat) (digits : List Char) : Nat :=
  digits.countP fun c => (digit? base c).isSome

/-- What the last character was, while underscores are checked. -/
inductive Underscoring where
  | start
  | digit
  | underscore
  | other
  deriving DecidableEq

/-- Underscores stand only between digits; a base mark counts as a digit. -/
def underscoresFit (hexadecimal : Bool) : Underscoring → List Char → Bool
  | last, [] => last ≠ .underscore
  | last, c :: rest =>
      if (digit? (if hexadecimal then 16 else 10) c).isSome then
        underscoresFit hexadecimal .digit rest
      else if c = '_' then
        last = .digit && underscoresFit hexadecimal .underscore rest
      else
        last ≠ .underscore && underscoresFit hexadecimal .other rest

/-- Split a sign off a text. The first component tells a minus. -/
def splitSign : List Char → Bool × List Char
  | '-' :: rest => (true, rest)
  | '+' :: rest => (false, rest)
  | text => (false, text)

/-- The exponents of a literal grow no further once they pass this bound. -/
def exponentBound : Nat := 10000

/-- The value of an exponent's digits, held at its first value above the bound. -/
def cappedExponent (digits : List Char) : Nat :=
  digits.foldl
    (fun value c =>
      (digit? 10 c).elim value fun d => if value < exponentBound then value * 10 + d else value)
    0

/-- Read the exponent at the end of a literal. -/
def exponent? (mark : Char) : List Char → Option (Option Int)
  | [] => some none
  | c :: rest =>
      if c.toLower ≠ mark then
        none
      else
        let (negative, digits) := splitSign rest
        match digits with
        | [] => none
        | first :: _ =>
            if first.isDigit && digits.all (isDigitOrUnderscore 10) then
              let value : Int := cappedExponent digits
              some (some (if negative then -value else value))
            else
              none

/-- Read an unsigned number in the given base. -/
def unsigned? (hexadecimal negative : Bool) (text : List Char) : Option Double :=
  let base := if hexadecimal then 16 else 10
  let whole := text.takeWhile (isDigitOrUnderscore base)
  let behindWhole := text.dropWhile (isDigitOrUnderscore base)
  let (fraction, behind) :=
    match behindWhole with
    | '.' :: rest =>
        (rest.takeWhile (isDigitOrUnderscore base), rest.dropWhile (isDigitOrUnderscore base))
    | rest => ([], rest)
  if countDigits base (whole ++ fraction) = 0 then
    none
  else
    let mantissa := ofDigits base (whole ++ fraction)
    let places : Int := countDigits base fraction
    match exponent? (if hexadecimal then 'p' else 'e') behind with
    | none => none
    | some none =>
        if hexadecimal then none else some (.ofScaled negative mantissa 10 (-places))
    | some (some exponent) =>
        if hexadecimal then
          some (.ofScaled negative mantissa 2 (exponent - 4 * places))
        else
          some (.ofScaled negative mantissa 10 (exponent - places))

/-- Read the name of a special value. -/
def special? (text : List Char) : Option Double :=
  let (negative, name) := splitSign text
  let name := name.map Char.toLower
  if name = "inf".toList ∨ name = "infinity".toList then
    some (.infinity negative)
  else if text.map Char.toLower = "nan".toList then
    some .nan
  else
    none

/-- Read a number in full notation. -/
def read? (literal : String) : Option Double :=
  let text := literal.toList
  match special? text with
  | some value => some value
  | none =>
      let (negative, body) := splitSign text
      match body with
      | '0' :: mark :: digit :: rest =>
          if mark = 'x' ∨ mark = 'X' then
            if underscoresFit true .digit (digit :: rest) then
              unsigned? true negative (digit :: rest)
            else
              none
          else if underscoresFit false .start body then
            unsigned? false negative body
          else
            none
      | _ =>
          if underscoresFit false .start body then unsigned? false negative body else none

/-- The value of a number token. A text that is no number counts as zero. -/
def ofLiteral (literal : String) : Double :=
  (read? literal).getD .zero

end Number

end FrenchNim
