import FrenchNim.Settings.Symbol

namespace FrenchNim.Settings

/-!
# Escapes in quoted texts

Behind a backslash stands a letter for one character, or a letter and the number
of a character in two, four or eight digits. The digits are not checked: every
character counts by its distance from the digit zero. Where the file ends too
early for two digits, the letter stands for itself.
-/

/-- The characters of escapes without a number. -/
def escapes : List (Char × Char) :=
  [('0', '\x00'), ('a', '\x07'), ('b', '\x08'), ('t', '\t'), ('\t', '\t'), ('n', '\n'),
   ('v', '\x0b'), ('f', '\x0c'), ('r', '\r'), ('e', '\x1b'), (' ', ' '), ('"', '"'), ('/', '/'),
   ('\\', '\\'), ('N', '\u0085'), ('_', '\u00a0'), ('L', '\u2028'), ('P', '\u2029')]

/-- The number of digits behind the letter of an escape by number. -/
def escapeDigits? : Char → Option Nat
  | 'x' => some 2
  | 'u' => some 4
  | 'U' => some 8
  | _ => none

/-- The value of a digit. -/
def digitValue (c : Char) : Int :=
  if 'A' ≤ c ∧ c ≤ 'F' then
    c.toNat - 'A'.toNat + 10
  else if 'a' ≤ c ∧ c ≤ 'f' then
    c.toNat - 'a'.toNat + 10
  else
    (c.toNat : Int) - '0'.toNat

/-- The value of a row of digits. -/
def digitsValue (digits : List Char) : Int :=
  digits.foldl (fun value c => value * 16 + digitValue c) 0

/-- The character of a number of 32 bits, or the one that stands for no character. -/
def characterOf (number : Int) : Char :=
  let code := (number % 0x100000000).toNat
  if code.isValidChar then Char.ofNat code else '\uFFFD'

/-- The first half of a number in two halves. -/
def isHighHalf (number : Int) : Bool :=
  0xD800 ≤ number && number ≤ 0xDBFF

/-- The second half of a number in two halves. -/
def isLowHalf (number : Int) : Bool :=
  0xDC00 ≤ number && number ≤ 0xDFFF

/-- The number of two halves. -/
def joinHalves (high low : Int) : Int :=
  (high - 0xD800) * 0x400 + (low - 0xDC00) + 0x10000

/-- The character of an escape by number, and how many characters behind the letter it takes. -/
def numberEscape? (letter : Char) (digits : Nat) (text : List Char) : Option (Char × Nat) :=
  let number := digitsValue (text.take digits)
  if text.length < digits then
    if letter = 'x' then some (letter, 0) else none
  else if letter = 'u' && isHighHalf number then
    match text.drop digits with
    | '\\' :: 'u' :: more =>
        let low := digitsValue (more.take digits)
        if more.length < digits || !isLowHalf low then
          none
        else
          some (characterOf (joinHalves number low), 2 * digits + 2)
    | _ => none
  else
    some (characterOf number, digits)

/--
The character of the escape at the start of a text, and how many characters it
takes. The text stands behind the backslash.
-/
def escape? : List Char → Option (Char × Nat)
  | [] => none
  | letter :: rest =>
      match escapeDigits? letter with
      | some digits => (numberEscape? letter digits rest).map fun found => (found.1, found.2 + 1)
      | none => (escapes.lookup letter).map fun character => (character, 1)

end FrenchNim.Settings
