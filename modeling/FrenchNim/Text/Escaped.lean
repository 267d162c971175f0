import FrenchNim.Text.CodeTable
import FrenchNim.Text.PrintableTable

namespace FrenchNim

/-!
# Escaped text

User input is quoted in messages so that every character of it is visible:
printable characters stand for themselves and all others are escaped.
-/

namespace Escaped

/-- A character that is shown as itself. The only printable space is the ASCII one. -/
def isPrintable (c : Char) : Bool :=
  c = ' ' || CodeTable.inRanges printableRanges c.toNat

/-- The lower-case hexadecimal digits of a number, filled up with zeros. -/
def hexDigits (count value : Nat) : List Char :=
  let digits := Nat.toDigits 16 value
  List.replicate (count - digits.length) '0' ++ digits

/-- The escaped form of a character that is not printable. -/
def escapeCode (c : Char) : List Char :=
  let code := c.toNat
  if code < 0x80 then
    ['\\', 'x'] ++ hexDigits 2 code
  else if code < 0x10000 then
    ['\\', 'u'] ++ hexDigits 4 code
  else
    ['\\', 'U'] ++ hexDigits 8 code

/-- The characters that stand for one character between quotes. -/
def escape (c : Char) : List Char :=
  match c with
  | '"' => ['\\', '"']
  | '\\' => ['\\', '\\']
  | '\x07' => ['\\', 'a']
  | '\x08' => ['\\', 'b']
  | '\x0c' => ['\\', 'f']
  | '\n' => ['\\', 'n']
  | '\r' => ['\\', 'r']
  | '\t' => ['\\', 't']
  | '\x0b' => ['\\', 'v']
  | other => if isPrintable other then [other] else escapeCode other

/-- A text between double quotes. -/
def quote (text : String) : String :=
  String.ofList ('"' :: text.toList.flatMap escape ++ ['"'])

end Escaped

end FrenchNim
