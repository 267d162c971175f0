import FrenchNim.Text.Rune

namespace FrenchNim

/-!
# String literals

A text is written as a string literal of the language between double quotes.
Line breaks, tabs, carriage returns, backslashes and double quotes are escaped
and everything else stands for itself.
-/

namespace Quoted

/-- The escaped form of one character. -/
def escape (c : Char) : List Char :=
  match c with
  | '\n' => ['\\', 'n']
  | '\t' => ['\\', 't']
  | '\r' => ['\\', 'r']
  | '\\' => ['\\', '\\']
  | '"' => ['\\', '"']
  | other => [other]

/-- The characters of a literal that denotes the given characters. -/
def encode (text : List Char) : List Char :=
  '"' :: text.flatMap escape ++ ['"']

/-- The literal that denotes the given text. -/
def literal (text : String) : String :=
  String.ofList (encode text.toList)

/-- The escaped form of one rune. A stray byte stands for itself. -/
def escapeRune : Rune → Source
  | .char c => (escape c).map .char
  | .stray byte => [.stray byte]

/-- The literal that denotes a text which may hold stray bytes. -/
def ofSource (text : Source) : Source :=
  .char '"' :: text.flatMap escapeRune ++ [.char '"']

/-- A byte is escaped like the character with its number. -/
def escapeByte (byte : UInt8) : Bytes :=
  (escape (Char.ofNat byte.toNat)).map (UInt8.ofNat ·.toNat)

/-- The bytes of a literal that denotes the given bytes. -/
def ofBytes (bytes : Bytes) : Bytes :=
  0x22 :: bytes.flatMap escapeByte ++ [0x22]

end Quoted

end FrenchNim
