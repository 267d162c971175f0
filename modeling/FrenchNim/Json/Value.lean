import FrenchNim.Number.Layout

namespace FrenchNim

/-!
# JSON values

The members of an object keep their order. Numbers are integers or doubles; a
double that is infinite or not a number has no JSON text.
-/

/-- A JSON value. -/
inductive Json where
  | null
  | bool (value : Bool)
  | integer (value : Int)
  | number (value : Double)
  | string (value : String)
  | array (items : List Json)
  | object (members : List (String × Json))
  deriving Repr

namespace Json

/-- The array of the items, or null if there are none. -/
def arrayOrNull (items : List Json) : Json :=
  if items.isEmpty then null else array items

/-- The texts of numbers. Zero keeps its sign. -/
def numberStyle : NumberStyle :=
  { zero := "0"
    negativeZero := "-0"
    infinity := "+Inf"
    negativeInfinity := "-Inf"
    nan := "NaN" }

/-- A hexadecimal digit. -/
def hexDigit (value : Nat) : Char :=
  (Nat.toDigits 16 (value % 16)).headD '0'

/-- An escape by code point. -/
def unicodeEscape (c : Char) : List Char :=
  let code := c.toNat
  ['\\', 'u', hexDigit (code / 0x1000), hexDigit (code / 0x100), hexDigit (code / 0x10),
    hexDigit code]

/--
The characters that stand for one character inside a string.

Besides what JSON requires, the characters that mean something to HTML and the
two Unicode line separators are escaped.
-/
def escape (c : Char) : List Char :=
  match c with
  | '"' => ['\\', '"']
  | '\\' => ['\\', '\\']
  | '\n' => ['\\', 'n']
  | '\r' => ['\\', 'r']
  | '\t' => ['\\', 't']
  | '\x08' => ['\\', 'b']
  | '\x0c' => ['\\', 'f']
  | '<' | '>' | '&' | '\u2028' | '\u2029' => unicodeEscape c
  | other => if other.toNat < 0x20 then unicodeEscape other else [other]

/-- The text of a string. -/
def quote (value : String) : String :=
  String.ofList ('"' :: value.toList.flatMap escape ++ ['"'])

mutual

/-- The text of a value without any white space. -/
def compact : Json → String
  | null => "null"
  | bool value => if value then "true" else "false"
  | integer value => toString value
  | number value => value.text numberStyle
  | string value => quote value
  | array items => "[" ++ String.intercalate "," (compactItems items) ++ "]"
  | object members => "\x7b" ++ String.intercalate "," (compactMembers members) ++ "\x7d"

/-- The texts of items. -/
def compactItems : List Json → List String
  | [] => []
  | first :: rest => compact first :: compactItems rest

/-- The texts of members. -/
def compactMembers : List (String × Json) → List String
  | [] => []
  | (key, value) :: rest => (quote key ++ ":" ++ compact value) :: compactMembers rest

end

end Json

end FrenchNim
