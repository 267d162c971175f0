import FrenchNim.Json.Value

namespace FrenchNim

/-!
# Indented JSON

Every member and every item stands on a line of its own, indented by two spaces
per level. An array that holds no object is written on one line if that line
stays within eighty columns, counted in bytes.
-/

namespace Json

/-- The number of columns a line may fill. -/
def lineWidth : Nat := 80

mutual

/-- The text of a value on one line. There is none if it holds an object. -/
def inline? : Json → Option String
  | array items => (inlineItems? items).map fun texts => "[" ++ String.intercalate ", " texts ++ "]"
  | object _ => none
  | null => some "null"
  | bool value => some (compact (bool value))
  | integer value => some (compact (integer value))
  | number value => some (compact (number value))
  | string value => some (compact (string value))

/-- The texts of items on one line. -/
def inlineItems? : List Json → Option (List String)
  | [] => some []
  | first :: rest =>
      match inline? first, inlineItems? rest with
      | some text, some texts => some (text :: texts)
      | _, _ => none

end

/-- A line break and the indentation of a level. -/
def lineBreak (level : Nat) : String :=
  "\n" ++ String.ofList (List.replicate (2 * level) ' ')

/-- An array that starts behind `column` bytes of a line, if it fits there on one line. -/
def fitting? (column : Nat) (items : List Json) : Option String :=
  match inline? (array items) with
  | some text => if text.utf8ByteSize + column < lineWidth then some text else none
  | none => none

mutual

/-- The indented text of a value at a level, behind `column` bytes of its line. -/
def prettyAt (level column : Nat) : Json → String
  | array items =>
      match fitting? column items with
      | some text => text
      | none =>
          if items.isEmpty then
            "[]"
          else
            "[" ++ String.intercalate "," (prettyItems (level + 1) items) ++ lineBreak level ++ "]"
  | object members =>
      if members.isEmpty then
        "\x7b\x7d"
      else
        "\x7b" ++ String.intercalate "," (prettyMembers (level + 1) members) ++ lineBreak level ++
          "\x7d"
  | null => "null"
  | bool value => compact (bool value)
  | integer value => compact (integer value)
  | number value => compact (number value)
  | string value => compact (string value)

/-- The indented texts of items. -/
def prettyItems (level : Nat) : List Json → List String
  | [] => []
  | first :: rest =>
      (lineBreak level ++ prettyAt level (2 * level) first) :: prettyItems level rest

/-- The indented texts of members. -/
def prettyMembers (level : Nat) : List (String × Json) → List String
  | [] => []
  | (key, value) :: rest =>
      let label := quote key ++ ": "
      (lineBreak level ++ label ++ prettyAt level (2 * level + label.utf8ByteSize) value) ::
        prettyMembers level rest

end

/-- The indented text of a value, with a final line break. -/
def pretty (value : Json) : String :=
  prettyAt 0 0 value ++ "\n"

end Json

end FrenchNim
