import FrenchNim.Settings.Item
import FrenchNim.Settings.Scan

namespace FrenchNim

/-!
# Settings files

A settings file is one mapping from keys to scalars, either one entry a line or
as a list of entries between braces. Values may also be lists and mappings, but
no setting accepts them. A text that is not of this form has no entries at all.
-/

/-- The value of an entry. -/
inductive SettingValue where
  | scalar (value : Scalar)
  /-- A list or a mapping, which no setting accepts. -/
  | collection
  deriving Repr, DecidableEq

namespace Settings

/-- The entries of a mapping. -/
abbrev Entries := List (Key × SettingValue)

/-- What was read from a row of items. -/
inductive Content where
  | scalar (value : Scalar)
  | mapping (entries : Entries)
  | sequence
  deriving Repr, DecidableEq

/-- The content as the value of an entry. -/
def Content.toValue : Content → SettingValue
  | .scalar value => .scalar value
  | .mapping _ => .collection
  | .sequence => .collection

/-- No key is paired with two values. -/
def keysDiffer : Entries → Bool
  | [] => true
  | (key, _) :: rest =>
      !(key.paired && rest.any fun entry => entry.1.paired && entry.1.text = key.text) &&
        keysDiffer rest

/-- No name occurs twice. -/
def namesDiffer : List String → Bool
  | [] => true
  | name :: rest => !rest.contains name && namesDiffer rest

/-- A key may stand as it is written. -/
def isKeyPlaced (flow : Bool) (item : Item) : Bool :=
  if flow then !item.torn else !item.broken

/-- An item that may follow an entry whose key stands in the given column. -/
def mayFollow (flow : Bool) (column : Nat) : List Item → Bool
  | [] => true
  | next :: _ =>
      next.column ≤ column || (flow && (isMark next .comma || isMark next .closeBracket))

/-- The rest starts with an item that ends an entry between braces. -/
def endsMember : List Item → Bool
  | [] => false
  | next :: _ => isMark next .comma || isMark next .closeBrace

/-- The row goes on with a mapping whose keys stand in the given column. -/
def continuesMapping (flow : Bool) (column : Nat) : List Item → Bool
  | [] => false
  | next :: _ => next.column = column && !(flow && isMark next .closeBracket)

/-- The row starts with no value for a key in the given column. -/
def lacksValue (column : Nat) : List Item → Bool
  | [] => true
  | next :: _ =>
      next.column < column ||
        (next.column = column &&
          (isKey next || isMark next .openBrace || isMark next .closeBrace))

/-- The row starts with an item that must not stand behind a key on its line. -/
def isMisplaced (key : Item) : List Item → Bool
  | [] => false
  | next :: _ =>
      next.line = key.line &&
        (isMark next .dash || (isKey next && next.column ≠ key.column))

/-- The mapping of entries, newest first, with the items behind it. -/
def closeMapping (seen : Entries) (rest : List Item) : Option (Content × List Item) :=
  let entries := seen.reverse
  if keysDiffer entries then some (.mapping entries, rest) else none

/-- The row behind a comma. Only the first member of a row needs none. -/
def behindComma? (first : Bool) : List Item → Option (List Item)
  | [] => none
  | item :: rest =>
      if isMark item .comma then some rest
      else if first then some (item :: rest)
      else none

/-! ## Contents -/

mutual

/-- Read one content. -/
def readContent (fuel : Nat) (flow : Bool) (items : List Item) :
    Option (Content × List Item) :=
  match fuel, items with
  | fuel + 1, item :: rest =>
      match item.kind with
      | .scalar value _ => some (.scalar value, rest)
      | .key _ => readMapping fuel flow [] (item :: rest)
      | .entry _ _ => readMapping fuel flow [] (item :: rest)
      | .mark .openBrace => readMembers fuel true [] rest
      | .mark .openBracket => readElements fuel true rest
      | .mark .dash => readDashes fuel flow item.column (item :: rest)
      | .mark _ => none
  | _, _ => none

/-- Read the entries of a mapping on lines behind those that were read, newest first. -/
def readMapping (fuel : Nat) (flow : Bool) (seen : Entries) (items : List Item) :
    Option (Content × List Item) :=
  match fuel, items with
  | fuel + 1, item :: rest =>
      if !isKeyPlaced flow item then
        none
      else
        match item.kind with
        | .entry key value =>
            if mayFollow flow item.column rest then
              continueMapping fuel flow item.column ((key, .scalar value) :: seen) rest
            else
              none
        | .key key =>
            if isMisplaced item rest then
              none
            else if lacksValue item.column rest then
              continueMapping fuel flow item.column ((key, .scalar .null) :: seen) rest
            else
              match readContent fuel flow rest with
              | none => none
              | some (value, rest) =>
                  continueMapping fuel flow item.column ((key, value.toValue) :: seen) rest
        | _ => none
  | _, _ => none

/-- Read the entries behind one whose key stands in the given column. -/
def continueMapping (fuel : Nat) (flow : Bool) (column : Nat) (seen : Entries)
    (items : List Item) : Option (Content × List Item) :=
  match fuel, items with
  | fuel + 1, next :: rest =>
      if !continuesMapping flow column (next :: rest) then
        closeMapping seen (next :: rest)
      else if isMark next .closeBrace then
        closeMapping seen rest
      else
        readMapping fuel flow seen (next :: rest)
  | _, [] => closeMapping seen []
  | 0, _ => none

/-- Read the members between braces behind those that were read, newest first. -/
def readMembers (fuel : Nat) (first : Bool) (seen : Entries) (items : List Item) :
    Option (Content × List Item) :=
  match fuel, items with
  | fuel + 1, item :: rest =>
      if isMark item .closeBrace then
        closeMapping seen rest
      else
        match behindComma? first (item :: rest) with
        | some (member :: rest) =>
            if isMark member .closeBrace then
              closeMapping seen rest
            else if !isKeyPlaced true member then
              none
            else
              match member.kind with
              | .entry key value => readMembers fuel false ((key, .scalar value) :: seen) rest
              | .key key =>
                  if endsMember rest then
                    readMembers fuel false ((key, .scalar .null) :: seen) rest
                  else
                    match readContent fuel true rest with
                    | none => none
                    | some (value, rest) =>
                        readMembers fuel false ((key, value.toValue) :: seen) rest
              | .scalar value text =>
                  if endsMember rest then
                    readMembers fuel false ((⟨value, text, false⟩, .scalar .null) :: seen) rest
                  else
                    none
              | .mark _ => none
        | _ => none
  | _, _ => none

/-- Read the elements between brackets. -/
def readElements (fuel : Nat) (first : Bool) (items : List Item) :
    Option (Content × List Item) :=
  match fuel, items with
  | fuel + 1, item :: rest =>
      if isMark item .closeBracket then
        some (.sequence, rest)
      else if first && isMark item .comma then
        none
      else
        match behindComma? first (item :: rest) with
        | some (element :: rest) =>
            if isMark element .closeBracket then
              some (.sequence, rest)
            else
              match readContent fuel true (element :: rest) with
              | none => none
              | some (_, rest) => readElements fuel false rest
        | _ => none
  | _, _ => none

/-- Read the elements behind dashes in the given column. -/
def readDashes (fuel : Nat) (flow : Bool) (column : Nat) (items : List Item) :
    Option (Content × List Item) :=
  match fuel, items with
  | fuel + 1, item :: rest =>
      if !(isMark item .dash && item.column = column) then
        some (.sequence, item :: rest)
      else
        match rest with
        | [] => some (.sequence, [])
        | next :: _ =>
            if next.column < column || (next.column = column && isMark next .dash) then
              readDashes fuel flow column rest
            else
              match readContent fuel flow rest with
              | none => none
              | some (_, rest) => readDashes fuel flow column rest
  | _, [] => some (.sequence, [])
  | 0, _ => none

end

/-! ## Documents -/

/-- The finished document before a mark, if it has items. -/
def finished (current : List Item) : List (List Item) :=
  if current.isEmpty then [] else [current.reverse]

/--
Split a file into documents; the items of the current one are given newest first.

A document that is empty behind its header ends the file. Neither a header nor a
footer is followed by something that has no place on its line.
-/
def documents? (current : List Item) : List Item → Option (List (List Item))
  | [] => some (finished current)
  | item :: rest =>
      if isMark item .header then
        match rest with
        | [] => some (finished current)
        | next :: _ =>
            if isMark next .header then
              some (finished current)
            else if next.line = item.line && (isKey next || isMark next .dash) then
              none
            else
              (documents? [] rest).map (finished current ++ ·)
      else if isMark item .footer then
        if (rest.head?.map isScalar).getD false then
          none
        else
          (documents? [] rest).map (finished current ++ ·)
      else
        documents? (item :: current) rest

/-- The content of a document that has no items left behind it. -/
def documentContent? (items : List Item) : Option Content :=
  match readContent (3 * items.length + 3) false items with
  | some (content, []) => some content
  | _ => none

/--
The settings among entries. A key that is no text hides all of them, and no
setting before it may occur twice.
-/
def settings? (entries : Entries) : Option (List (String × SettingValue)) :=
  let named := entries.takeWhile fun entry => isText entry.1.value
  let settings := named.map fun entry => (entry.1.text, entry.2)
  if namesDiffer (settings.map Prod.fst) then
    some (if named.length < entries.length then [] else settings)
  else
    none

/-- The entries of a settings file. Only its first document counts. -/
def read? (text : String) : Option (List (String × SettingValue)) := do
  let items ← items? (← symbols? text)
  let contents ← (← documents? [] items).mapM documentContent?
  match contents with
  | [] => some []
  | .mapping entries :: _ => settings? entries
  | _ => none

end Settings

end FrenchNim
