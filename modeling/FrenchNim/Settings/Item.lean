import FrenchNim.Settings.Scalar
import FrenchNim.Settings.Symbol

namespace FrenchNim

/-!
# Items of a settings file

A scalar before a colon is a key, and a key makes an entry with a scalar that
follows it on its line. Everything else stays a mark or a lone scalar.
-/

/-- The key of an entry. -/
structure Key where
  /-- What the key is. Only texts name settings. -/
  value : Scalar
  /-- How the key is spelled. -/
  text : String
  /-- A colon follows the key. -/
  paired : Bool
  deriving Repr, DecidableEq

/-- The marks that are left beside keys and scalars. -/
inductive Mark where
  | openBrace
  | closeBrace
  | openBracket
  | closeBracket
  | comma
  | dash
  | header
  | footer
  deriving Repr, DecidableEq

/-- What an item is. -/
inductive ItemKind where
  | mark (mark : Mark)
  | scalar (value : Scalar) (text : String)
  | key (key : Key)
  | entry (key : Key) (value : Scalar)
  deriving Repr, DecidableEq

/-- An item and where it stands. -/
structure Item where
  kind : ItemKind
  line : Nat
  column : Nat
  /-- A key of more than one line; such a key is only allowed between braces. -/
  broken : Bool
  /-- A key whose colon stands on a later line than its end. -/
  torn : Bool
  deriving Repr, DecidableEq

namespace Settings

/-- The value of a scalar. -/
def scalarOf (style : ScalarStyle) (text : String) : Scalar :=
  match style with
  | .plain => .ofPlain text
  | _ => .text text

/-- The scalar is a text. -/
def isText : Scalar → Bool
  | .text _ => true
  | _ => false

/-- The item of a symbol that no colon follows. -/
def itemOf? (symbol : Symbol) : Option Item :=
  let kind? : Option ItemKind :=
    match symbol.kind with
    | .openBrace => some (.mark .openBrace)
    | .closeBrace => some (.mark .closeBrace)
    | .openBracket => some (.mark .openBracket)
    | .closeBracket => some (.mark .closeBracket)
    | .comma => some (.mark .comma)
    | .dash => some (.mark .dash)
    | .header => some (.mark .header)
    | .footer => some (.mark .footer)
    | .scalar style text => some (.scalar (scalarOf style text) text)
    | .colon => none
    | .comment => none
  kind?.map fun kind => ⟨kind, symbol.line, symbol.column, false, false⟩

/-- The item of a symbol that a colon follows. -/
def keyOf? (symbol colon : Symbol) : Option Item :=
  match symbol.kind with
  | .scalar .block _ => none
  | .scalar style text =>
      let value := scalarOf style text
      some
        { kind := .key ⟨value, text, true⟩
          line := symbol.line
          column := symbol.column
          broken := isText value && symbol.broken
          torn := style = .plain && isText value && symbol.lastLine ≠ colon.line }
  | _ => none

/-- Find the keys among the symbols. -/
def keyed? : List Symbol → Option (List Item)
  | [] => some []
  | [symbol] => (itemOf? symbol).map fun item => [item]
  | symbol :: next :: rest =>
      if next.kind = .colon then
        match keyOf? symbol next, keyed? rest with
        | some item, some items => some (item :: items)
        | _, _ => none
      else
        match itemOf? symbol, keyed? (next :: rest) with
        | some item, some items => some (item :: items)
        | _, _ => none

/-- Join keys with the scalars behind them on their lines. -/
def paired : List Item → List Item
  | [] => []
  | [item] => [item]
  | item :: next :: rest =>
      match item.kind, next.kind with
      | .key key, .scalar value _ =>
          if item.line = next.line then
            { item with kind := .entry key value } :: paired rest
          else
            item :: paired (next :: rest)
      | _, _ => item :: paired (next :: rest)

/-- The items of a settings file. -/
def items? (symbols : List Symbol) : Option (List Item) :=
  (keyed? symbols).map paired

/-- The item is a key with or without a value. -/
def isKey (item : Item) : Bool :=
  match item.kind with
  | .key _ => true
  | .entry _ _ => true
  | _ => false

/-- The item is the given mark. -/
def isMark (item : Item) (mark : Mark) : Bool :=
  item.kind = .mark mark

/-- The item is a scalar that belongs to no key. -/
def isScalar (item : Item) : Bool :=
  match item.kind with
  | .scalar _ _ => true
  | _ => false

end Settings

end FrenchNim
