namespace FrenchNim

/-!
# Symbols of a settings file

A settings file is cut into symbols: marks of its layout, comments and scalars.
Every symbol knows where it stands, because lines and columns decide what
belongs together.
-/

/-- How a scalar is written. -/
inductive ScalarStyle where
  /-- Without quotes, so that the text decides what it is. -/
  | plain
  | quoted
  /-- As indented lines of text. -/
  | block
  deriving Repr, DecidableEq

/-- What a symbol is. -/
inductive SymbolKind where
  | openBrace
  | closeBrace
  | openBracket
  | closeBracket
  | comma
  | colon
  | dash
  /-- The mark before a document. -/
  | header
  /-- The mark behind a document. -/
  | footer
  | comment
  | scalar (style : ScalarStyle) (text : String)
  deriving Repr, DecidableEq

/-- A symbol and where it stands; lines and columns are counted from one. -/
structure Symbol where
  kind : SymbolKind
  line : Nat
  column : Nat
  /-- There is a line break in the source of the symbol. -/
  broken : Bool
  /-- The line on which the text of the symbol ends. -/
  lastLine : Nat
  deriving Repr, DecidableEq

namespace Settings

/-- A blank inside a line. -/
def isBlank (c : Char) : Bool :=
  c = ' ' || c = '\t'

/-- The end of a line. -/
def isLineEnd (c : Char) : Bool :=
  c = '\n' || c = '\r'

/-- A blank or the end of a line. -/
def isSpace (c : Char) : Bool :=
  isBlank c || isLineEnd c

/-- The text starts with a space, or there is none. -/
def startsWithSpace (text : List Char) : Bool :=
  (text.head?.map isSpace).getD true

/-- The text starts with exactly so many of a character. -/
def startsWithRun (c : Char) (count : Nat) (text : List Char) : Bool :=
  (text.takeWhile (· = c)).length = count

/-- The text starts with a word that separates documents. -/
def startsWithMarker (text : List Char) : Bool :=
  let word := text.takeWhile (!isSpace ·)
  word = ['-', '-', '-'] || word = ['.', '.', '.']

/-- The number of line breaks of a text; a carriage return and a line feed make one. -/
def countLineBreaks : List Char → Nat
  | [] => 0
  | '\r' :: '\n' :: rest => countLineBreaks rest + 1
  | c :: rest => if isLineEnd c then countLineBreaks rest + 1 else countLineBreaks rest

end Settings

end FrenchNim
