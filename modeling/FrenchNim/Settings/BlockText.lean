import FrenchNim.Settings.Scalar
import FrenchNim.Settings.Symbol

namespace FrenchNim.Settings

/-!
# Texts of indented lines

A text may stand below its key as indented lines. A header says whether line
breaks are kept or folded, and what becomes of those at the end. An unquoted
text turns into such a text, with folded lines, where a line that continues it
starts with a dash.
-/

/-- What becomes of line breaks inside a text. -/
inductive BlockStyle where
  | literal
  | folded
  /-- An unquoted text with a line that starts with a dash. -/
  | dashed
  deriving Repr, DecidableEq

/-- What becomes of line breaks at the end of a text. -/
inductive Chomping where
  /-- One is kept. -/
  | clip
  /-- None is kept. -/
  | strip
  /-- All are kept. -/
  | keep
  deriving Repr, DecidableEq

/-- The part of an indented text that was read. Columns are zero while they are unknown. -/
structure Block where
  style : BlockStyle
  chomping : Chomping
  /-- The header says how far the text is indented. -/
  measured : Bool
  /-- The column of the text. -/
  first : Nat
  /-- The column of the text on the line before. -/
  previous : Nat
  /-- The column of the text on this line. -/
  current : Nat
  /-- The last column of the last line of blanks above the text. -/
  blanks : Nat
  /-- The line break before this line may be folded. -/
  folding : Bool
  deriving Repr, DecidableEq

namespace Block

/-- Note the column of a character. -/
def noteColumn (block : Block) (column : Nat) : Block :=
  { block with
    first := if block.first = 0 then column else block.first
    current := if block.current = 0 then column else block.current }

/-- Note the column behind a line of blanks. -/
def noteBlanks (block : Block) (column : Nat) : Block :=
  if block.first = 0 then { block with blanks := column } else block

/-- Go to the next line. -/
def nextLine (block : Block) : Block :=
  { block with previous := block.current, current := 0, folding := true }

/-- The column belongs to the indentation. -/
def isIndentation (block : Block) (column : Nat) : Bool :=
  if block.first = 0 then column = 1 else column < block.first

/-- The text stands as far to the right as the header says. -/
def isPlaced (block : Block) : Bool :=
  !block.measured || block.first ≤ block.current

/-- No line of blanks above the text is longer than its indentation. -/
def fitsBlanks (block : Block) (column : Nat) : Bool :=
  block.first ≠ 0 || block.blanks ≤ column

/-- Fold the line break before a character; the text is given newest first. -/
def fold (block : Block) (text : List Char) : List Char :=
  if block.style = .literal || !block.folding then
    text
  else
    match text with
    | '\n' :: rest =>
        if block.current = block.previous then
          ' ' :: rest
        else if block.previous = 0 && rest.head? = some '\n' then
          rest
        else
          text
    | _ => text

/-- The finished text; it is given newest first. -/
def finish (block : Block) (text : List Char) : String :=
  let body := text.dropWhile (· = '\n')
  let kept :=
    match block.chomping with
    | .strip => body.dropWhile (· = ' ')
    | .clip => if body.length < text.length then '\n' :: body else body
    | .keep => text
  String.ofList (if kept = ['\n'] then [] else kept.reverse)

end Block

/-- The options of a header without its comment. -/
def headerOptions (header : List Char) : List Char :=
  let line := (header.reverse.dropWhile (· = ' ')).reverse
  let options :=
    if line.head? = some '#' then line else line.takeWhile (· ≠ '#')
  (options.reverse.dropWhile isBlank).reverse

/-- The options without the marks around the number. -/
def withoutMarks (options : List Char) : List Char :=
  let front := Scalar.dropSign '+' (Scalar.dropSign '-' options)
  (Scalar.dropSign '+' (Scalar.dropSign '-' front.reverse)).reverse

/-- The indentation of a header's options, zero if they name none. -/
def headerIndentation? (options : List Char) : Option Nat :=
  let digits := withoutMarks options
  if digits.isEmpty then
    some 0
  else if digits.all Char.isDigit then
    let number := digits.foldl (fun value c => value * 10 + (c.toNat - '0'.toNat)) 0
    if digits = ['0'] || 9 < number then none else some number
  else
    none

/-- What the options of a header say about the end of the text. -/
def headerChomping (options : List Char) : Chomping :=
  if options.head? = some '-' || options.getLast? = some '-' then .strip
  else if options.head? = some '+' || options.getLast? = some '+' then .keep
  else .clip

/-- The text that a header opens below a key in the given column. -/
def openBlock? (style : BlockStyle) (column : Nat) (options : List Char) : Option Block :=
  (headerIndentation? options).map fun indentation =>
    { style := style
      chomping := headerChomping options
      measured := indentation ≠ 0
      first := if indentation = 0 then 0 else column + indentation
      previous := 0
      current := 0
      blanks := 0
      folding := false }

/-- The text that a dash in the given column turns an unquoted text into. -/
def dashedBlock (column : Nat) : Block :=
  { style := .dashed
    chomping := .strip
    measured := false
    first := column
    previous := 0
    current := column
    blanks := 0
    folding := false }

end FrenchNim.Settings
