import FrenchNim.Text.Display.Width
import FrenchNim.Text.Position
import FrenchNim.Text.Terminal

namespace FrenchNim

/-!
# Excerpts of the source

A report shows the line it is about and marks a range of it with carets. The
marks are indented by the display width of the text before them; tabs are kept.
-/

namespace Excerpt

/-- Split a text at its line breaks, behind a line that is kept in reverse. -/
def splitLines (line : List Char) : Source → List (List Char)
  | [] => [line.reverse]
  | rune :: rest =>
      if rune.toChar = '\n' then
        line.reverse :: splitLines [] rest
      else
        splitLines (rune.toChar :: line) rest

/-- Drop one carriage return at the end of a line. -/
def dropCarriageReturn (line : List Char) : List Char :=
  if line.getLast? = some '\r' then line.dropLast else line

/-- The line with the given number, if the source has it. -/
def line? (code : Source) (number : Int) : Option (List Char) :=
  if number < 1 ∨ code.isEmpty then
    none
  else
    ((splitLines [] code)[number.toNat - 1]?).map dropCarriageReturn

/-- White space as wide as the given text, with its tabs. -/
def indentation (text : List Char) : List Char :=
  text.flatMap fun c =>
    if c = '\t' then ['\t'] else List.replicate (Display.textWidth [c]) ' '

/-- The number of carets under a range of a line. A range over several lines is cut at the line. -/
def markWidth (line : List Char) (span : Span) : Nat :=
  let start := min span.first.column.toNat line.length
  let stop :=
    if span.last.line ≠ span.first.line ∨ (line.length : Int) ≤ span.last.column then
      (line.length : Int) - 1
    else
      span.last.column
  let marked :=
    if (start : Int) ≤ stop then (line.drop start).take (stop.toNat + 1 - start) else []
  max 1 (Display.textWidth marked)

/-- The indentation of the carets under a range of a line. -/
def markIndentation (line : List Char) (span : Span) : List Char :=
  indentation (line.take span.first.column.toNat)

/-- The shown line with its line number and its marks. -/
def render (colors : Bool) (line : List Char) (span : Span) (secondary : String) : String :=
  let number := toString span.first.line
  let gutter := String.ofList (List.replicate number.length ' ')
  let carets := String.ofList (List.replicate (markWidth line span) '^')
  let note := if secondary = "" then "" else " " ++ Color.yellow.paint colors secondary
  Color.blue.paint colors (gutter ++ " |") ++ "\n" ++
    Color.blue.paint colors (number ++ " | ") ++ String.ofList line ++ "\n" ++
    Color.blue.paint colors (gutter ++ " | ") ++ String.ofList (markIndentation line span) ++
    Color.boldRed.paint colors carets ++ note ++ "\n"

/-- The second message where no line can be shown. -/
def note (colors : Bool) (secondary : String) : String :=
  if secondary = "" then
    ""
  else
    Color.blue.paint colors "  = " ++ Color.yellow.paint colors secondary ++ "\n"

/-- The place a report is about. -/
def place (colors : Bool) (location : String) (position : Position) : String :=
  let file := if location = "" then "" else location ++ ":"
  Color.blue.paint colors " --> " ++ file ++ toString position.line ++ ":" ++
    toString position.column ++ "\n"

/-- Everything below the first line of a report. -/
def details (colors : Bool) (location : String) (code : Source) (span? : Option Span)
    (secondary : String) : String :=
  match span? with
  | none => note colors secondary
  | some span =>
      place colors location span.first ++
        match line? code span.first.line with
        | none => note colors secondary
        | some line => render colors line span secondary

end Excerpt

end FrenchNim
