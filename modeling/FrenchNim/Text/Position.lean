import FrenchNim.Text.Rune

namespace FrenchNim

/-!
# Positions

A position names a rune of the source by its byte offset, its line and its
column. Lines count from one, columns count runes from zero. Positions of
hand-made trees are arbitrary, so the three numbers are integers.
-/

/-- A place in a source file. -/
structure Position where
  offset : Int
  line : Int
  column : Int
  deriving Repr, DecidableEq, Inhabited

namespace Position

/-- The position of a node that has none. -/
def zero : Position := ⟨0, 0, 0⟩

/-- The position of the first rune of a file. -/
def start : Position := ⟨0, 1, 0⟩

/-- The position of the rune behind the given rune. -/
def next (position : Position) (rune : Rune) : Position :=
  if rune.toChar = '\n' then
    ⟨position.offset + rune.width, position.line + 1, 0⟩
  else
    ⟨position.offset + rune.width, position.line, position.column + 1⟩

/-- The position behind a text that starts at the given position. -/
def after (position : Position) (text : Source) : Position :=
  text.foldl next position

/-- Positions are ordered by their offset alone. -/
def compare (left right : Position) : Ordering :=
  Ord.compare left.offset right.offset

/-- The written form of a position. -/
def render (position : Position) : String :=
  s!"{position.offset}({position.line}:{position.column})"

@[simp] theorem after_nil (position : Position) : position.after [] = position :=
  rfl

@[simp] theorem after_cons (position : Position) (rune : Rune) (text : Source) :
    position.after (rune :: text) = (position.next rune).after text :=
  rfl

/-- Positions compose along a split of the text. -/
theorem after_append (position : Position) (left right : Source) :
    position.after (left ++ right) = (position.after left).after right := by
  simp [after, List.foldl_append]

end Position

/-- The inclusive range of a node: its first and its last rune. -/
structure Span where
  first : Position
  last : Position
  deriving Repr, DecidableEq, Inhabited

namespace Span

/-- The range of a node that has none. -/
def zero : Span := ⟨.zero, .zero⟩

end Span

end FrenchNim
