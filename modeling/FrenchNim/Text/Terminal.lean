namespace FrenchNim

/-!
# Coloured text

Escape sequences that a terminal shows as colours.
-/

/-- The colours of messages. -/
inductive Color where
  | boldRed
  | bold
  | blue
  | yellow
  deriving Repr, DecidableEq

namespace Color

/-- The codes of a colour. -/
def codes : Color → String
  | boldRed => "1;91"
  | bold => "1"
  | blue => "94"
  | yellow => "93"

/-- The text in a colour, if colours are in use. -/
def paint (inUse : Bool) (color : Color) (text : String) : String :=
  if inUse then "\x1b[" ++ color.codes ++ "m" ++ text ++ "\x1b[0m" else text

end Color

end FrenchNim
