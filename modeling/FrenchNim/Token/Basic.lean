import FrenchNim.Text.Position
import FrenchNim.Token.Kind

namespace FrenchNim

/-!
# Tokens
-/

/--
A token of the source.

The literal is the spelling of the token, except for strings, where it is the
denoted text, and for the end of the input, where it is empty.
-/
structure Token where
  kind : TokenKind
  literal : String
  span : Span
  deriving Repr, DecidableEq

namespace Token

/-- The token behind the last token of a file. -/
def endOfInput (position : Position) : Token :=
  ⟨.endOfInput, "", ⟨position, position⟩⟩

/-- The bytes of the input from the start of a token up to and including the offset of its end. -/
def slice (token : Token) (input : Bytes) : Bytes :=
  let start := token.span.first.offset.toNat
  let stop := (token.span.last.offset + 1).toNat
  (input.drop start).take (stop - start)

end Token

end FrenchNim
