import FrenchNim.Token.Basic
import FrenchNim.Token.Piece

namespace FrenchNim

/-!
# The token list of a source

Tokens are the token pieces of the text with their positions, followed by the
end of the input. Two things make this fail: a string without an end, and more
tokens than the limit admits.
-/

/-- Why a text has no token list. -/
inductive LexError where
  | unterminatedString (start : Position) (lastLine : Int)
  | tokenLimit (start : Position)
  deriving Repr, DecidableEq

/-- The number of tokens a source may have, its end not counted. -/
def tokenLimit : Nat := 524288

namespace Lexer

/--
Read the tokens of a text that starts at the given position.

The tokens read so far are kept newest first, together with their number.
-/
def scan (limit : Nat) (position : Position) (count : Nat) (read : List Token) :
    Source → Except LexError (List Token)
  | [] => .ok (Token.endOfInput position :: read).reverse
  | first :: rest =>
      match _shape : Piece.cut first rest with
      | (.trivia text, rest') =>
          scan limit (position.after text) count read rest'
      | (.token kind literal text, rest') =>
          if limit ≤ count then
            .error (.tokenLimit position)
          else
            let span := ⟨position, position.after text.dropLast⟩
            scan limit (position.after text) (count + 1) (⟨kind, literal, span⟩ :: read) rest'
      | (.unterminated text, _) =>
          .error (.unterminatedString position (position.after text).line)
  termination_by text => text.length
  decreasing_by
    all_goals
      have shorter := Piece.length_cut_lt first rest
      simp_all

end Lexer

/-- The tokens of a source, with a limit on their number. -/
def lexWithin (limit : Nat) (source : Source) : Except LexError (List Token) :=
  Lexer.scan limit .start 0 [] source

/-- The tokens of a source. -/
def lex (source : Source) : Except LexError (List Token) :=
  lexWithin tokenLimit source

end FrenchNim
