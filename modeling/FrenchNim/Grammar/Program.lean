import FrenchNim.Grammar.Declaration
import FrenchNim.Token.Lexer

namespace FrenchNim

/-!
# Programs

A program is read from the tokens before the first end of input. A token list
that has no end of input ends behind its last token.
-/

/-- Why a source is no program. -/
inductive ParseFault where
  | lexical (error : LexError)
  | grammatical (error : GrammarError)
  deriving Repr, DecidableEq

namespace Grammar

/-- The token that ends a token list, whether or not the list holds one. -/
def finalToken (tokens : List Token) : Token :=
  match tokens.find? (·.kind = .endOfInput) with
  | some token => token
  | none => Token.endOfInput ((tokens.getLast?.map (·.span.last)).getD .zero)

/-- The tokens before the end of input. -/
def properTokens (tokens : List Token) : List Token :=
  tokens.takeWhile (·.kind ≠ .endOfInput)

/-- Read declarations behind declarations that are already read, newest first. -/
def declarations (final : Token) (room : Nat) (read : List Declaration) (tokens : List Token) :
    Except GrammarError (List Declaration) :=
  match tokens with
  | [] => .ok read.reverse
  | token :: behind => do
      let ⟨next, rest, _shorter⟩ ← declaration final room (token :: behind)
      have _skipped := length_skipNewlines_le rest
      declarations final room (next :: read) (skipNewlines rest)
  termination_by tokens.length
  decreasing_by (simp only [List.length_cons] at *; omega)

/-- Read a whole token list as a program, with a limit on nested expressions. -/
def programWithin (room : Nat) (tokens : List Token) : Except GrammarError Program := do
  let all ← declarations (finalToken tokens) room [] (skipNewlines (properTokens tokens))
  return ⟨all⟩

/-- Read a whole token list as one expression. Line breaks may follow it. -/
def soleExpression (room : Nat) (tokens : List Token) : Except GrammarError Expression := do
  let ⟨value, rest, _⟩ ← expression (finalToken tokens) room (properTokens tokens)
  match skipNewlines rest with
  | [] => return value
  | token :: _ => .error (.unexpected token)

end Grammar

/-- Parse a token list. -/
def parseTokens (tokens : List Token) : Except GrammarError Program :=
  Grammar.programWithin Grammar.depthLimit tokens

/-- Parse a source. -/
def parseProgram (source : Source) : Except ParseFault Program := do
  let tokens ← (lex source).mapError .lexical
  (parseTokens tokens).mapError .grammatical

/-- Parse a source as one expression. -/
def parseExpression (source : Source) : Except ParseFault Expression := do
  let tokens ← (lex source).mapError .lexical
  (Grammar.soleExpression Grammar.depthLimit tokens).mapError .grammatical

end FrenchNim
