import FrenchNim.Text.EditDistance
import FrenchNim.Token.Basic
import FrenchNim.Token.Keyword

namespace FrenchNim

/-!
# Grammar errors

Parsing stops at the first token that fits nothing. The error names that token
and, if a particular one was expected, says which. A misspelled keyword is
recognised by its edit distance to the keywords of the expected kind.
-/

/-- The token that a rule of the grammar requires next. -/
inductive Expectation where
  | importWord | moduleName | aliasName | fromWord | importedPath
  | classWord | className | openWord | closeWord
  | parenOpen | parenClose | parameterName | functionName | methodName
  | typeName | equalWord | constantName | variableName
  | loopOpen | braceClose | semicolon | propertyName | bracketClose | nimWord
  deriving Repr, DecidableEq

namespace Expectation

/-- The kind of token that meets an expectation. -/
def kind : Expectation → TokenKind
  | importWord => .importKeyword
  | moduleName | aliasName | className | parameterName | functionName | methodName
  | typeName | constantName | variableName | propertyName => .identifier
  | fromWord => .fromKeyword
  | importedPath => .string
  | classWord => .classKeyword
  | openWord | loopOpen => .openKeyword
  | closeWord => .closeKeyword
  | parenOpen => .parenOpen
  | parenClose => .parenClose
  | equalWord => .equal
  | braceClose => .braceClose
  | semicolon => .semicolon
  | bracketClose => .bracketClose
  | nimWord => .nimKeyword

/-- The wording of an expectation. -/
def message : Expectation → String
  | importWord => "Expected 'import'"
  | moduleName => "Expected module name"
  | aliasName => "Expected alias name"
  | fromWord => "Expected 'from'"
  | importedPath => "Expected path string"
  | classWord => "Expected 'classe'"
  | className => "Expected class name"
  | openWord => "Expected 'ouvrir'"
  | closeWord => "Expected 'refermer'"
  | parenOpen => "Expected '('"
  | parenClose => "Expected ')'"
  | parameterName => "Expected parameter name"
  | functionName => "Expected function name"
  | methodName => "Expected method name"
  | typeName => "Expected type name"
  | equalWord => "Expected 'egal'"
  | constantName => "Expected constant name"
  | variableName => "Expected variable name"
  | loopOpen => "Expected 'ouvrir' or '\x7b'"
  | braceClose => "Expected '\x7d'"
  | semicolon => "Expected ';'"
  | propertyName => "Expected property name"
  | bracketClose => "Expected ']'"
  | nimWord => "Expected 'nim'"

end Expectation

/--
A token that fits no rule.

The message is empty where an expression should have started, and the hint is
empty where there is nothing to suggest.
-/
structure SyntaxError where
  message : String
  got : String
  gotKind : TokenKind
  position : Position
  hint : String
  deriving Repr, DecidableEq

/-- Why a token list is no program. -/
inductive GrammarError where
  | unfit (error : SyntaxError)
  | tooDeep (position : Position)
  deriving Repr, DecidableEq

namespace Suggestion

/-- The largest edit distance at which a keyword is still suggested. -/
def maximumDistance : Nat := 2

/-- Prefer a keyword to the best one so far if it is closer and not a whole replacement. -/
def improve (word : List Char) (best : Option (String × Nat)) (keyword : Keyword) :
    Option (String × Nat) :=
  let distance := EditDistance.distance word keyword.word.toList
  let bound := (best.map (·.2)).getD (maximumDistance + 1)
  if distance < bound ∧ distance < keyword.word.length then
    some (keyword.word, distance)
  else
    best

/-- The keyword of the expected kind that is closest to a word. -/
def closestKeyword? (expected : TokenKind) (word : String) : Option String :=
  let candidates := Keyword.table.filter (·.kind = expected)
  (candidates.foldl (improve word.toList) none).map (·.1)

/-- The hint for a token that stands where another kind was expected. -/
def hint (expected : TokenKind) (got : Token) : String :=
  if got.kind = .identifier then
    match closestKeyword? expected got.literal with
    | some keyword => "did you mean `" ++ keyword ++ "`?"
    | none => ""
  else
    ""

end Suggestion

namespace GrammarError

/-- A token stands where a particular one was expected. -/
def expected (expectation : Expectation) (got : Token) : GrammarError :=
  .unfit
    { message := expectation.message
      got := got.literal
      gotKind := got.kind
      position := got.span.first
      hint := Suggestion.hint expectation.kind got }

/-- A token stands where an expression should start or end. -/
def unexpected (got : Token) : GrammarError :=
  .unfit
    { message := ""
      got := got.literal
      gotKind := got.kind
      position := got.span.first
      hint := "" }

end GrammarError

end FrenchNim
