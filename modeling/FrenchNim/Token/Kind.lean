namespace FrenchNim

/-!
# Token kinds

The grammar looks at kinds only. Several words may share a kind, so the kind of
a keyword is not its spelling: `egal`, `égal` and `=` are all `equal`.
-/

/-- What a token is to the grammar. -/
inductive TokenKind where
  | endOfInput
  | newline
  | identifier
  | number
  | string
  | boolean
  | classKeyword
  | constructorKeyword
  | variableKeyword
  | newKeyword
  | returnKeyword
  | selfKeyword
  | openKeyword
  | closeKeyword
  | importKeyword
  | fromKeyword
  | asKeyword
  | forKeyword
  | whileKeyword
  | functionKeyword
  | typeKeyword
  | externalKeyword
  | constantKeyword
  | nimKeyword
  | ifKeyword
  | elseKeyword
  | equal
  | plus
  | minus
  | arrow
  | equalEqual
  | notEqual
  | less
  | lessEqual
  | greater
  | greaterEqual
  | parenOpen
  | parenClose
  | braceOpen
  | braceClose
  | bracketOpen
  | bracketClose
  | comma
  | dot
  | semicolon
  | colon
  | atSign
  deriving Repr, DecidableEq

namespace TokenKind

/-- Every kind, in numbering order. -/
def all : List TokenKind :=
  [.endOfInput, .newline, .identifier, .number, .string,
   .boolean, .classKeyword, .constructorKeyword, .variableKeyword, .newKeyword,
   .returnKeyword, .selfKeyword, .openKeyword, .closeKeyword, .importKeyword,
   .fromKeyword, .asKeyword, .forKeyword, .whileKeyword, .functionKeyword,
   .typeKeyword, .externalKeyword, .constantKeyword, .nimKeyword, .ifKeyword,
   .elseKeyword, .equal, .plus, .minus, .arrow,
   .equalEqual, .notEqual, .less, .lessEqual, .greater,
   .greaterEqual, .parenOpen, .parenClose, .braceOpen, .braceClose,
   .bracketOpen, .bracketClose, .comma, .dot, .semicolon,
   .colon, .atSign]

/-- The kind with the given number. -/
def ofNumber? (number : Nat) : Option TokenKind :=
  all[number]?

/-- The name of a kind in error reports: a word or symbol stands between backquotes. -/
def name : TokenKind → String
  | endOfInput => "EOF"
  | newline => "newline"
  | identifier => "identifier"
  | number => "number"
  | string => "string"
  | boolean => "boolean"
  | classKeyword => "`classe`"
  | constructorKeyword => "`constructeur`"
  | variableKeyword => "`variable`"
  | newKeyword => "`nouveau`"
  | returnKeyword => "`retourne`"
  | selfKeyword => "`ceci`"
  | openKeyword => "`ouvrir`"
  | closeKeyword => "`refermer`"
  | importKeyword => "`importer`"
  | fromKeyword => "`de`"
  | asKeyword => "`comme`"
  | forKeyword => "`pour`"
  | whileKeyword => "`tantque`"
  | functionKeyword => "`fonction`"
  | typeKeyword => "`type`"
  | externalKeyword => "`external`"
  | constantKeyword => "`constant`"
  | nimKeyword => "`nim`"
  | ifKeyword => "`si`"
  | elseKeyword => "`sinon`"
  | equal => "`egal`"
  | plus => "`+`"
  | minus => "`-`"
  | arrow => "`->`"
  | equalEqual => "`==`"
  | notEqual => "`!=`"
  | less => "`<`"
  | lessEqual => "`<=`"
  | greater => "`>`"
  | greaterEqual => "`>=`"
  | parenOpen => "`(`"
  | parenClose => "`)`"
  | braceOpen => "`\x7b`"
  | braceClose => "`\x7d`"
  | bracketOpen => "`[`"
  | bracketClose => "`]`"
  | comma => "`,`"
  | dot => "`.`"
  | semicolon => "`;`"
  | colon => "`:`"
  | atSign => "`@`"

/-- The kind of a reserved word. The kinds of `egal` and of booleans do not count. -/
def isKeyword : TokenKind → Bool
  | classKeyword | constructorKeyword | variableKeyword | newKeyword | returnKeyword
  | selfKeyword | openKeyword | closeKeyword | importKeyword | fromKeyword | asKeyword
  | forKeyword | whileKeyword | functionKeyword | typeKeyword | externalKeyword
  | constantKeyword | nimKeyword | ifKeyword | elseKeyword => true
  | _ => false

/-- An operator of the comparison level. -/
def isComparison : TokenKind → Bool
  | equalEqual | notEqual | less | lessEqual | greater | greaterEqual => true
  | _ => false

/-- An operator of the additive level. -/
def isAdditive : TokenKind → Bool
  | plus | minus => true
  | _ => false

end TokenKind

end FrenchNim
