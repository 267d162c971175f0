import FrenchNim.Proofs.Syntax.Relocation
import FrenchNim.Proofs.Token.Pieces
import FrenchNim.Syntax.Render

namespace FrenchNim

/-!
# The tokens of a tree

Which tokens the canonical text of a tree consists of. Positions play no part,
so the tokens have none. Indentation disappears and every line break is a token.
-/

namespace Token

/-- A token without a position. -/
def bare (kind : TokenKind) (literal : String) : Token :=
  ⟨kind, literal, .zero⟩

/-- A token without a position keeps its kind. -/
@[simp] theorem bare_kind (kind : TokenKind) (literal : String) :
    (bare kind literal).kind = kind :=
  rfl

abbrev parenOpen : Token := bare .parenOpen "("

abbrev parenClose : Token := bare .parenClose ")"

abbrev bracketOpen : Token := bare .bracketOpen "["

abbrev bracketClose : Token := bare .bracketClose "]"

abbrev comma : Token := bare .comma ","

abbrev semicolon : Token := bare .semicolon ";"

abbrev equal : Token := bare .equal "="

abbrev newline : Token := bare .newline "\n"

abbrev opening : Token := bare .openKeyword "ouvrir"

abbrev closing : Token := bare .closeKeyword "refermer"

/-- A name outside of expressions. -/
abbrev named (identifier : Identifier) : Token := bare .identifier identifier.name

/-- The token between a target and a member. -/
def link (arrow : Bool) : Token :=
  if arrow then bare .arrow "->" else bare .dot "."

end Token

namespace Lexer

/-- The tokens of pieces without their positions, if all strings end. -/
def bareTokens : List Piece → Option (List Token)
  | [] => some []
  | .trivia _ :: rest => bareTokens rest
  | .token kind literal _ :: rest => (bareTokens rest).map (Token.bare kind literal :: ·)
  | .unterminated _ :: _ => none

/-- The tokens of a text without their positions, if all its strings end. -/
def lexemes (text : List Char) : Option (List Token) :=
  bareTokens (pieces (text.map .char))

/-- An empty text has no tokens. -/
@[simp] theorem lexemes_nil : lexemes [] = some [] := by
  rw [lexemes, List.map_nil, pieces_nil, bareTokens]

end Lexer

/-- The kind of the operator of a binary expression. -/
def operatorKind (operator : String) : TokenKind :=
  match operator with
  | "+" => .plus
  | "-" => .minus
  | "==" => .equalEqual
  | "!=" => .notEqual
  | "<" => .less
  | "<=" => .lessEqual
  | ">" => .greater
  | _ => .greaterEqual

/-- The operators of binary expressions. -/
def binaryOperators : List String :=
  ["+", "-", "==", "!=", "<", "<=", ">", ">="]

/-- The tokens of embedded code. -/
def RawCode.tokens (code : String) : List Token :=
  (Lexer.lexemes code.toList).getD []

/-- Names between commas, in parentheses. -/
def parameterTokens (names : List Identifier) : List Token :=
  Token.parenOpen :: [Token.comma].intercalate (names.map ([Token.named ·])) ++
    [Token.parenClose]

namespace Expression

/-- The expression is a binary one. -/
def isBinary : Expression → Bool
  | binary _ _ _ => true
  | _ => false

/-- The tokens of an operand, with parentheses around a binary expression. -/
def operandTokens (value : Expression) (tokens : List Token) : List Token :=
  if value.isBinary then Token.parenOpen :: tokens ++ [Token.parenClose] else tokens

/-- A name in an expression. -/
def nameToken (name : Identifier) : Token :=
  if name.name = selfName then .bare .selfKeyword "ceci" else .named name

end Expression

mutual

/-- The tokens of an expression. -/
def Expression.tokens : Expression → List Token
  | .bool value _ => [.bare .boolean (if value then "vrai" else "faux")]
  | .number literal _ _ => [.bare .number literal]
  | .string value _ => [.bare .string value]
  | .array values _ =>
      .bracketOpen :: [Token.comma].intercalate (Expression.allTokens values) ++ [.bracketClose]
  | .identifier name => [Expression.nameToken name]
  | .invocation callee arguments _ =>
      callee.tokens ++ .parenOpen ::
        [Token.comma].intercalate (Expression.allTokens arguments) ++ [.parenClose]
  | .member target name arrow => target.tokens ++ [.link arrow, .named name]
  | .index target position _ =>
      target.tokens ++ .bracketOpen :: position.tokens ++ [.bracketClose]
  | .binary operator left right =>
      left.operandTokens left.tokens ++ .bare (operatorKind operator) operator ::
        right.operandTokens right.tokens
  | .closure parameters body _ =>
      .bare .functionKeyword "fonction" :: parameterTokens parameters ++ body.tokens
  | .construction callee arguments _ =>
      .bare .newKeyword "nouveau" :: callee.tokens ++ .parenOpen ::
        [Token.comma].intercalate (Expression.allTokens arguments) ++ [.parenClose]
  | .rawCode code _ =>
      .bare .atSign "@" :: .bare .nimKeyword "nim" :: .parenOpen :: RawCode.tokens code ++
        [.parenClose]
  | .unknown _ _ => []
  | .missing => []

/-- The tokens of each expression of a list. -/
def Expression.allTokens : List Expression → List (List Token)
  | [] => []
  | first :: rest => first.tokens :: Expression.allTokens rest

/-- The tokens of a block. -/
def Block.tokens : Block → List Token
  | .of statements _ => .opening :: Statement.allTokens statements ++ [.newline, .closing]
  | .missing => [.opening, .newline, .closing]

/-- The tokens of a statement. -/
def Statement.tokens : Statement → List Token
  | .returned value _ => .bare .returnKeyword "retourne" :: value.tokens
  | .declared name value _ =>
      .bare .variableKeyword "variable" :: .named name :: .equal :: value.tokens
  | .assigned target value => target.tokens ++ .equal :: value.tokens
  | .evaluated value => value.tokens
  | .conditional test consequent alternative _ =>
      .bare .ifKeyword "si" :: .parenOpen :: test.tokens ++ .parenClose :: consequent.tokens ++
        match alternative with
        | .missing => []
        | _ => .bare .elseKeyword "sinon" :: alternative.tokens
  | .whileLoop test body _ =>
      .bare .whileKeyword "tantque" :: .parenOpen :: test.tokens ++ .parenClose :: body.tokens
  | .forLoop initial test increment body _ =>
      .bare .forKeyword "pour" :: .parenOpen :: initial.tokens ++ .semicolon :: test.tokens ++
        .semicolon :: increment.tokens ++ .parenClose :: body.tokens
  | .unknown _ _ => []
  | .missing => []

/-- The tokens of statements, each on a line of its own. -/
def Statement.allTokens : List Statement → List Token
  | [] => []
  | first :: rest => .newline :: first.tokens ++ Statement.allTokens rest

end

/-- A second block stands behind its word, even if it has no statements. -/
theorem Statement.tokens_alternative
    (test : Expression)
    (consequent : Block)
    (statements : List Statement)
    (span : Span)
    (first : Position) :
    (Statement.conditional test consequent (.of statements span) first).tokens =
      .bare .ifKeyword "si" :: .parenOpen :: test.tokens ++ .parenClose :: consequent.tokens ++
        .bare .elseKeyword "sinon" :: (Block.of statements span).tokens :=
  rfl

/-- The tokens of a constructor. -/
def Constructor.tokens (node : Constructor) : List Token :=
  .bare .constructorKeyword "constructeur" :: parameterTokens node.parameters ++ node.body.tokens

/-- The tokens of a method. -/
def Method.tokens (node : Method) : List Token :=
  .named node.name :: parameterTokens node.parameters ++ node.body.tokens

namespace Declaration

/-- The tokens of the members of a class, each on a line of its own. -/
def memberTokens (constructor? : Option Constructor) (methods : List Method) : List Token :=
  (constructor?.toList.map Constructor.tokens ++ methods.map Method.tokens).flatMap
    (Token.newline :: ·)

/-- The tokens of a declaration. -/
def tokens : Declaration → List Token
  | imported module alias? path _ =>
      .bare .importKeyword "importer" :: .named module ::
        (alias?.toList.flatMap fun newName => [.bare .asKeyword "comme", .named newName]) ++
        [.bare .fromKeyword "de", .bare .string path]
  | classType name constructor? methods _ =>
      .bare .classKeyword "classe" :: .named name :: .opening ::
        memberTokens constructor? methods ++ [.newline, .closing]
  | function name parameters body _ =>
      .bare .functionKeyword "fonction" :: .named name :: parameterTokens parameters ++
        body.tokens
  | typeName name external _ =>
      .bare .typeKeyword "type" :: .named name :: .bare .equal "egal" ::
        if external then [.bare .externalKeyword "external"] else []
  | constant name value _ =>
      .bare .constantKeyword "constant" :: .named name :: .equal :: value.tokens
  | statement body => body.tokens

end Declaration

namespace Program

/-- The line breaks between two declarations. -/
def separatorTokens (left right : Declaration) : List Token :=
  if left.isImport && right.isImport then [.newline] else [.newline, .newline]

/-- The tokens of declarations that follow the given one. -/
def tokensAfter (previous : Declaration) : List Declaration → List Token
  | [] => []
  | next :: rest => separatorTokens previous next ++ next.tokens ++ tokensAfter next rest

/-- The tokens of a program. -/
def tokens (program : Program) : List Token :=
  match program.declarations with
  | [] => []
  | first :: rest => first.tokens ++ tokensAfter first rest

end Program

end FrenchNim
