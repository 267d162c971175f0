import FrenchNim.Number.Double
import FrenchNim.Text.Position

namespace FrenchNim

/-!
# Syntax trees

The tree of a program. Trees are usually made by the parser, but they may also
be put together by hand, so a tree has two kinds of nodes that no parse
produces: `missing` marks a place that was left empty, and `unknown` is a node
of a kind that nothing in this library knows how to treat. `missing` also marks
the optional parts of a node: a branch, a loop clause.
-/

/-- The kind of a tree element, by its number. -/
structure ElementKind where
  number : Nat
  deriving Repr, DecidableEq, Inhabited

/-- A name and the position of its first rune. -/
structure Identifier where
  name : String
  position : Position
  deriving Repr, DecidableEq, Inhabited

mutual

/-- An expression. -/
inductive Expression where
  | bool (value : Bool) (span : Span)
  | number (literal : String) (value : Double) (span : Span)
  | string (value : String) (span : Span)
  | array (values : List Expression) (span : Span)
  | identifier (name : Identifier)
  | invocation (callee : Expression) (arguments : List Expression) (last : Position)
  | member (target : Expression) (name : Identifier) (arrow : Bool)
  | index (target : Expression) (position : Expression) (last : Position)
  | binary (operator : String) (left : Expression) (right : Expression)
  | closure (parameters : List Identifier) (body : Block) (first : Position)
  | construction (callee : Expression) (arguments : List Expression) (span : Span)
  | rawCode (code : String) (span : Span)
  | unknown (kind : ElementKind) (span : Span)
  | missing

/-- A statement list between its delimiters. -/
inductive Block where
  | of (statements : List Statement) (span : Span)
  | missing

/-- A statement. -/
inductive Statement where
  | returned (value : Expression) (first : Position)
  | declared (name : Identifier) (value : Expression) (first : Position)
  | assigned (target : Expression) (value : Expression)
  | evaluated (value : Expression)
  | conditional (test : Expression) (consequent : Block) (alternative : Block) (first : Position)
  | whileLoop (test : Expression) (body : Block) (first : Position)
  | forLoop (initial : Statement) (test : Expression) (increment : Statement) (body : Block)
      (first : Position)
  | unknown (kind : ElementKind) (span : Span)
  | missing

end

deriving instance Repr for Expression, Block, Statement

/-- The constructor of a class. -/
structure Constructor where
  parameters : List Identifier
  body : Block
  first : Position
  deriving Repr

/-- A method of a class. -/
structure Method where
  name : Identifier
  parameters : List Identifier
  body : Block
  deriving Repr

/-- A top-level element of a program. -/
inductive Declaration where
  | imported (module : Identifier) (alias? : Option Identifier) (path : String) (span : Span)
  | classType (name : Identifier) (constructor? : Option Constructor) (methods : List Method)
      (span : Span)
  | function (name : Identifier) (parameters : List Identifier) (body : Block) (first : Position)
  | typeName (name : Identifier) (external : Bool) (span : Span)
  | constant (name : Identifier) (value : Expression) (first : Position)
  | statement (body : Statement)
  deriving Repr

/-- A whole source file. -/
structure Program where
  declarations : List Declaration
  deriving Repr

/-- The name the keywords of self-reference stand for. -/
def selfName : String := "self"

namespace Block

/-- The statements of a block; a missing block has none. -/
def statements : Block → List Statement
  | of statements _ => statements
  | missing => []

/-- The block holds no statement. -/
def isEmpty (block : Block) : Bool :=
  block.statements.isEmpty

/-- One of the block's own statements returns. Nested blocks do not count. -/
def returns (block : Block) : Bool :=
  block.statements.any fun
    | .returned _ _ => true
    | _ => false

end Block

namespace Expression

/-- The expression is there. -/
def isPresent : Expression → Bool
  | missing => false
  | _ => true

/-- The expression is the self-reference. -/
def isSelf : Expression → Bool
  | identifier name => name.name = selfName
  | _ => false

end Expression

namespace Statement

/-- The statement is there. -/
def isPresent : Statement → Bool
  | missing => false
  | _ => true

/-- The statement is a loop with at least one clause in its head. -/
def hasClauses : Statement → Bool
  | forLoop initial test increment _ _ =>
      initial.isPresent || test.isPresent || increment.isPresent
  | _ => false

end Statement

namespace Declaration

/-- The names of the fields of a class, which are the parameters of its constructor. -/
def fields? : Option Constructor → Option (List String)
  | none => none
  | some constructor => some (constructor.parameters.map (·.name))

/-- The declaration imports a file. -/
def isImport : Declaration → Bool
  | imported _ _ _ _ => true
  | _ => false

/-- The path of an import. -/
def importPath? : Declaration → Option String
  | imported _ _ path _ => some path
  | _ => none

end Declaration

namespace Program

/-- The paths a program imports, in source order. -/
def importPaths (program : Program) : List String :=
  program.declarations.filterMap Declaration.importPath?

end Program

end FrenchNim
