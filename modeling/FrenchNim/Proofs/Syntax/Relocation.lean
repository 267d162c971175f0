import FrenchNim.Grammar.Error
import FrenchNim.Syntax.Tree

namespace FrenchNim

/-!
# Moving positions

Positions are carried through the grammar without being looked at. To say so, a
function on positions is applied to every position of a token, of a tree and of
an error. Moving everything to one place erases the positions.
-/

/-- Move both ends of a range. -/
def Span.relocate (move : Position → Position) (span : Span) : Span :=
  ⟨move span.first, move span.last⟩

/-- Move a token. -/
def Token.relocate (move : Position → Position) (token : Token) : Token :=
  ⟨token.kind, token.literal, token.span.relocate move⟩

/-- Move a name. -/
def Identifier.relocate (move : Position → Position) (identifier : Identifier) : Identifier :=
  ⟨identifier.name, move identifier.position⟩

mutual

/-- Move all positions of an expression. -/
def Expression.relocate (move : Position → Position) : Expression → Expression
  | .bool value span => .bool value (span.relocate move)
  | .number literal value span => .number literal value (span.relocate move)
  | .string value span => .string value (span.relocate move)
  | .array values span => .array (Expression.relocateAll move values) (span.relocate move)
  | .identifier name => .identifier (name.relocate move)
  | .invocation callee arguments last =>
      .invocation (callee.relocate move) (Expression.relocateAll move arguments) (move last)
  | .member target name arrow => .member (target.relocate move) (name.relocate move) arrow
  | .index target position last =>
      .index (target.relocate move) (position.relocate move) (move last)
  | .binary operator left right =>
      .binary operator (left.relocate move) (right.relocate move)
  | .closure parameters body first =>
      .closure (parameters.map (·.relocate move)) (body.relocate move) (move first)
  | .construction callee arguments span =>
      .construction (callee.relocate move) (Expression.relocateAll move arguments)
        (span.relocate move)
  | .rawCode code span => .rawCode code (span.relocate move)
  | .unknown kind span => .unknown kind (span.relocate move)
  | .missing => .missing

/-- Move all positions of a list of expressions. -/
def Expression.relocateAll (move : Position → Position) : List Expression → List Expression
  | [] => []
  | first :: rest => first.relocate move :: Expression.relocateAll move rest

/-- Move all positions of a block. -/
def Block.relocate (move : Position → Position) : Block → Block
  | .of statements span => .of (Statement.relocateAll move statements) (span.relocate move)
  | .missing => .missing

/-- Move all positions of a statement. -/
def Statement.relocate (move : Position → Position) : Statement → Statement
  | .returned value first => .returned (value.relocate move) (move first)
  | .declared name value first =>
      .declared (name.relocate move) (value.relocate move) (move first)
  | .assigned target value => .assigned (target.relocate move) (value.relocate move)
  | .evaluated value => .evaluated (value.relocate move)
  | .conditional test consequent alternative first =>
      .conditional (test.relocate move) (consequent.relocate move)
        (alternative.relocate move) (move first)
  | .whileLoop test body first =>
      .whileLoop (test.relocate move) (body.relocate move) (move first)
  | .forLoop initial test increment body first =>
      .forLoop (initial.relocate move) (test.relocate move) (increment.relocate move)
        (body.relocate move) (move first)
  | .unknown kind span => .unknown kind (span.relocate move)
  | .missing => .missing

/-- Move all positions of a list of statements. -/
def Statement.relocateAll (move : Position → Position) : List Statement → List Statement
  | [] => []
  | first :: rest => first.relocate move :: Statement.relocateAll move rest

end

/-- Move all positions of a constructor. -/
def Constructor.relocate (move : Position → Position) (node : Constructor) : Constructor :=
  ⟨node.parameters.map (·.relocate move), node.body.relocate move, move node.first⟩

/-- Move all positions of a method. -/
def Method.relocate (move : Position → Position) (node : Method) : Method :=
  ⟨node.name.relocate move, node.parameters.map (·.relocate move), node.body.relocate move⟩

/-- Move all positions of a declaration. -/
def Declaration.relocate (move : Position → Position) : Declaration → Declaration
  | .imported module alias? path span =>
      .imported (module.relocate move) (alias?.map (·.relocate move)) path (span.relocate move)
  | .classType name constructor? methods span =>
      .classType (name.relocate move) (constructor?.map (·.relocate move))
        (methods.map (·.relocate move)) (span.relocate move)
  | .function name parameters body first =>
      .function (name.relocate move) (parameters.map (·.relocate move)) (body.relocate move)
        (move first)
  | .typeName name external span =>
      .typeName (name.relocate move) external (span.relocate move)
  | .constant name value first =>
      .constant (name.relocate move) (value.relocate move) (move first)
  | .statement body => .statement (body.relocate move)

/-- Move all positions of a program. -/
def Program.relocate (move : Position → Position) (program : Program) : Program :=
  ⟨program.declarations.map (·.relocate move)⟩

/-- Move the position of a grammar error. -/
def GrammarError.relocate (move : Position → Position) : GrammarError → GrammarError
  | .unfit error => .unfit { error with position := move error.position }
  | .tooDeep position => .tooDeep (move position)

section Lemmas

variable (move : Position → Position)

/-- A moved token keeps its kind. -/
@[simp] theorem Token.relocate_kind (token : Token) : (token.relocate move).kind = token.kind :=
  rfl

/-- The first place of a token is moved. -/
@[simp] theorem Token.relocate_first (token : Token) :
    (token.relocate move).span.first = move token.span.first :=
  rfl

/-- The last place of a token is moved. -/
@[simp] theorem Token.relocate_last (token : Token) :
    (token.relocate move).span.last = move token.span.last :=
  rfl

/-- Moving every place to itself changes no token. -/
@[simp] theorem Token.relocate_id (token : Token) : token.relocate id = token :=
  rfl

/-- A moved name keeps its letters. -/
@[simp] theorem Identifier.relocate_name (identifier : Identifier) :
    (identifier.relocate move).name = identifier.name :=
  rfl

@[simp] theorem Expression.relocateAll_eq_map (values : List Expression) :
    Expression.relocateAll move values = values.map (·.relocate move) := by
  induction values with
  | nil =>
      rfl
  | cons first rest inductionHypothesis =>
      rw [Expression.relocateAll, inductionHypothesis, List.map_cons]

@[simp] theorem Statement.relocateAll_eq_map (nodes : List Statement) :
    Statement.relocateAll move nodes = nodes.map (·.relocate move) := by
  induction nodes with
  | nil =>
      rfl
  | cons first rest inductionHypothesis =>
      rw [Statement.relocateAll, inductionHypothesis, List.map_cons]

/-- Moving nothing changes no error. -/
@[simp] theorem GrammarError.relocate_id (error : GrammarError) :
    error.relocate id = error := by
  cases error <;> rfl

end Lemmas

/-! ## Erased positions -/

/-- A token without its position. -/
abbrev Token.erase (token : Token) : Token :=
  token.relocate fun _ => .zero

/-- A grammar error without its position. -/
abbrev GrammarError.erase (error : GrammarError) : GrammarError :=
  error.relocate fun _ => .zero

/-- An expression without its positions. -/
abbrev Expression.erase (value : Expression) : Expression :=
  value.relocate fun _ => .zero

/-- A block without its positions. -/
abbrev Block.erase (block : Block) : Block :=
  block.relocate fun _ => .zero

/-- A statement without its positions. -/
abbrev Statement.erase (node : Statement) : Statement :=
  node.relocate fun _ => .zero

/-- A declaration without its positions. -/
abbrev Declaration.erase (declaration : Declaration) : Declaration :=
  declaration.relocate fun _ => .zero

/-- A program without its positions. -/
abbrev Program.erase (program : Program) : Program :=
  program.relocate fun _ => .zero

end FrenchNim
