import FrenchNim.Syntax.Tree

namespace FrenchNim

/-!
# Renaming

A renaming is applied to the names that are expressions of their own, wherever
they stand in a tree. The names of parameters, of declared variables and of
members are no expressions and stay as they are.
-/

/-- Rename a name. -/
def Identifier.rename (change : String → String) (identifier : Identifier) : Identifier :=
  ⟨change identifier.name, identifier.position⟩

mutual

/-- Rename all names of an expression. -/
def Expression.rename (change : String → String) : Expression → Expression
  | .identifier name => .identifier (name.rename change)
  | .array values span => .array (Expression.renameAll change values) span
  | .invocation callee arguments last =>
      .invocation (callee.rename change) (Expression.renameAll change arguments) last
  | .member target name arrow => .member (target.rename change) name arrow
  | .index target position last => .index (target.rename change) (position.rename change) last
  | .binary operator left right => .binary operator (left.rename change) (right.rename change)
  | .closure parameters body first => .closure parameters (body.rename change) first
  | .construction callee arguments span =>
      .construction (callee.rename change) (Expression.renameAll change arguments) span
  | .bool value span => .bool value span
  | .number literal value span => .number literal value span
  | .string value span => .string value span
  | .rawCode code span => .rawCode code span
  | .unknown kind span => .unknown kind span
  | .missing => .missing

/-- Rename all names of a list of expressions. -/
def Expression.renameAll (change : String → String) : List Expression → List Expression
  | [] => []
  | first :: rest => first.rename change :: Expression.renameAll change rest

/-- Rename all names of a block. -/
def Block.rename (change : String → String) : Block → Block
  | .of statements span => .of (Statement.renameAll change statements) span
  | .missing => .missing

/-- Rename all names of a statement. -/
def Statement.rename (change : String → String) : Statement → Statement
  | .returned value first => .returned (value.rename change) first
  | .declared name value first => .declared name (value.rename change) first
  | .assigned target value => .assigned (target.rename change) (value.rename change)
  | .evaluated value => .evaluated (value.rename change)
  | .conditional test consequent alternative first =>
      .conditional (test.rename change) (consequent.rename change) (alternative.rename change) first
  | .whileLoop test body first => .whileLoop (test.rename change) (body.rename change) first
  | .forLoop initial test increment body first =>
      .forLoop (initial.rename change) (test.rename change) (increment.rename change)
        (body.rename change) first
  | .unknown kind span => .unknown kind span
  | .missing => .missing

/-- Rename all names of a list of statements. -/
def Statement.renameAll (change : String → String) : List Statement → List Statement
  | [] => []
  | first :: rest => first.rename change :: Statement.renameAll change rest

end

/-- Renaming neither fills nor empties a block. -/
theorem Block.rename_isEmpty (change : String → String) (block : Block) :
    (block.rename change).isEmpty = block.isEmpty := by
  cases block with
  | of statements span => cases statements <;> rfl
  | missing => rfl

section Composition

variable (first second : String → String)

/-- Two renamings of a name are one. -/
theorem Identifier.rename_rename (identifier : Identifier) :
    (identifier.rename first).rename second = identifier.rename (second ∘ first) :=
  rfl

mutual

/-- Renaming twice is renaming once. -/
theorem Expression.rename_rename :
    ∀ value : Expression, (value.rename first).rename second = value.rename (second ∘ first)
  | .identifier _ => rfl
  | .array values _ => by
      simp only [Expression.rename, Expression.renameAll_renameAll values]
  | .invocation callee arguments _ => by
      simp only [Expression.rename, callee.rename_rename, Expression.renameAll_renameAll arguments]
  | .member target _ _ => by
      simp only [Expression.rename, target.rename_rename]
  | .index target position _ => by
      simp only [Expression.rename, target.rename_rename, position.rename_rename]
  | .binary _ left right => by
      simp only [Expression.rename, left.rename_rename, right.rename_rename]
  | .closure _ body _ => by
      simp only [Expression.rename, body.rename_rename]
  | .construction callee arguments _ => by
      simp only [Expression.rename, callee.rename_rename, Expression.renameAll_renameAll arguments]
  | .bool _ _ | .number _ _ _ | .string _ _ | .rawCode _ _ | .unknown _ _ | .missing => rfl

/-- Two renamings of several expressions are one. -/
theorem Expression.renameAll_renameAll :
    ∀ values : List Expression,
      Expression.renameAll second (Expression.renameAll first values) =
        Expression.renameAll (second ∘ first) values
  | [] => rfl
  | value :: rest => by
      simp only [Expression.renameAll, value.rename_rename, Expression.renameAll_renameAll rest]

/-- Two renamings of a block are one. -/
theorem Block.rename_rename :
    ∀ block : Block, (block.rename first).rename second = block.rename (second ∘ first)
  | .of statements _ => by
      simp only [Block.rename, Statement.renameAll_renameAll statements]
  | .missing => rfl

/-- Two renamings of a statement are one. -/
theorem Statement.rename_rename :
    ∀ node : Statement, (node.rename first).rename second = node.rename (second ∘ first)
  | .returned value _ | .declared _ value _ | .evaluated value => by
      simp only [Statement.rename, value.rename_rename]
  | .assigned target value => by
      simp only [Statement.rename, target.rename_rename, value.rename_rename]
  | .conditional test consequent alternative _ => by
      simp only [Statement.rename, test.rename_rename, consequent.rename_rename,
        alternative.rename_rename]
  | .whileLoop test body _ => by
      simp only [Statement.rename, test.rename_rename, body.rename_rename]
  | .forLoop initial test increment body _ => by
      simp only [Statement.rename, initial.rename_rename, test.rename_rename,
        increment.rename_rename, body.rename_rename]
  | .unknown _ _ | .missing => rfl

/-- Two renamings of several statements are one. -/
theorem Statement.renameAll_renameAll :
    ∀ nodes : List Statement,
      Statement.renameAll second (Statement.renameAll first nodes) =
        Statement.renameAll (second ∘ first) nodes
  | [] => rfl
  | node :: rest => by
      simp only [Statement.renameAll, node.rename_rename, Statement.renameAll_renameAll rest]

end

end Composition

end FrenchNim
