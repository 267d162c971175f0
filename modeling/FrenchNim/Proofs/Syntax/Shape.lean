import FrenchNim.Proofs.Syntax.Tokens

namespace FrenchNim

/-!
# The shape of a tree

Conditions on trees that speak about one node at a time are asked of all
expressions of a tree at once. Besides them this module counts how deeply
expressions are nested in the canonical text of a tree, the way the grammar
counts: operands between parentheses, items and positions each take one level,
and so does the value of a statement.
-/

namespace Expression

/-- A member, a call or an index is applied to a binary expression. -/
def linksBinary : Expression → Bool
  | invocation callee _ _ => callee.isBinary
  | member target _ _ => target.isBinary
  | index target _ _ => target.isBinary
  | _ => false

/-- The name that a chain of members starts with. -/
def root? : Expression → Option String
  | identifier name => some name.name
  | member target _ _ => target.root?
  | _ => none

/-- The class of a construction is named by the self-reference. -/
def constructsSelf : Expression → Bool
  | construction callee _ _ => callee.root? = some selfName
  | _ => false

/-- The canonical text begins with `fonction`. -/
def leadsWithClosure : Expression → Bool
  | closure _ _ _ => true
  | invocation callee _ _ => callee.leadsWithClosure
  | member target _ _ => target.leadsWithClosure
  | index target _ _ => target.leadsWithClosure
  | binary _ left _ => !left.isBinary && left.leadsWithClosure
  | _ => false

end Expression

mutual

/-- The condition holds of the expression and of all expressions in it. -/
def Expression.Everywhere (holds : Expression → Prop) : Expression → Prop
  | .bool value span => holds (.bool value span)
  | .number literal value span => holds (.number literal value span)
  | .string value span => holds (.string value span)
  | .array values span =>
      holds (.array values span) ∧ Expression.AllEverywhere holds values
  | .identifier name => holds (.identifier name)
  | .invocation callee arguments last =>
      holds (.invocation callee arguments last) ∧ callee.Everywhere holds ∧
        Expression.AllEverywhere holds arguments
  | .member target name arrow =>
      holds (.member target name arrow) ∧ target.Everywhere holds
  | .index target position last =>
      holds (.index target position last) ∧ target.Everywhere holds ∧ position.Everywhere holds
  | .binary operator left right =>
      holds (.binary operator left right) ∧ left.Everywhere holds ∧ right.Everywhere holds
  | .closure parameters body first =>
      holds (.closure parameters body first) ∧ body.Everywhere holds
  | .construction callee arguments span =>
      holds (.construction callee arguments span) ∧ Expression.AllEverywhere holds arguments
  | .rawCode code span => holds (.rawCode code span)
  | .unknown kind span => holds (.unknown kind span)
  | .missing => True

/-- The condition holds of all expressions in a list of expressions. -/
def Expression.AllEverywhere (holds : Expression → Prop) : List Expression → Prop
  | [] => True
  | first :: rest => first.Everywhere holds ∧ Expression.AllEverywhere holds rest

/-- The condition holds of all expressions in a block. -/
def Block.Everywhere (holds : Expression → Prop) : Block → Prop
  | .of statements _ => Statement.AllEverywhere holds statements
  | .missing => True

/-- The condition holds of all expressions in a statement. -/
def Statement.Everywhere (holds : Expression → Prop) : Statement → Prop
  | .returned value _ => value.Everywhere holds
  | .declared _ value _ => value.Everywhere holds
  | .assigned target value => target.Everywhere holds ∧ value.Everywhere holds
  | .evaluated value => value.Everywhere holds
  | .conditional test consequent alternative _ =>
      test.Everywhere holds ∧ consequent.Everywhere holds ∧ alternative.Everywhere holds
  | .whileLoop test body _ => test.Everywhere holds ∧ body.Everywhere holds
  | .forLoop initial test increment body _ =>
      initial.Everywhere holds ∧ test.Everywhere holds ∧ increment.Everywhere holds ∧
        body.Everywhere holds
  | .unknown _ _ => True
  | .missing => True

/-- The condition holds of all expressions in a list of statements. -/
def Statement.AllEverywhere (holds : Expression → Prop) : List Statement → Prop
  | [] => True
  | first :: rest => first.Everywhere holds ∧ Statement.AllEverywhere holds rest

end

/-- The condition holds of all expressions in a declaration. -/
def Declaration.Everywhere (holds : Expression → Prop) : Declaration → Prop
  | .classType _ constructor? methods _ =>
      (∀ node ∈ constructor?, node.body.Everywhere holds) ∧
        ∀ node ∈ methods, node.body.Everywhere holds
  | .function _ _ body _ => body.Everywhere holds
  | .constant _ value _ => value.Everywhere holds
  | .statement body => body.Everywhere holds
  | .imported _ _ _ _ => True
  | .typeName _ _ _ => True

/-- The condition holds of all expressions in a program. -/
def Program.Everywhere (holds : Expression → Prop) (program : Program) : Prop :=
  ∀ declaration ∈ program.declarations, declaration.Everywhere holds

mutual

/-- How many expressions are nested in an expression. -/
def Expression.nesting : Expression → Nat
  | .array values _ => Expression.itemNesting values
  | .invocation callee arguments _ => max callee.nesting (Expression.itemNesting arguments)
  | .member target _ _ => target.nesting
  | .index target position _ => max target.nesting (position.nesting + 1)
  | .binary _ left right =>
      max (left.nesting + if left.isBinary then 1 else 0)
        (right.nesting + if right.isBinary then 1 else 0)
  | .closure _ body _ => body.nesting
  | .construction _ arguments _ => Expression.itemNesting arguments
  | .bool _ _ => 0
  | .number _ _ _ => 0
  | .string _ _ => 0
  | .identifier _ => 0
  | .rawCode _ _ => 0
  | .unknown _ _ => 0
  | .missing => 0

/-- How many expressions are nested in a list of items. -/
def Expression.itemNesting : List Expression → Nat
  | [] => 0
  | first :: rest => max (first.nesting + 1) (Expression.itemNesting rest)

/-- How many expressions are nested in a block. -/
def Block.nesting : Block → Nat
  | .of statements _ => Statement.allNesting statements
  | .missing => 0

/-- How many expressions are nested in a statement. -/
def Statement.nesting : Statement → Nat
  | .returned value _ => value.nesting + 1
  | .declared _ value _ => value.nesting + 1
  | .assigned target value => max (target.nesting + 1) (value.nesting + 1)
  | .evaluated value => value.nesting + 1
  | .conditional test consequent alternative _ =>
      max (test.nesting + 1) (max consequent.nesting alternative.nesting)
  | .whileLoop test body _ => max (test.nesting + 1) body.nesting
  | .forLoop initial test increment body _ =>
      max (max initial.nesting (if test.isPresent then test.nesting + 1 else 0))
        (max increment.nesting body.nesting)
  | .unknown _ _ => 0
  | .missing => 0

/-- How many expressions are nested in a list of statements. -/
def Statement.allNesting : List Statement → Nat
  | [] => 0
  | first :: rest => max first.nesting (Statement.allNesting rest)

end

namespace Declaration

/-- How many expressions are nested in a declaration. -/
def nesting : Declaration → Nat
  | classType _ constructor? methods _ =>
      max ((constructor?.map (·.body.nesting)).getD 0)
        ((methods.map (·.body.nesting)).foldr max 0)
  | function _ _ body _ => body.nesting
  | constant _ value _ => value.nesting + 1
  | statement body => body.nesting
  | imported _ _ _ _ => 0
  | typeName _ _ _ => 0

/-- The declaration is an expression or an assignment whose text begins with `fonction`. -/
def leadsWithClosure : Declaration → Bool
  | statement (.evaluated value) => value.leadsWithClosure
  | statement (.assigned target _) => target.leadsWithClosure
  | _ => false

end Declaration

/-- How many expressions are nested in a program. -/
def Program.nesting (program : Program) : Nat :=
  (program.declarations.map Declaration.nesting).foldr max 0

end FrenchNim
