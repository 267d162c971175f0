import FrenchNim.Proofs.Nim.Positions
import FrenchNim.Syntax.Render

namespace FrenchNim

/-!
# Rendering does not look at positions

The source text of a tree is put together from names, literals and keywords
only, so a tree and the same tree with other positions have the same text.
-/

section Rendering

variable (move : Position → Position)

namespace Render

/-- A parameter list is written by the letters of its names. -/
@[simp] theorem parameters_relocate (names : List Identifier) :
    parameters (names.map (·.relocate move)) = parameters names := by
  unfold parameters
  rw [List.map_map]
  rfl

/-- Whether an operand needs parentheses is a matter of its form. -/
@[simp] theorem operand_relocate (value : Expression) (text : String) :
    operand (value.relocate move) text = operand value text := by
  cases value <;> rfl

end Render

mutual

/-- The text of an expression does not depend on its positions. -/
theorem Expression.render_relocate (depth : Nat) :
    ∀ value : Expression, (value.relocate move).render depth = value.render depth
  | .bool _ _ => rfl
  | .number _ _ _ => rfl
  | .string _ _ => rfl
  | .array values _ => by
      rw [Expression.relocate, Expression.render, Expression.renderAll_relocate depth values]
      rfl
  | .identifier _ => rfl
  | .invocation callee arguments _ => by
      rw [Expression.relocate, Expression.render, Expression.render_relocate depth callee,
        Expression.renderAll_relocate depth arguments]
      rfl
  | .member target _ _ => by
      rw [Expression.relocate, Expression.render, Expression.render_relocate depth target]
      rfl
  | .index target position _ => by
      rw [Expression.relocate, Expression.render, Expression.render_relocate depth target,
        Expression.render_relocate depth position]
      rfl
  | .binary operator left right => by
      rw [Expression.relocate, Expression.render, Expression.render_relocate depth left,
        Expression.render_relocate depth right, Render.operand_relocate,
        Render.operand_relocate]
      rfl
  | .closure parameters body _ => by
      rw [Expression.relocate, Expression.render, Block.render_relocate depth body,
        Render.parameters_relocate]
      rfl
  | .construction callee arguments _ => by
      rw [Expression.relocate, Expression.render, Expression.render_relocate depth callee,
        Expression.renderAll_relocate depth arguments]
      rfl
  | .rawCode _ _ => rfl
  | .unknown _ _ => rfl
  | .missing => rfl

theorem Expression.renderAll_relocate (depth : Nat) :
    ∀ values : List Expression, Expression.renderAll depth (Expression.relocateAll move values) =
      Expression.renderAll depth values
  | [] => rfl
  | first :: rest => by
      rw [Expression.relocateAll, Expression.renderAll, Expression.render_relocate depth first,
        Expression.renderAll_relocate depth rest]
      rfl

/-- The text of a block does not depend on its positions. -/
theorem Block.render_relocate (depth : Nat) :
    ∀ block : Block, (block.relocate move).render depth = block.render depth
  | .of statements _ => by
      rw [Block.relocate, Block.render, Statement.renderAll_relocate (depth + 1) statements]
      rfl
  | .missing => rfl

/-- The text of a statement does not depend on its positions. -/
theorem Statement.render_relocate (depth : Nat) :
    ∀ node : Statement, (node.relocate move).render depth = node.render depth
  | .returned value _ => by
      rw [Statement.relocate, Statement.render, Expression.render_relocate depth value]
      rfl
  | .declared _ value _ => by
      rw [Statement.relocate, Statement.render, Expression.render_relocate depth value]
      rfl
  | .assigned target value => by
      rw [Statement.relocate, Statement.render, Expression.render_relocate depth target,
        Expression.render_relocate depth value]
      rfl
  | .evaluated value => by
      rw [Statement.relocate, Statement.render, Expression.render_relocate depth value]
      rfl
  | .conditional test consequent .missing _ => by
      simp only [Statement.relocate, Block.relocate, Statement.render,
        Expression.render_relocate depth test, Block.render_relocate depth consequent]
  | .conditional test consequent (.of statements span) _ => by
      have alternative := Block.render_relocate depth (.of statements span)
      rw [Block.relocate] at alternative
      simp only [Statement.relocate, Block.relocate, Statement.render,
        Expression.render_relocate depth test, Block.render_relocate depth consequent,
        alternative]
  | .whileLoop test body _ => by
      rw [Statement.relocate, Statement.render, Expression.render_relocate depth test,
        Block.render_relocate depth body]
      rfl
  | .forLoop initial test increment body _ => by
      rw [Statement.relocate, Statement.render, Statement.render_relocate depth initial,
        Expression.render_relocate depth test, Statement.render_relocate depth increment,
        Block.render_relocate depth body]
      rfl
  | .unknown _ _ => rfl
  | .missing => rfl

theorem Statement.renderAll_relocate (depth : Nat) :
    ∀ nodes : List Statement, Statement.renderAll depth (Statement.relocateAll move nodes) =
      Statement.renderAll depth nodes
  | [] => rfl
  | first :: rest => by
      rw [Statement.relocateAll, Statement.renderAll, Statement.render_relocate depth first,
        Statement.renderAll_relocate depth rest]
      rfl

end

/-- The text of a constructor does not depend on its positions. -/
theorem Constructor.render_relocate (depth : Nat) (node : Constructor) :
    (node.relocate move).render depth = node.render depth := by
  simp only [Constructor.render, Constructor.relocate, Render.parameters_relocate,
    Block.render_relocate]

/-- The text of a method does not depend on its positions. -/
theorem Method.render_relocate (depth : Nat) (node : Method) :
    (node.relocate move).render depth = node.render depth := by
  simp only [Method.render, Method.relocate, Identifier.relocate_name,
    Render.parameters_relocate, Block.render_relocate]

namespace Declaration

theorem renderMembers_relocate (constructor? : Option Constructor) (methods : List Method) :
    renderMembers (constructor?.map (·.relocate move)) (methods.map (·.relocate move)) =
      renderMembers constructor? methods := by
  unfold renderMembers
  rw [Option.map_map, List.map_map]
  congr 3
  · exact funext (Constructor.render_relocate move 1)
  · exact funext (Method.render_relocate move 1)

/-- The text of a declaration does not depend on its positions. -/
theorem render_relocate (declaration : Declaration) :
    (declaration.relocate move).render = declaration.render := by
  cases declaration with
  | imported module alias? path span =>
      cases alias? <;> rfl
  | classType name constructor? methods span =>
      simp only [relocate, render, renderMembers_relocate, Identifier.relocate_name]
  | function name parameters body first =>
      simp only [relocate, render, Identifier.relocate_name, Render.parameters_relocate,
        Block.render_relocate]
  | typeName name external span =>
      rfl
  | constant name value first =>
      simp only [relocate, render, Identifier.relocate_name, Expression.render_relocate]
  | statement body =>
      exact Statement.render_relocate move 0 body

end Declaration

namespace Program

/-- How many line breaks stand between two declarations is a matter of what they are. -/
theorem separator_relocate (left right : Declaration) :
    separator (left.relocate move) (right.relocate move) = separator left right := by
  rw [separator, Nim.isImport_relocate, Nim.isImport_relocate]
  rfl

/-- The text behind a declaration does not depend on positions. -/
theorem renderAfter_relocate (previous : Declaration) (following : List Declaration) :
    renderAfter (previous.relocate move) (following.map (·.relocate move)) =
      renderAfter previous following := by
  induction following generalizing previous with
  | nil =>
      rfl
  | cons next rest inductionHypothesis =>
      rw [List.map_cons, renderAfter, separator_relocate, Declaration.render_relocate,
        inductionHypothesis, renderAfter]

/-- The canonical source text of a program does not depend on positions. -/
theorem render_relocate (program : Program) :
    (program.relocate move).render = program.render := by
  unfold render relocate
  cases program.declarations with
  | nil =>
      rfl
  | cons first rest =>
      simp only [List.map_cons, Declaration.render_relocate, renderAfter_relocate]

end Program

end Rendering

end FrenchNim
