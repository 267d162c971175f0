import FrenchNim.Proofs.Emission
import FrenchNim.Proofs.Syntax.Relocation

namespace FrenchNim

/-!
# Emission does not look at positions

Positions reach the result of emission only through the node that a failure
names. So a tree and the same tree with other positions have the same Nim code,
if they have any. The statements compare results as options, which forget what
a failure names.
-/

/-- The result of a step after another one. -/
theorem toOption_bind
    {α β : Type}
    (first : Except UnsupportedNode α)
    (next : α → Except UnsupportedNode β) :
    (first >>= next).toOption = first.toOption.bind fun value => (next value).toOption := by
  cases first <;> rfl

/-- A result is kept. -/
@[simp] theorem toOption_pure {α : Type} (value : α) :
    (pure value : Except UnsupportedNode α).toOption = some value :=
  rfl

/-- Moving a block neither fills nor empties it. -/
theorem Block.relocate_isEmpty (move : Position → Position) (block : Block) :
    (block.relocate move).isEmpty = block.isEmpty := by
  cases block with
  | of statements span =>
      cases statements <;> rfl
  | missing =>
      rfl

/-- Moving a block leaves its immediate returns where they are. -/
theorem Block.relocate_returns (move : Position → Position) (block : Block) :
    (block.relocate move).returns = block.returns := by
  cases block with
  | of statements span =>
      unfold Block.returns
      rw [Block.relocate, Block.statements, Statement.relocateAll_eq_map, List.any_map]
      refine congrArg (List.any statements) (funext fun node => ?_)
      cases node <;> rfl
  | missing =>
      rfl

namespace Nim

variable (move : Position → Position)

@[simp] theorem parameterList_relocate (leading : List String) (parameters : List Identifier) :
    parameterList leading (parameters.map (·.relocate move)) =
      parameterList leading parameters := by
  unfold parameterList
  rw [List.map_map]
  rfl

/-- A clause of a `for` loop is emitted alike if its statement is. -/
theorem emitClause_relocate
    (place : Place)
    {clause : Statement}
    (same : (emitStatement place (clause.relocate move)).toOption =
      (emitStatement place clause).toOption) :
    (emitClause place (clause.relocate move)).toOption = (emitClause place clause).toOption := by
  cases clause with
  | missing => rfl
  | _ => exact same

/-- The test of a `for` loop is emitted alike if its expression is. -/
theorem emitTest_relocate
    (place : Place)
    {test : Expression}
    (same : (emitExpression place (test.relocate move)).toOption =
      (emitExpression place test).toOption) :
    (emitTest place (test.relocate move)).toOption = (emitTest place test).toOption := by
  cases test with
  | missing => rfl
  | _ => exact same

mutual

/-- The code of an expression does not depend on its positions. -/
theorem emitExpression_relocate (place : Place) :
    ∀ value : Expression, (emitExpression place (value.relocate move)).toOption =
      (emitExpression place value).toOption
  | .bool _ _ => rfl
  | .number _ _ _ => rfl
  | .string _ _ => rfl
  | .array [] _ => rfl
  | .array (first :: rest) _ => by
      simp only [Expression.relocate, Expression.relocateAll, emitExpression, toOption_bind,
        emitExpression_relocate place first, emitExpressions_relocate place rest]
  | .identifier _ => rfl
  | .invocation callee arguments _ => by
      have ignored : ignoresArguments (callee.relocate move) = ignoresArguments callee := by
        cases callee <;> rfl
      simp only [Expression.relocate, emitExpression_invocation, toOption_bind, ignored,
        emitExpression_relocate place callee]
      split
      · rfl
      · simp only [toOption_bind, emitExpressions_relocate place arguments]
  | .member target _ _ => by
      simp only [Expression.relocate, emitExpression, toOption_bind,
        emitExpression_relocate place target]
      rfl
  | .index target position _ => by
      simp only [Expression.relocate, emitExpression, toOption_bind,
        emitExpression_relocate place target, emitExpression_relocate place position]
  | .binary operator left right => by
      simp only [Expression.relocate, emitExpression, toOption_bind,
        emitExpression_relocate place left, emitExpression_relocate place right]
  | .closure parameters body _ => by
      simp only [Expression.relocate, emitExpression, toOption_bind, parameterList_relocate,
        emitBlock_relocate place.nested body]
  | .construction callee arguments _ => by
      simp only [Expression.relocate, emitExpression, toOption_bind,
        emitExpression_relocate place callee, emitExpressions_relocate place arguments]
  | .rawCode _ _ => rfl
  | .unknown _ _ => rfl
  | .missing => rfl

theorem emitExpressions_relocate (place : Place) :
    ∀ values : List Expression,
      (emitExpressions place (Expression.relocateAll move values)).toOption =
        (emitExpressions place values).toOption
  | [] => rfl
  | first :: rest => by
      simp only [Expression.relocateAll, emitExpressions, toOption_bind,
        emitExpression_relocate place first, emitExpressions_relocate place rest]

/-- The code of a block does not depend on its positions. -/
theorem emitBlock_relocate (place : Place) :
    ∀ block : Block, (emitBlock place (block.relocate move)).toOption =
      (emitBlock place block).toOption
  | .of statements _ => by
      simp only [Block.relocate, emitBlock, emitStatements_relocate place statements]
  | .missing => rfl

theorem emitStatements_relocate (place : Place) :
    ∀ nodes : List Statement,
      (emitStatements place (Statement.relocateAll move nodes)).toOption =
        (emitStatements place nodes).toOption
  | [] => rfl
  | first :: rest => by
      simp only [Statement.relocateAll, emitStatements, toOption_bind,
        emitStatement_relocate place first, emitStatements_relocate place rest]

/-- The code of a statement does not depend on its positions. -/
theorem emitStatement_relocate (place : Place) :
    ∀ node : Statement, (emitStatement place (node.relocate move)).toOption =
      (emitStatement place node).toOption
  | .returned value _ => by
      simp only [Statement.relocate, emitStatement, toOption_bind,
        emitExpression_relocate place value]
  | .declared _ value _ => by
      simp only [Statement.relocate, emitStatement, toOption_bind,
        emitExpression_relocate place value]
      rfl
  | .assigned target value => by
      simp only [Statement.relocate, emitStatement, toOption_bind,
        emitExpression_relocate place target, emitExpression_relocate place value]
  | .evaluated value => by
      simp only [Statement.relocate, emitStatement, toOption_bind,
        emitExpression_relocate place value]
  | .conditional test consequent alternative _ => by
      simp only [Statement.relocate, emitStatement, toOption_bind, Block.relocate_isEmpty,
        emitExpression_relocate place test, emitBlock_relocate place.nested consequent,
        emitBlock_relocate place.nested alternative]
  | .whileLoop test body _ => by
      simp only [Statement.relocate, emitStatement, toOption_bind,
        emitExpression_relocate place test, emitBlock_relocate place.nested body]
  | .forLoop initial test increment body _ => by
      have initialSame := emitStatement_relocate place initial
      have testSame := emitExpression_relocate place test
      have incrementSame := emitStatement_relocate place.nested increment
      simp only [Statement.relocate, emitStatement_forLoop, toOption_bind,
        emitClause_relocate move place initialSame, emitTest_relocate move place testSame,
        emitClause_relocate move place.nested incrementSame,
        emitBlock_relocate place.nested body]
  | .unknown _ _ => rfl
  | .missing => rfl

end

/-- The code of a procedure does not depend on the positions of its body. -/
theorem emitProcedure_relocate (name parameters : String) (body : Block) :
    (emitProcedure name parameters (body.relocate move)).toOption =
      (emitProcedure name parameters body).toOption := by
  simp only [emitProcedure, toOption_bind, emitBlock_relocate, Block.relocate_returns]

/-- The code of a constructor does not depend on its positions. -/
theorem emitConstructor_relocate (className : String) (constructor? : Option Constructor) :
    (emitConstructor className (constructor?.map (·.relocate move))).toOption =
      (emitConstructor className constructor?).toOption := by
  cases constructor? with
  | none =>
      rfl
  | some node =>
      simp only [emitConstructor, Option.map_some, Option.getD_some, Constructor.relocate,
        toOption_bind, emitBlock_relocate, parameterList_relocate]

theorem emitMethods_relocate (className : String) (methods : List Method) :
    (emitMethods className (methods.map (·.relocate move))).toOption =
      (emitMethods className methods).toOption := by
  induction methods with
  | nil =>
      rfl
  | cons method rest inductionHypothesis =>
      simp only [List.map_cons, emitMethods, toOption_bind, inductionHypothesis]
      simp only [Method.relocate, Identifier.relocate_name, parameterList_relocate,
        emitProcedure_relocate]

/-- The fields of a class are the parameters of its constructor, wherever it stands. -/
theorem fields?_relocate (constructor? : Option Constructor) :
    Declaration.fields? (constructor?.map (·.relocate move)) =
      Declaration.fields? constructor? := by
  cases constructor? with
  | none =>
      rfl
  | some node =>
      simp only [Declaration.fields?, Option.map_some, Constructor.relocate, List.map_map]
      rfl

/-- The code of a declaration does not depend on its positions. -/
theorem emitDeclaration_relocate (declaration : Declaration) :
    (emitDeclaration (declaration.relocate move)).toOption =
      (emitDeclaration declaration).toOption := by
  cases declaration with
  | imported | typeName =>
      rfl
  | classType name constructor? methods span =>
      simp only [Declaration.relocate, emitDeclaration, toOption_bind, fields?_relocate,
        Identifier.relocate_name, emitConstructor_relocate, emitMethods_relocate]
  | function name parameters body first =>
      simp only [Declaration.relocate, emitDeclaration, parameterList_relocate,
        Identifier.relocate_name, emitProcedure_relocate]
  | constant name value first =>
      simp only [Declaration.relocate, emitDeclaration, toOption_bind, Identifier.relocate_name,
        emitExpression_relocate]
  | statement body =>
      exact emitStatement_relocate move Place.top body

/-- A moved declaration is an import if it was one. -/
theorem isImport_relocate (declaration : Declaration) :
    (declaration.relocate move).isImport = declaration.isImport := by
  cases declaration <;> rfl

/-- The codes of several declarations do not depend on their positions. -/
theorem emitDeclarations_relocate (declarations : List Declaration) :
    (emitDeclarations (declarations.map (·.relocate move))).toOption =
      (emitDeclarations declarations).toOption := by
  induction declarations with
  | nil =>
      rfl
  | cons first rest inductionHypothesis =>
      rw [List.map_cons, emitDeclarations, emitDeclarations, isImport_relocate]
      split
      · exact inductionHypothesis
      · simp only [toOption_bind, emitDeclaration_relocate, inductionHypothesis]

/-- The code of an import does not depend on its positions. -/
theorem emitImport?_relocate (declaration : Declaration) :
    emitImport? (declaration.relocate move) = emitImport? declaration := by
  cases declaration with
  | imported module alias? path span => cases alias? <;> rfl
  | _ => rfl

end Nim

/-- The Nim module of a program, if there is one, does not depend on positions. -/
theorem generate_relocate
    (move : Position → Position)
    (library : String)
    (program : Program) :
    (generate library (program.relocate move)).toOption =
      (generate library program).toOption := by
  have imports : (program.declarations.map (·.relocate move)).filterMap Nim.emitImport? =
      program.declarations.filterMap Nim.emitImport? := by
    rw [List.filterMap_map]
    exact congrArg (List.filterMap · _) (funext (Nim.emitImport?_relocate move))
  simp only [generate, Program.relocate, toOption_bind, imports, Nim.emitDeclarations_relocate]

end FrenchNim
