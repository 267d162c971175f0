import FrenchNim.Proofs.Emission
import FrenchNim.Proofs.Syntax.Renaming

namespace FrenchNim

/-!
# Self-reference in a constructor

Inside a constructor the self-reference stands for the result. Nothing else
changes there: emitting a tree inside a constructor is emitting it outside, after
the self-reference was renamed to the result wherever it is an expression.
-/

namespace Nim

/-- The result in place of the self-reference. -/
def selfAsResult (name : String) : String :=
  if name = selfName then resultName else name

/-- The result is no self-reference. -/
theorem selfAsResult_comp_selfAsResult : selfAsResult ∘ selfAsResult = selfAsResult := by
  funext name
  rw [Function.comp_apply, selfAsResult]
  by_cases isSelf : name = selfName
  · rw [isSelf]
    rfl
  · rw [selfAsResult, if_neg isSelf, if_neg isSelf]

/-- The place of the given depth, inside a constructor or outside of all constructors. -/
theorem nested_mk (depth : Nat) (inConstructor : Bool) :
    Place.nested ⟨depth, inConstructor⟩ = ⟨depth + 1, inConstructor⟩ :=
  rfl

/-- Lines are indented alike inside and outside of constructors. -/
theorem indentation_mk (depth : Nat) (inConstructor : Bool) :
    Place.indentation ⟨depth, inConstructor⟩ = String.ofList (List.replicate (2 * depth) ' ') :=
  rfl

/-- In a constructor, a name is emitted as the renamed name is elsewhere. -/
theorem name_inConstructor (depth : Nat) (identifier : Identifier) :
    name ⟨depth, true⟩ identifier = name ⟨depth, false⟩ (identifier.rename selfAsResult) := by
  by_cases isSelf : identifier.name = selfName
  · simp [name, Identifier.rename, selfAsResult, isSelf]
  · simp [name, Identifier.rename, selfAsResult, isSelf]

/-- Renaming does not change whether a call ignores its arguments. -/
theorem ignoresArguments_rename (change : String → String) (callee : Expression) :
    ignoresArguments (callee.rename change) = ignoresArguments callee := by
  cases callee <;> rfl

/-- A clause of a `for` loop is emitted alike if its statement is. -/
theorem emitClause_inConstructor
    (depth : Nat)
    {clause : Statement}
    (same : emitStatement ⟨depth, true⟩ clause =
      emitStatement ⟨depth, false⟩ (clause.rename selfAsResult)) :
    emitClause ⟨depth, true⟩ clause =
      emitClause ⟨depth, false⟩ (clause.rename selfAsResult) := by
  cases clause with
  | missing => rfl
  | _ => exact same

/-- The test of a `for` loop is emitted alike if its expression is. -/
theorem emitTest_inConstructor
    (depth : Nat)
    {test : Expression}
    (same : emitExpression ⟨depth, true⟩ test =
      emitExpression ⟨depth, false⟩ (test.rename selfAsResult)) :
    emitTest ⟨depth, true⟩ test =
      emitTest ⟨depth, false⟩ (test.rename selfAsResult) := by
  cases test with
  | missing => rfl
  | _ => exact same

mutual

/-- In a constructor, an expression is emitted as the renamed one is elsewhere. -/
theorem emitExpression_inConstructor (depth : Nat) :
    ∀ value : Expression,
      emitExpression ⟨depth, true⟩ value =
        emitExpression ⟨depth, false⟩ (value.rename selfAsResult)
  | .bool _ _ | .number _ _ _ | .string _ _ | .array [] _ => rfl
  | .array (first :: rest) _ => by
      simp only [Expression.rename, Expression.renameAll, emitExpression,
        emitExpression_inConstructor depth first, emitExpressions_inConstructor depth rest]
  | .identifier identifier => by
      simp only [Expression.rename, emitExpression, name_inConstructor]
  | .invocation callee arguments _ => by
      simp only [Expression.rename, emitExpression_invocation, ignoresArguments_rename,
        emitExpression_inConstructor depth callee, emitExpressions_inConstructor depth arguments]
  | .member target _ _ => by
      simp only [Expression.rename, emitExpression, emitExpression_inConstructor depth target]
  | .index target position _ => by
      simp only [Expression.rename, emitExpression, emitExpression_inConstructor depth target,
        emitExpression_inConstructor depth position]
  | .binary _ left right => by
      simp only [Expression.rename, emitExpression, emitExpression_inConstructor depth left,
        emitExpression_inConstructor depth right]
  | .closure _ body _ => by
      simp only [Expression.rename, emitExpression, nested_mk,
        emitBlock_inConstructor (depth + 1) body]
  | .construction callee arguments _ => by
      simp only [Expression.rename, emitExpression, emitExpression_inConstructor depth callee,
        emitExpressions_inConstructor depth arguments]
  | .rawCode _ _ | .unknown _ _ | .missing => rfl

theorem emitExpressions_inConstructor (depth : Nat) :
    ∀ values : List Expression,
      emitExpressions ⟨depth, true⟩ values =
        emitExpressions ⟨depth, false⟩ (Expression.renameAll selfAsResult values)
  | [] => rfl
  | first :: rest => by
      simp only [Expression.renameAll, emitExpressions, emitExpression_inConstructor depth first,
        emitExpressions_inConstructor depth rest]

/-- In a constructor, a block is emitted as the renamed one is elsewhere. -/
theorem emitBlock_inConstructor (depth : Nat) :
    ∀ block : Block,
      emitBlock ⟨depth, true⟩ block = emitBlock ⟨depth, false⟩ (block.rename selfAsResult)
  | .of statements _ => by
      simp only [Block.rename, emitBlock, emitStatements_inConstructor depth statements]
  | .missing => rfl

theorem emitStatements_inConstructor (depth : Nat) :
    ∀ nodes : List Statement,
      emitStatements ⟨depth, true⟩ nodes =
        emitStatements ⟨depth, false⟩ (Statement.renameAll selfAsResult nodes)
  | [] => rfl
  | first :: rest => by
      simp only [Statement.renameAll, emitStatements, emitStatement_inConstructor depth first,
        emitStatements_inConstructor depth rest]

/-- In a constructor, a statement is emitted as the renamed one is elsewhere. -/
theorem emitStatement_inConstructor (depth : Nat) :
    ∀ node : Statement,
      emitStatement ⟨depth, true⟩ node =
        emitStatement ⟨depth, false⟩ (node.rename selfAsResult)
  | .returned value _ | .declared _ value _ | .evaluated value => by
      simp only [Statement.rename, emitStatement, indentation_mk,
        emitExpression_inConstructor depth value]
  | .assigned target value => by
      simp only [Statement.rename, emitStatement, indentation_mk,
        emitExpression_inConstructor depth target, emitExpression_inConstructor depth value]
  | .conditional test consequent alternative _ => by
      simp only [Statement.rename, emitStatement, indentation_mk, nested_mk,
        Block.rename_isEmpty, emitExpression_inConstructor depth test,
        emitBlock_inConstructor (depth + 1) consequent,
        emitBlock_inConstructor (depth + 1) alternative]
  | .whileLoop test body _ => by
      simp only [Statement.rename, emitStatement, indentation_mk, nested_mk,
        emitExpression_inConstructor depth test, emitBlock_inConstructor (depth + 1) body]
  | .forLoop initial test increment body _ => by
      have initialSame := emitStatement_inConstructor depth initial
      have testSame := emitExpression_inConstructor depth test
      have incrementSame := emitStatement_inConstructor (depth + 1) increment
      simp only [Statement.rename, emitStatement_forLoop, indentation_mk, nested_mk,
        emitClause_inConstructor depth initialSame, emitTest_inConstructor depth testSame,
        emitBlock_inConstructor (depth + 1) body,
        emitClause_inConstructor (depth + 1) incrementSame]
  | .unknown _ _ | .missing => rfl

end

/--
Code that is emitted inside a constructor is the code outside of constructors, with the result in
place of every self-reference. Where no self-reference is left, there is no difference at all.
-/
theorem emit_inConstructor (depth : Nat) :
    (∀ value : Expression,
      emitExpression ⟨depth, true⟩ value =
        emitExpression ⟨depth, false⟩ (value.rename selfAsResult)) ∧
    (∀ node : Statement,
      emitStatement ⟨depth, true⟩ node =
        emitStatement ⟨depth, false⟩ (node.rename selfAsResult)) ∧
    (∀ block : Block,
      emitBlock ⟨depth, true⟩ block =
        emitBlock ⟨depth, false⟩ (block.rename selfAsResult)) ∧
    (∀ value : Expression,
      emitExpression ⟨depth, true⟩ (value.rename selfAsResult) =
        emitExpression ⟨depth, false⟩ (value.rename selfAsResult)) ∧
    (∀ node : Statement,
      emitStatement ⟨depth, true⟩ (node.rename selfAsResult) =
        emitStatement ⟨depth, false⟩ (node.rename selfAsResult)) ∧
    (∀ block : Block,
      emitBlock ⟨depth, true⟩ (block.rename selfAsResult) =
        emitBlock ⟨depth, false⟩ (block.rename selfAsResult)) := by
  refine ⟨emitExpression_inConstructor depth, emitStatement_inConstructor depth,
    emitBlock_inConstructor depth, fun value => ?_, fun node => ?_, fun block => ?_⟩
  · rw [emitExpression_inConstructor, Expression.rename_rename, selfAsResult_comp_selfAsResult]
  · rw [emitStatement_inConstructor, Statement.rename_rename, selfAsResult_comp_selfAsResult]
  · rw [emitBlock_inConstructor, Block.rename_rename, selfAsResult_comp_selfAsResult]

end Nim

end FrenchNim
