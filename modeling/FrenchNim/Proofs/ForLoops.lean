import FrenchNim.Proofs.Emission
import FrenchNim.Proofs.Formatting
import FrenchNim.Proofs.Syntax.Desugaring

namespace FrenchNim

/-!
# For loops in Nim

A for loop has the Nim code of the while loop that stands for it. So replacing
all for loops of a block, at any depth, does not change its code. A procedure
declares a result if its body returns at once; replacing the for loops makes a
difference to that only where the first clause of a loop returns, which no loop
of a source does.
-/

namespace Nim

variable (place : Place)

/-- Statements in a row are emitted in a row. -/
theorem emitStatements_append (front behind : List Statement) :
    emitStatements place (front ++ behind) = do
      let before ← emitStatements place front
      let after ← emitStatements place behind
      return before ++ after := by
  induction front with
  | nil =>
      rw [List.nil_append, emitStatements, pure_bind]
      simp only [String.empty_append, bind_pure]
  | cons first rest inductionHypothesis =>
      rw [List.cons_append, emitStatements, emitStatements, inductionHypothesis]
      simp only [bind_assoc, pure_bind, String.append_assoc]

/-- A single statement is emitted as it is. -/
theorem emitStatements_singleton (node : Statement) :
    emitStatements place [node] = emitStatement place node := by
  rw [emitStatements, emitStatements]
  simp

/-- Statements at the end of a block are emitted behind it. -/
theorem emitBlock_append (block : Block) (more : List Statement) :
    emitBlock place (block.append more) = do
      let before ← emitBlock place block
      let after ← emitStatements place more
      return before ++ after := by
  cases more with
  | nil =>
      rw [Block.append, emitStatements]
      simp
  | cons first rest =>
      cases block with
      | of statements span => exact emitStatements_append place statements (first :: rest)
      | missing =>
          change emitStatements place (first :: rest) = _
          rw [emitBlock, pure_bind]
          simp only [String.empty_append, bind_pure]

/-- Replacing loops does not change whether a call ignores its arguments. -/
theorem ignoresArguments_desugar (callee : Expression) :
    ignoresArguments callee.desugar = ignoresArguments callee := by
  cases callee <;> rfl

variable {place}

/-- A clause is emitted as the statements that stand for it, none if it is missing. -/
theorem emitStatements_desugarClause
    {clause : Statement}
    (same : emitStatements place clause.desugar = emitStatement place clause) :
    emitStatements place clause.desugarClause = emitClause place clause := by
  cases clause with
  | missing => rfl
  | _ => exact same

/-- A missing test is emitted as the value that is always true. -/
theorem emitExpression_orTrue
    {test : Expression}
    (same : emitExpression place test.desugar = emitExpression place test) :
    emitExpression place test.desugar.orTrue = emitTest place test := by
  cases test with
  | missing => rfl
  | _ => exact same

variable (place)

mutual

/-- Replacing the loops in its closures does not change the code of an expression. -/
theorem emitExpression_desugar (place : Place) :
    ∀ value : Expression, emitExpression place value.desugar = emitExpression place value
  | .bool _ _ | .number _ _ _ | .string _ _ | .identifier _ | .array [] _ => rfl
  | .array (first :: rest) _ => by
      simp only [Expression.desugar, Expression.desugarAll, emitExpression,
        emitExpression_desugar place first, emitExpressions_desugarAll place rest]
  | .invocation callee arguments _ => by
      simp only [Expression.desugar, emitExpression_invocation, ignoresArguments_desugar,
        emitExpression_desugar place callee, emitExpressions_desugarAll place arguments]
  | .member target _ _ => by
      simp only [Expression.desugar, emitExpression, emitExpression_desugar place target]
  | .index target position _ => by
      simp only [Expression.desugar, emitExpression, emitExpression_desugar place target,
        emitExpression_desugar place position]
  | .binary _ left right => by
      simp only [Expression.desugar, emitExpression, emitExpression_desugar place left,
        emitExpression_desugar place right]
  | .closure _ body _ => by
      simp only [Expression.desugar, emitExpression, emitBlock_desugar place.nested body]
  | .construction callee arguments _ => by
      simp only [Expression.desugar, emitExpression, emitExpression_desugar place callee,
        emitExpressions_desugarAll place arguments]
  | .rawCode _ _ | .unknown _ _ | .missing => rfl

theorem emitExpressions_desugarAll (place : Place) :
    ∀ values : List Expression,
      emitExpressions place (Expression.desugarAll values) = emitExpressions place values
  | [] => rfl
  | first :: rest => by
      simp only [Expression.desugarAll, emitExpressions, emitExpression_desugar place first,
        emitExpressions_desugarAll place rest]

/-- Replacing the loops of a block does not change its code. -/
theorem emitBlock_desugar (place : Place) :
    ∀ block : Block, emitBlock place block.desugar = emitBlock place block
  | .of statements _ => by
      simp only [Block.desugar, emitBlock, emitStatements_desugarAll place statements]
  | .missing => rfl

theorem emitStatements_desugarAll (place : Place) :
    ∀ nodes : List Statement,
      emitStatements place (Statement.desugarAll nodes) = emitStatements place nodes
  | [] => rfl
  | first :: rest => by
      rw [Statement.desugarAll, emitStatements_append, emitStatements_desugar place first,
        emitStatements_desugarAll place rest, emitStatements]

/-- The statements that stand for a statement have its code. -/
theorem emitStatements_desugar (place : Place) :
    ∀ node : Statement, emitStatements place node.desugar = emitStatement place node
  | .returned value _ | .declared _ value _ | .evaluated value => by
      simp only [Statement.desugar, emitStatements_singleton, emitStatement,
        emitExpression_desugar place value]
  | .assigned target value => by
      simp only [Statement.desugar, emitStatements_singleton, emitStatement,
        emitExpression_desugar place target, emitExpression_desugar place value]
  | .conditional test consequent alternative _ => by
      simp only [Statement.desugar, emitStatements_singleton, emitStatement,
        Block.isEmpty_desugar, emitExpression_desugar place test,
        emitBlock_desugar place.nested consequent, emitBlock_desugar place.nested alternative]
  | .whileLoop test body _ => by
      simp only [Statement.desugar, emitStatements_singleton, emitStatement,
        emitExpression_desugar place test, emitBlock_desugar place.nested body]
  | .forLoop initial test increment body _ => by
      have initialSame := emitStatements_desugarClause (emitStatements_desugar place initial)
      have testSame := emitExpression_orTrue (emitExpression_desugar place test)
      have incrementSame :=
        emitStatements_desugarClause (emitStatements_desugar place.nested increment)
      rw [Statement.desugar_forLoop, emitStatements_append, emitStatements_singleton,
        emitStatement_forLoop, initialSame, emitStatement, testSame, emitBlock_append,
        incrementSame, emitBlock_desugar place.nested body]
      simp [String.append_assoc]
  | .unknown _ _ | .missing => rfl

end

/-- Without for loops that start with a return, the procedure of a body stays the same. -/
theorem emitProcedure_desugar
    {body : Block}
    (inOrder : body.statements.any Statement.startsWithReturn = false)
    (name parameters : String) :
    emitProcedure name parameters body.desugar = emitProcedure name parameters body := by
  have returns : body.desugar.returns = body.returns := by
    rw [body.returns_desugar, inOrder, Bool.or_false]
  rw [emitProcedure, emitProcedure, emitBlock_desugar, returns]

/-- No loop in the body of a procedure of a source starts with a return. -/
theorem startsWithReturn_of_parseProgram
    {source : Source}
    {program : Program}
    (parsed : parseProgram source = .ok program)
    {body : Block}
    (member : body ∈ program.procedureBodies) :
    body.statements.any Statement.startsWithReturn = false :=
  Block.startsWithReturn_of_over
    (Program.over_of_mem_procedureBodies (parseProgram_over parsed) member)

/--
Replacing the for loops of a block by while loops never changes its code. It changes whether the
procedure of the block declares a result only if the block does not return and one of its loops
starts with a return. No loop of a source does, so its procedures stay the same.
-/
theorem emit_desugar :
    (∀ (place : Place) (block : Block),
      emitBlock place block.desugar = emitBlock place block) ∧
    (∀ block : Block,
      block.desugar.returns =
        (block.returns || block.statements.any Statement.startsWithReturn)) ∧
    (∀ (name parameters : String) (body : Block),
      body.statements.any Statement.startsWithReturn = false →
        emitProcedure name parameters body.desugar = emitProcedure name parameters body) ∧
    ∀ (source : Source) (program : Program), parseProgram source = .ok program →
      ∀ body ∈ program.procedureBodies, body.statements.any Statement.startsWithReturn = false :=
  ⟨emitBlock_desugar, Block.returns_desugar,
    fun name parameters _ inOrder => emitProcedure_desugar inOrder name parameters,
    fun _ _ parsed _ member => startsWithReturn_of_parseProgram parsed member⟩

/-- The body of a function that repeats one call behind another. -/
def repeating : Block :=
  .of
    [.forLoop .missing .missing (.evaluated (.identifier ⟨"x", ⟨27, 1, 27⟩⟩))
      (.of [.evaluated (.identifier ⟨"y", ⟨30, 1, 30⟩⟩)] ⟨⟨29, 1, 29⟩, ⟨31, 1, 31⟩⟩) ⟨20, 1, 20⟩]
    ⟨⟨13, 1, 13⟩, ⟨40, 1, 40⟩⟩

/-- The loop without a test is a while loop without an end, with its last clause in the body. -/
theorem emit_desugar_repeating :
    parseProgram (.ofString "fonction f() ouvrir pour(;;x)\x7by\x7d refermer") =
      .ok ⟨[.function ⟨"f", ⟨9, 1, 9⟩⟩ [] repeating .start]⟩ ∧
    emitProcedure "f" "" repeating.desugar = emitProcedure "f" "" repeating ∧
    emitProcedure "f" "" repeating = .ok "proc f*() =\n  while true:\n    y\n    x\n" := by
  have parsed : parseProgram (.ofString "fonction f() ouvrir pour(;;x)\x7by\x7d refermer") =
      .ok ⟨[.function ⟨"f", ⟨9, 1, 9⟩⟩ [] repeating .start]⟩ := by
    cbv
  obtain ⟨-, -, same, ofSource⟩ := emit_desugar
  have inOrder := ofSource _ _ parsed repeating (List.mem_singleton_self _)
  exact ⟨parsed, same _ _ _ inOrder, by cbv⟩

/-- A loop that returns in its first clause, which is no loop of a source. -/
def returningLoop : Block :=
  .of [.forLoop (.returned (.bool true .zero) .zero) .missing .missing (.of [] .zero) .zero] .zero

/-- The procedure declares its result only without the loop, although the code is the same. -/
theorem emitProcedure_desugar_returningLoop :
    emitProcedure "f" "" returningLoop = .ok "proc f*() =\n  return true\n  while true:\n" ∧
    emitProcedure "f" "" returningLoop.desugar =
      .ok "proc f*(): auto =\n  return true\n  while true:\n" ∧
    returningLoop.returns = false ∧ returningLoop.desugar.returns = true := by
  refine ⟨by cbv, by cbv, rfl, rfl⟩

end Nim

end FrenchNim
