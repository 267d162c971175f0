import FrenchNim.Proofs.Syntax.Vocabulary

namespace FrenchNim

/-!
# For loops as while loops

A for loop is a while loop behind its first clause, with its last clause at the
end of the body; a test that is left out is always met. Here every for loop of a
tree is replaced in this way, wherever it stands: in nested blocks, in the
clauses of another loop, and in the bodies of closures.
-/

/-- The test of a while loop that stands for a for loop with the given test. -/
def Expression.orTrue : Expression → Expression
  | .missing => .bool true .zero
  | test => test

/-- A block with further statements at its end. -/
def Block.append : Block → List Statement → Block
  | block, [] => block
  | .of statements span, more => .of (statements ++ more) span
  | .missing, more => .of more .zero

mutual

/-- Replace all for loops in an expression. -/
def Expression.desugar : Expression → Expression
  | .array values span => .array (Expression.desugarAll values) span
  | .invocation callee arguments last =>
      .invocation callee.desugar (Expression.desugarAll arguments) last
  | .member target name arrow => .member target.desugar name arrow
  | .index target position last => .index target.desugar position.desugar last
  | .binary operator left right => .binary operator left.desugar right.desugar
  | .closure parameters body first => .closure parameters body.desugar first
  | .construction callee arguments span =>
      .construction callee.desugar (Expression.desugarAll arguments) span
  | .bool value span => .bool value span
  | .number literal value span => .number literal value span
  | .string value span => .string value span
  | .identifier name => .identifier name
  | .rawCode code span => .rawCode code span
  | .unknown kind span => .unknown kind span
  | .missing => .missing

/-- Replace all for loops in a list of expressions. -/
def Expression.desugarAll : List Expression → List Expression
  | [] => []
  | first :: rest => first.desugar :: Expression.desugarAll rest

/-- Replace all for loops in a block. -/
def Block.desugar : Block → Block
  | .of statements span => .of (Statement.desugarAll statements) span
  | .missing => .missing

/-- The statements that stand for a statement without for loops. -/
def Statement.desugar : Statement → List Statement
  | .returned value first => [.returned value.desugar first]
  | .declared name value first => [.declared name value.desugar first]
  | .assigned target value => [.assigned target.desugar value.desugar]
  | .evaluated value => [.evaluated value.desugar]
  | .conditional test consequent alternative first =>
      [.conditional test.desugar consequent.desugar alternative.desugar first]
  | .whileLoop test body first => [.whileLoop test.desugar body.desugar first]
  | .forLoop initial test increment body first =>
      let before := if initial.isPresent then initial.desugar else []
      let atEnd := if increment.isPresent then increment.desugar else []
      before ++ [.whileLoop test.desugar.orTrue (body.desugar.append atEnd) first]
  | .unknown kind span => [.unknown kind span]
  | .missing => [.missing]

/-- The statements that stand for a list of statements without for loops. -/
def Statement.desugarAll : List Statement → List Statement
  | [] => []
  | first :: rest => first.desugar ++ Statement.desugarAll rest

end

namespace Statement

/-- The statements that stand for a clause in the head of a loop; none if it is left out. -/
def desugarClause (clause : Statement) : List Statement :=
  if clause.isPresent then clause.desugar else []

/-- A for loop in terms of its clauses. -/
theorem desugar_forLoop
    (initial : Statement)
    (test : Expression)
    (increment : Statement)
    (body : Block)
    (first : Position) :
    (forLoop initial test increment body first).desugar =
      initial.desugarClause ++
        [Statement.whileLoop test.desugar.orTrue (body.desugar.append increment.desugarClause) first] := by
  rw [desugar, desugarClause, desugarClause]

/-- No statement vanishes. -/
theorem desugar_ne_nil (node : Statement) : node.desugar ≠ [] := by
  cases node with
  | forLoop initial test increment body first => simp [desugar_forLoop]
  | _ => simp [desugar]

/-- A for loop that starts with a return, in its first clause or in that of a loop there. -/
def startsWithReturn : Statement → Bool
  | forLoop initial _ _ _ _ => initial.isReturn || initial.startsWithReturn
  | _ => false

/-- What stands for a statement returns if the statement does, or starts with a return. -/
theorem any_isReturn_desugar :
    ∀ node : Statement, node.desugar.any isReturn = (node.isReturn || node.startsWithReturn)
  | forLoop initial test increment body first => by
      have inClause : initial.desugarClause.any isReturn =
          (initial.isReturn || initial.startsWithReturn) := by
        cases initial with
        | missing => rfl
        | _ => exact any_isReturn_desugar _
      rw [desugar_forLoop, List.any_append, inClause]
      simp [isReturn, startsWithReturn]
  | returned _ _ | declared _ _ _ | assigned _ _ | evaluated _ | conditional _ _ _ _
  | whileLoop _ _ _ | unknown _ _ | missing => by
      simp [desugar, isReturn, startsWithReturn]

theorem any_isReturn_desugarAll (nodes : List Statement) :
    (desugarAll nodes).any isReturn =
      (nodes.any isReturn || nodes.any startsWithReturn) := by
  induction nodes with
  | nil => rfl
  | cons node rest inductionHypothesis =>
      rw [desugarAll, List.any_append, any_isReturn_desugar, inductionHypothesis, List.any_cons,
        List.any_cons]
      ac_rfl

end Statement

namespace Block

theorem returns_eq_any (block : Block) :
    block.returns = block.statements.any Statement.isReturn := by
  unfold returns
  refine congrArg (List.any block.statements) (funext fun node => ?_)
  cases node <;> rfl

/-- No block becomes empty. -/
theorem isEmpty_desugar (block : Block) : block.desugar.isEmpty = block.isEmpty := by
  cases block with
  | of statements span =>
      cases statements with
      | nil => rfl
      | cons first rest =>
          have present := first.desugar_ne_nil
          simp [desugar, isEmpty, Block.statements, Statement.desugarAll, present]
  | missing => rfl

/-- A block returns without for loops if it returns, or a loop of it starts with a return. -/
theorem returns_desugar (block : Block) :
    block.desugar.returns =
      (block.returns || block.statements.any Statement.startsWithReturn) := by
  cases block with
  | of statements span =>
      rw [returns_eq_any, returns_eq_any]
      exact Statement.any_isReturn_desugarAll statements
  | missing => rfl

end Block

section Clauses

variable {vocabulary : Vocabulary}

/-- Where no part of a loop is out of place, its clauses do not return. -/
theorem Statement.startsWithReturn_of_over {node : Statement} (isOver : node.Over vocabulary) :
    node.startsWithReturn = false := by
  cases node with
  | forLoop initial test increment body first =>
      rcases isOver.1 with rfl | ⟨isClause, -⟩
      · rfl
      · cases initial <;> first | rfl | cases isClause
  | _ => rfl

theorem Block.startsWithReturn_of_over {block : Block} (isOver : block.Over vocabulary) :
    block.statements.any Statement.startsWithReturn = false := by
  cases block with
  | of statements span =>
      rw [List.any_eq_false]
      intro node member
      have nodeOver := Statement.allOver_iff.mp isOver node member
      rw [Statement.startsWithReturn_of_over nodeOver]
      exact Bool.false_ne_true
  | missing => rfl

end Clauses

/-- The bodies of the functions and methods of a program. -/
def Program.procedureBodies (program : Program) : List Block :=
  program.declarations.flatMap fun
    | .function _ _ body _ => [body]
    | .classType _ _ methods _ => methods.map (·.body)
    | _ => []

/-- The body of a procedure has no gaps if the program has none. -/
theorem Program.over_of_mem_procedureBodies
    {vocabulary : Vocabulary}
    {program : Program}
    (isOver : program.Over vocabulary)
    {body : Block}
    (member : body ∈ program.procedureBodies) :
    body.Over vocabulary := by
  obtain ⟨declaration, listed, inside⟩ := List.mem_flatMap.mp member
  have declarationOver := isOver declaration listed
  cases declaration with
  | function name parameters body' first =>
      cases List.mem_singleton.mp inside
      exact declarationOver.2.2
  | classType name constructor? methods span =>
      obtain ⟨method, isMethod, rfl⟩ := List.mem_map.mp inside
      exact (declarationOver.2.2 method isMethod).2.2
  | _ => exact (List.not_mem_nil inside).elim

end FrenchNim
