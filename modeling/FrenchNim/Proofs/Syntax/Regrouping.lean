import FrenchNim.Proofs.Syntax.Shape
import FrenchNim.Proofs.Syntax.Vocabulary

namespace FrenchNim

/-!
# What the canonical text of a tree means

The canonical text keeps the parentheses around an operand, but it has none
around the target of a member, a call or an index. So the text of a tree stands
for another tree if a target is a binary expression: the link then belongs to
the last operand alone. This module computes the tree that the text stands for,
without positions.

An operand goes into the tree as soon as its links are known. Until then the
operands before it wait: one in the current comparison, one in the sum.
-/

/-- The operands that wait for the next one, each with the operator behind it. -/
structure Pending where
  sum : Option (Expression × String)
  comparison : Option (Expression × String)

namespace Pending

/-- Nothing waits. -/
def empty : Pending := ⟨none, none⟩

/-- The operand with the one that waits for it. -/
def join : Option (Expression × String) → Expression → Expression
  | none, operand => operand
  | some (left, operator), operand => .binary operator left operand

/-- The comparison that ends with the operand. -/
def compared (pending : Pending) (operand : Expression) : Expression :=
  join pending.comparison operand

/-- The expression that ends with the operand. -/
def finish (pending : Pending) (operand : Expression) : Expression :=
  join pending.sum (pending.compared operand)

/-- What waits behind the operand and an operator. -/
def extend (pending : Pending) (operand : Expression) (operator : String) : Pending :=
  if (operatorKind operator).isComparison then
    ⟨pending.sum, some (pending.compared operand, operator)⟩
  else
    ⟨some (pending.finish operand, operator), none⟩

/-- The expression that ends with the last operand. -/
def whole (read : Pending × Expression) : Expression :=
  read.1.finish read.2

end Pending

mutual

/-- What waits at the end of the text of an expression, and the operand it ends with. -/
def Expression.push : Expression → Pending → Pending × Expression
  | .array values _, pending => (pending, .array (Expression.regroupAll values) .zero)
  | .invocation callee arguments _, pending =>
      let read := callee.push pending
      (read.1, .invocation read.2 (Expression.regroupAll arguments) .zero)
  | .member target name arrow, pending =>
      let read := target.push pending
      (read.1, .member read.2 (name.relocate fun _ => .zero) arrow)
  | .index target position _, pending =>
      let read := target.push pending
      (read.1, .index read.2 (Pending.whole (position.push .empty)) .zero)
  | .binary operator left right, pending =>
      let first :=
        if left.isBinary then (pending, Pending.whole (left.push .empty)) else left.push pending
      let behind := first.1.extend first.2 operator
      if right.isBinary then (behind, Pending.whole (right.push .empty)) else right.push behind
  | .closure parameters body _, pending =>
      (pending, .closure (parameters.map (·.relocate fun _ => .zero)) body.regroup .zero)
  | .construction callee arguments _, pending =>
      (pending, .construction callee.erase (Expression.regroupAll arguments) .zero)
  | .bool value _, pending => (pending, .bool value .zero)
  | .number literal value _, pending => (pending, .number literal value .zero)
  | .string value _, pending => (pending, .string value .zero)
  | .identifier name, pending => (pending, .identifier (name.relocate fun _ => .zero))
  | .rawCode code _, pending => (pending, .rawCode code .zero)
  | .unknown kind _, pending => (pending, .unknown kind .zero)
  | .missing, pending => (pending, .missing)

/-- The expressions that the texts of a list of expressions stand for. -/
def Expression.regroupAll : List Expression → List Expression
  | [] => []
  | first :: rest => Pending.whole (first.push .empty) :: Expression.regroupAll rest

/-- The block that the text of a block stands for. -/
def Block.regroup : Block → Block
  | .of statements _ => .of (Statement.regroupAll statements) .zero
  | .missing => .missing

/-- The statement that the text of a statement stands for. -/
def Statement.regroup : Statement → Statement
  | .returned value _ => .returned (Pending.whole (value.push .empty)) .zero
  | .declared name value _ =>
      .declared (name.relocate fun _ => .zero) (Pending.whole (value.push .empty)) .zero
  | .assigned target value =>
      .assigned (Pending.whole (target.push .empty)) (Pending.whole (value.push .empty))
  | .evaluated value => .evaluated (Pending.whole (value.push .empty))
  | .conditional test consequent alternative _ =>
      .conditional (Pending.whole (test.push .empty)) consequent.regroup alternative.regroup .zero
  | .whileLoop test body _ => .whileLoop (Pending.whole (test.push .empty)) body.regroup .zero
  | .forLoop initial test increment body _ =>
      .forLoop initial.regroup (Pending.whole (test.push .empty)) increment.regroup body.regroup
        .zero
  | .unknown kind _ => .unknown kind .zero
  | .missing => .missing

/-- The statements that the texts of a list of statements stand for. -/
def Statement.regroupAll : List Statement → List Statement
  | [] => []
  | first :: rest => first.regroup :: Statement.regroupAll rest

end

/-- The expression that the text of an expression stands for. -/
def Expression.regroup (value : Expression) : Expression :=
  Pending.whole (value.push .empty)

/-- The same for an operand, which stands between parentheses if it is binary. -/
def Expression.pushOperand (value : Expression) (pending : Pending) : Pending × Expression :=
  if value.isBinary then (pending, value.regroup) else value.push pending

/-- The left operand of a binary expression waits, with the operator, for the right one. -/
theorem Expression.push_binary
    (operator : String)
    (left right : Expression)
    (pending : Pending) :
    (Expression.binary operator left right).push pending =
      let read := left.pushOperand pending
      right.pushOperand (read.1.extend read.2 operator) :=
  rfl

/-- The constructor that the text of a constructor stands for. -/
def Constructor.regroup (node : Constructor) : Constructor :=
  ⟨node.parameters.map (·.relocate fun _ => .zero), node.body.regroup, .zero⟩

/-- The method that the text of a method stands for. -/
def Method.regroup (node : Method) : Method :=
  ⟨node.name.relocate fun _ => .zero, node.parameters.map (·.relocate fun _ => .zero),
    node.body.regroup⟩

/-- The declaration that the text of a declaration stands for. -/
def Declaration.regroup : Declaration → Declaration
  | .classType name constructor? methods _ =>
      .classType (name.relocate fun _ => .zero) (constructor?.map Constructor.regroup)
        (methods.map Method.regroup) .zero
  | .function name parameters body _ =>
      .function (name.relocate fun _ => .zero) (parameters.map (·.relocate fun _ => .zero))
        body.regroup .zero
  | .constant name value _ => .constant (name.relocate fun _ => .zero) value.regroup .zero
  | .statement body => .statement body.regroup
  | .imported module alias? path span => Declaration.erase (.imported module alias? path span)
  | .typeName name external span => Declaration.erase (.typeName name external span)

/-- The program that the text of a program stands for. -/
def Program.regroup (program : Program) : Program :=
  ⟨program.declarations.map Declaration.regroup⟩

/-! ## Trees that their text stands for -/

namespace Pending

@[simp] theorem finish_empty (operand : Expression) : empty.finish operand = operand :=
  rfl

/-- A single operator joins its operands, whichever kind it is of. -/
theorem finish_extend_empty (left right : Expression) (operator : String) :
    (empty.extend left operator).finish right = .binary operator left right := by
  unfold extend
  split
  · rfl
  · rfl

end Pending

/-- No member, call or index is applied to a binary expression. -/
abbrev Expression.LinksNoBinary (value : Expression) : Prop :=
  value.Everywhere (·.linksBinary = false)

/-- The text stands for the expression itself, and it is one operand unless it is binary. -/
structure Expression.Stable (value : Expression) : Prop where
  whole : Pending.whole (value.push .empty) = value.erase
  operand : value.isBinary = false → ∀ pending, value.push pending = (pending, value.erase)

/-- One operand stands for itself. -/
theorem Expression.Stable.of_operand
    {value : Expression}
    (isOperand : ∀ pending, value.push pending = (pending, value.erase)) :
    value.Stable := by
  refine ⟨?_, fun _ => isOperand⟩
  rw [isOperand]
  rfl

/-- A stable expression as an operand. -/
theorem Expression.Stable.asOperand
    {value : Expression}
    (stable : value.Stable)
    (pending : Pending) :
    value.pushOperand pending = (pending, value.erase) := by
  unfold Expression.pushOperand
  cases isBinary : value.isBinary with
  | true =>
      exact congrArg _ stable.whole
  | false =>
      exact stable.operand isBinary pending

mutual

/-- Without a link at a binary expression, the text of an expression stands for it. -/
theorem Expression.stable_of_linksNoBinary :
    ∀ {value : Expression}, value.LinksNoBinary → value.Stable
  | .array values span, ⟨_, linked⟩ => by
      refine .of_operand fun pending => ?_
      rw [Expression.push, Expression.regroupAll_of_linksNoBinary linked]
      rfl
  | .invocation callee arguments last, ⟨noBinary, calleeLinked, linked⟩ => by
      have calleeStable := Expression.stable_of_linksNoBinary calleeLinked
      refine .of_operand fun pending => ?_
      rw [Expression.push, calleeStable.operand noBinary,
        Expression.regroupAll_of_linksNoBinary linked]
      rfl
  | .member target name arrow, ⟨noBinary, linked⟩ => by
      have targetStable := Expression.stable_of_linksNoBinary linked
      refine .of_operand fun pending => ?_
      rw [Expression.push, targetStable.operand noBinary]
      rfl
  | .index target position last, ⟨noBinary, targetLinked, linked⟩ => by
      have targetStable := Expression.stable_of_linksNoBinary targetLinked
      have positionStable := Expression.stable_of_linksNoBinary linked
      refine .of_operand fun pending => ?_
      rw [Expression.push, targetStable.operand noBinary, positionStable.whole]
      rfl
  | .binary operator left right, ⟨_, leftLinked, rightLinked⟩ => by
      have leftStable := Expression.stable_of_linksNoBinary leftLinked
      have rightStable := Expression.stable_of_linksNoBinary rightLinked
      refine ⟨?_, nofun⟩
      simp only [Expression.push_binary, leftStable.asOperand, rightStable.asOperand]
      exact Pending.finish_extend_empty _ _ operator
  | .closure parameters body first, ⟨_, linked⟩ => by
      refine .of_operand fun pending => ?_
      rw [Expression.push, Block.regroup_of_linksNoBinary linked]
      rfl
  | .construction callee arguments span, ⟨_, linked⟩ => by
      refine .of_operand fun pending => ?_
      rw [Expression.push, Expression.regroupAll_of_linksNoBinary linked]
      rfl
  | .bool _ _, _ => .of_operand fun _ => rfl
  | .number _ _ _, _ => .of_operand fun _ => rfl
  | .string _ _, _ => .of_operand fun _ => rfl
  | .identifier _, _ => .of_operand fun _ => rfl
  | .rawCode _ _, _ => .of_operand fun _ => rfl
  | .unknown _ _, _ => .of_operand fun _ => rfl
  | .missing, _ => .of_operand fun _ => rfl

theorem Expression.regroupAll_of_linksNoBinary :
    ∀ {values : List Expression}, Expression.AllEverywhere (·.linksBinary = false) values →
      Expression.regroupAll values = Expression.relocateAll (fun _ => .zero) values
  | [], _ => rfl
  | first :: rest, ⟨firstLinked, restLinked⟩ => by
      rw [Expression.regroupAll, (Expression.stable_of_linksNoBinary firstLinked).whole,
        Expression.regroupAll_of_linksNoBinary restLinked]
      rfl

/-- Without such a link, the text of a block stands for the block. -/
theorem Block.regroup_of_linksNoBinary :
    ∀ {block : Block}, block.Everywhere (·.linksBinary = false) → block.regroup = block.erase
  | .of statements span, linked => by
      rw [Block.regroup, Statement.regroupAll_of_linksNoBinary linked]
      rfl
  | .missing, _ => rfl

/-- Without such a link, the text of a statement stands for the statement. -/
theorem Statement.regroup_of_linksNoBinary :
    ∀ {node : Statement}, node.Everywhere (·.linksBinary = false) → node.regroup = node.erase
  | .returned value first, linked => by
      rw [Statement.regroup, (Expression.stable_of_linksNoBinary linked).whole]
      rfl
  | .declared name value first, linked => by
      rw [Statement.regroup, (Expression.stable_of_linksNoBinary linked).whole]
      rfl
  | .assigned target value, ⟨targetLinked, valueLinked⟩ => by
      rw [Statement.regroup, (Expression.stable_of_linksNoBinary targetLinked).whole,
        (Expression.stable_of_linksNoBinary valueLinked).whole]
      rfl
  | .evaluated value, linked => by
      rw [Statement.regroup, (Expression.stable_of_linksNoBinary linked).whole]
      rfl
  | .conditional test consequent alternative first, ⟨testLinked, linked, otherLinked⟩ => by
      rw [Statement.regroup, (Expression.stable_of_linksNoBinary testLinked).whole,
        Block.regroup_of_linksNoBinary linked, Block.regroup_of_linksNoBinary otherLinked]
      rfl
  | .whileLoop test body first, ⟨testLinked, linked⟩ => by
      rw [Statement.regroup, (Expression.stable_of_linksNoBinary testLinked).whole,
        Block.regroup_of_linksNoBinary linked]
      rfl
  | .forLoop initial test increment body first,
      ⟨initialLinked, testLinked, stepLinked, linked⟩ => by
      rw [Statement.regroup, Statement.regroup_of_linksNoBinary initialLinked,
        (Expression.stable_of_linksNoBinary testLinked).whole,
        Statement.regroup_of_linksNoBinary stepLinked, Block.regroup_of_linksNoBinary linked]
      rfl
  | .unknown _ _, _ => rfl
  | .missing, _ => rfl

theorem Statement.regroupAll_of_linksNoBinary :
    ∀ {nodes : List Statement}, Statement.AllEverywhere (·.linksBinary = false) nodes →
      Statement.regroupAll nodes = Statement.relocateAll (fun _ => .zero) nodes
  | [], _ => rfl
  | first :: rest, ⟨firstLinked, restLinked⟩ => by
      rw [Statement.regroupAll, Statement.regroup_of_linksNoBinary firstLinked,
        Statement.regroupAll_of_linksNoBinary restLinked]
      rfl

end

/-- Without such a link, the text of a declaration stands for the declaration. -/
theorem Declaration.regroup_of_linksNoBinary
    {node : Declaration}
    (linked : node.Everywhere (·.linksBinary = false)) :
    node.regroup = node.erase := by
  cases node with
  | classType name constructor? methods span =>
      obtain ⟨constructorLinked, methodsLinked⟩ := linked
      have constructorSame : constructor?.map Constructor.regroup =
          constructor?.map (·.relocate fun _ => .zero) := by
        refine Option.map_congr fun node member => ?_
        rw [Constructor.regroup, Block.regroup_of_linksNoBinary (constructorLinked node member)]
        rfl
      have methodsSame : methods.map Method.regroup =
          methods.map (·.relocate fun _ => .zero) := by
        refine List.map_congr_left fun node member => ?_
        rw [Method.regroup, Block.regroup_of_linksNoBinary (methodsLinked node member)]
        rfl
      rw [Declaration.regroup, constructorSame, methodsSame]
      rfl
  | function name parameters body first =>
      rw [Declaration.regroup, Block.regroup_of_linksNoBinary linked]
      rfl
  | constant name value first =>
      rw [Declaration.regroup, Expression.regroup,
        (Expression.stable_of_linksNoBinary linked).whole]
      rfl
  | statement body =>
      rw [Declaration.regroup, Statement.regroup_of_linksNoBinary linked]
      rfl
  | imported module alias? path span =>
      rfl
  | typeName name external span =>
      rfl

/-- A program whose links are not applied to binary expressions is what its text stands for. -/
theorem Program.regroup_of_linksNoBinary
    {program : Program}
    (linked : program.Everywhere (·.linksBinary = false)) :
    program.regroup = program.erase := by
  unfold Program.regroup Program.erase Program.relocate
  congr 1
  exact List.map_congr_left fun node member =>
    Declaration.regroup_of_linksNoBinary (linked node member)

/-! ## Regrouped trees have no gaps -/

section Over

variable {vocabulary : Vocabulary}

/-- Moved names belong to the same vocabulary. -/
theorem Vocabulary.Names.relocate
    (move : Position → Position)
    {parameters : List Identifier}
    (known : vocabulary.Names parameters) :
    vocabulary.Names (parameters.map (·.relocate move)) := by
  intro parameter member
  obtain ⟨original, isOriginal, rfl⟩ := List.mem_map.mp member
  exact known original isOriginal

/-- The moved name of a class is the name of a class. -/
theorem Expression.IsClassName.relocate
    (move : Position → Position)
    {callee : Expression}
    (named : callee.IsClassName vocabulary) :
    (callee.relocate move).IsClassName vocabulary :=
  named.induction (fun _ known => known) fun _ _ _ known target => ⟨target, known, rfl⟩

namespace Pending

/-- The operands that wait have no gaps, and the words in them belong to the vocabulary. -/
structure Over (vocabulary : Vocabulary) (pending : Pending) : Prop where
  sum : ∀ waiting ∈ pending.sum, vocabulary.operator waiting.2 ∧ waiting.1.Over vocabulary
  comparison : ∀ waiting ∈ pending.comparison,
    vocabulary.operator waiting.2 ∧ waiting.1.Over vocabulary

/-- Where nothing waits, nothing is missing. -/
theorem empty_over : empty.Over vocabulary :=
  ⟨nofun, nofun⟩

/-- An operand and the one that waits for it make an expression without gaps. -/
theorem join_over
    {waiting? : Option (Expression × String)}
    (known : ∀ waiting ∈ waiting?, vocabulary.operator waiting.2 ∧ waiting.1.Over vocabulary)
    {operand : Expression}
    (operandOver : operand.Over vocabulary) :
    (join waiting? operand).Over vocabulary := by
  cases waiting? with
  | none =>
      exact operandOver
  | some waiting =>
      obtain ⟨operatorKnown, leftOver⟩ := known waiting rfl
      exact ⟨operatorKnown, leftOver, operandOver⟩

namespace Over

variable {pending : Pending} (pendingOver : pending.Over vocabulary)

include pendingOver

/-- The comparison that ends with an operand has no gaps. -/
theorem compared {operand : Expression} (operandOver : operand.Over vocabulary) :
    (pending.compared operand).Over vocabulary :=
  join_over pendingOver.comparison operandOver

/-- The expression that ends with an operand has no gaps. -/
theorem finish {operand : Expression} (operandOver : operand.Over vocabulary) :
    (pending.finish operand).Over vocabulary :=
  join_over pendingOver.sum (pendingOver.compared operandOver)

/-- What waits behind one more operand has no gaps. -/
theorem extend
    {operand : Expression}
    (operandOver : operand.Over vocabulary)
    {operator : String}
    (known : vocabulary.operator operator) :
    (pending.extend operand operator).Over vocabulary := by
  unfold Pending.extend
  split
  · refine ⟨pendingOver.sum, ?_⟩
    rintro waiting ⟨⟩
    exact ⟨known, pendingOver.compared operandOver⟩
  · refine ⟨?_, nofun⟩
    rintro waiting ⟨⟩
    exact ⟨known, pendingOver.finish operandOver⟩

end Over

end Pending

/-- What an expression leaves behind what waits has no gaps if that has none. -/
def Expression.PushesOver (vocabulary : Vocabulary) (value : Expression) : Prop :=
  ∀ pending : Pending, pending.Over vocabulary →
    (value.push pending).1.Over vocabulary ∧ (value.push pending).2.Over vocabulary

/-- Then the expression that a text stands for has no gaps. -/
theorem Expression.PushesOver.whole
    {value : Expression}
    (pushes : value.PushesOver vocabulary) :
    (Pending.whole (value.push .empty)).Over vocabulary := by
  obtain ⟨restOver, lastOver⟩ := pushes _ Pending.empty_over
  exact restOver.finish lastOver

/-- Then an operand between parentheses leaves no gap either. -/
theorem Expression.PushesOver.operand
    {value : Expression}
    (pushes : value.PushesOver vocabulary)
    {pending : Pending}
    (pendingOver : pending.Over vocabulary) :
    (value.pushOperand pending).1.Over vocabulary ∧
      (value.pushOperand pending).2.Over vocabulary := by
  unfold Expression.pushOperand
  split
  · exact ⟨pendingOver, pushes.whole⟩
  · exact pushes _ pendingOver

/-- A clause of a loop stays one, and stays left out if it is. -/
theorem Statement.regroup_clause
    {clause : Statement}
    (clauseOver : clause = .missing ∨ clause.isClause ∧ clause.Over vocabulary)
    (regrouped : clause.Over vocabulary → clause.regroup.Over vocabulary) :
    clause.regroup = .missing ∨
      clause.regroup.isClause ∧ clause.regroup.Over vocabulary := by
  rcases clauseOver with rfl | ⟨isClause, isOver⟩
  · exact .inl rfl
  · refine .inr ⟨?_, regrouped isOver⟩
    cases clause with
    | declared | assigned | evaluated => rfl
    | _ => cases isClause

mutual

/-- The text of an expression over a vocabulary leaves no gap. -/
theorem Expression.push_over :
    ∀ {value : Expression}, value.Over vocabulary → value.PushesOver vocabulary
  | .array _ _, valuesOver, _, pendingOver =>
      ⟨pendingOver, Expression.regroupAll_over valuesOver⟩
  | .invocation _ _ _, ⟨calleeOver, argumentsOver⟩, _, pendingOver => by
      obtain ⟨restOver, operandOver⟩ := Expression.push_over calleeOver _ pendingOver
      exact ⟨restOver, operandOver, Expression.regroupAll_over argumentsOver⟩
  | .member _ _ _, ⟨targetOver, named⟩, _, pendingOver => by
      obtain ⟨restOver, operandOver⟩ := Expression.push_over targetOver _ pendingOver
      exact ⟨restOver, operandOver, named⟩
  | .index _ _ _, ⟨targetOver, positionOver⟩, _, pendingOver => by
      obtain ⟨restOver, operandOver⟩ := Expression.push_over targetOver _ pendingOver
      exact ⟨restOver, operandOver, (Expression.push_over positionOver).whole⟩
  | .binary _ _ _, ⟨known, leftOver, rightOver⟩, _, pendingOver => by
      obtain ⟨restOver, operandOver⟩ := (Expression.push_over leftOver).operand pendingOver
      exact (Expression.push_over rightOver).operand (restOver.extend operandOver known)
  | .closure _ _ _, ⟨named, bodyOver⟩, _, pendingOver =>
      ⟨pendingOver, named.relocate _, Block.regroup_over bodyOver⟩
  | .construction _ _ _, ⟨calleeNamed, argumentsOver⟩, _, pendingOver =>
      ⟨pendingOver, calleeNamed.relocate _, Expression.regroupAll_over argumentsOver⟩
  | .bool _ _, _, _, pendingOver => ⟨pendingOver, trivial⟩
  | .number _ _ _, known, _, pendingOver => ⟨pendingOver, known⟩
  | .string _ _, _, _, pendingOver => ⟨pendingOver, trivial⟩
  | .identifier _, known, _, pendingOver => ⟨pendingOver, known⟩
  | .rawCode _ _, known, _, pendingOver => ⟨pendingOver, known⟩

/-- Regrouped expressions have no gaps, and the words of the expressions they come from. -/
theorem Expression.regroupAll_over :
    ∀ {values : List Expression}, Expression.AllOver vocabulary values →
      Expression.AllOver vocabulary (Expression.regroupAll values)
  | [], _ => trivial
  | _ :: _, ⟨firstOver, restOver⟩ =>
      ⟨(Expression.push_over firstOver).whole, Expression.regroupAll_over restOver⟩

/-- A regrouped block has no gaps, and the words of the block it comes from. -/
theorem Block.regroup_over :
    ∀ {block : Block}, block.Over vocabulary → block.regroup.Over vocabulary
  | .of _ _, statementsOver => Statement.regroupAll_over statementsOver

/-- A regrouped statement has no gaps, and the words of the statement it comes from. -/
theorem Statement.regroup_over :
    ∀ {node : Statement}, node.Over vocabulary → node.regroup.Over vocabulary
  | .returned _ _, valueOver => (Expression.push_over valueOver).whole
  | .declared _ _ _, ⟨named, valueOver⟩ => ⟨named, (Expression.push_over valueOver).whole⟩
  | .assigned _ _, ⟨targetOver, valueOver⟩ =>
      ⟨(Expression.push_over targetOver).whole, (Expression.push_over valueOver).whole⟩
  | .evaluated _, valueOver => (Expression.push_over valueOver).whole
  | .conditional _ _ _ _, ⟨testOver, bodyOver, otherOver⟩ => by
      refine ⟨(Expression.push_over testOver).whole, Block.regroup_over bodyOver, ?_⟩
      rcases otherOver with isMissing | otherOver
      · exact .inl (by rw [isMissing]; rfl)
      · exact .inr (Block.regroup_over otherOver)
  | .whileLoop _ _ _, ⟨testOver, bodyOver⟩ =>
      ⟨(Expression.push_over testOver).whole, Block.regroup_over bodyOver⟩
  | .forLoop _ _ _ _ _, ⟨initialOver, testOver, incrementOver, bodyOver⟩ => by
      refine ⟨Statement.regroup_clause initialOver Statement.regroup_over, ?_,
        Statement.regroup_clause incrementOver Statement.regroup_over,
        Block.regroup_over bodyOver⟩
      rcases testOver with isMissing | testOver
      · exact .inl (by rw [isMissing]; rfl)
      · exact .inr (Expression.push_over testOver).whole

theorem Statement.regroupAll_over :
    ∀ {nodes : List Statement}, Statement.AllOver vocabulary nodes →
      Statement.AllOver vocabulary (Statement.regroupAll nodes)
  | [], _ => trivial
  | _ :: _, ⟨firstOver, restOver⟩ =>
      ⟨Statement.regroup_over firstOver, Statement.regroupAll_over restOver⟩

end

end Over

end FrenchNim
