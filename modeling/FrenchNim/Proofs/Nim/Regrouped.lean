import FrenchNim.Proofs.Nim.Positions
import FrenchNim.Proofs.Nim.Rivals

namespace FrenchNim

/-!
# The Nim code of regrouped trees

A tree and the tree that its canonical text stands for have the same Nim code
if the tree is faithful. If no embedded code hides a parenthesis or a blank at
its start, they have the same code only then.
-/

/-- Regrouping neither fills nor empties a block. -/
theorem Block.regroup_isEmpty (block : Block) : block.regroup.isEmpty = block.isEmpty := by
  cases block with
  | of statements span => cases statements <;> rfl
  | missing => rfl

/-- A block without statements is faithful. -/
theorem Block.faithful_of_isEmpty {block : Block} (isEmpty : block.isEmpty = true) :
    block.Faithful := by
  cases block with
  | of statements span =>
      cases statements with
      | nil => exact trivial
      | cons => cases isEmpty
  | missing => exact trivial

namespace Nim

open Sign (symbols)

section Expressions

variable {vocabulary : Vocabulary} {exact : Prop} {place : Place} {value : Expression}

/-- The Nim code of an expression, if it has any. -/
def code? (place : Place) (value : Expression) : Option String :=
  (emitExpression place value).toOption

/-- Over a vocabulary, an expression has Nim code. -/
theorem code?_eq_code (isOver : value.Over vocabulary) :
    code? place value = some (code place value) := by
  rw [code?, emitExpression_eq_code isOver]
  rfl

/-- What becomes of the code of an expression when it is read behind what waits. -/
structure Regroups (exact : Prop) (place : Place) (value : Expression) : Prop where
  operand : value.Faithful → value.isBinary = false → ∀ pending,
    (value.push pending).1 = pending ∧
      code? place (value.push pending).2 = code? place value
  whole : value.Faithful → code? place value.regroup = code? place value
  echoes : exact → ∀ pending, ∃ found, Echoes place value pending (value.push pending) found

namespace Regroups

/-- An expression that is not binary, given what it ends with. -/
theorem of_operand
    (operand : value.Faithful → ∀ pending,
      (value.push pending).1 = pending ∧
        code? place (value.push pending).2 = code? place value)
    (echoes : exact → ∀ pending,
      ∃ found, Echoes place value pending (value.push pending) found) :
    Regroups exact place value := by
  refine ⟨fun faithful _ => operand faithful, fun faithful => ?_, echoes⟩
  obtain ⟨nothing, same⟩ := operand faithful .empty
  rw [Expression.regroup, Pending.whole, nothing]
  exact same

/-- An atom is pushed as one operand, so only its own code has to be compared. -/
theorem of_isAtom
    (atomic : isAtom value = true)
    (isOver : value.Over vocabulary)
    (rivals : Rivals exact value.Faithful (code place value) (code place value.regroup)) :
    Regroups exact place value := by
  obtain ⟨operand, operandAtomic, pushed⟩ := push_of_isAtom atomic
  have regrouped : value.regroup = operand := by
    rw [Expression.regroup, pushed]
    rfl
  have operandOver : operand.Over vocabulary := by
    rw [← regrouped]
    exact (Expression.push_over isOver).whole
  rw [regrouped] at rivals
  refine of_operand (fun faithful pending => ?_) fun isExact pending => ?_
  · rw [pushed, code?_eq_code isOver, ← rivals.same faithful]
    exact ⟨rfl, code?_eq_code operandOver⟩
  · rw [pushed]
    exact ⟨_, .atom atomic operandAtomic (rivals.of_exact isExact) pending⟩

variable (regroups : Regroups exact place value)

include regroups

/-- A faithful operand leaves what waits alone and keeps its code, with parentheses or without. -/
theorem asOperand (faithful : value.Faithful) (pending : Pending) :
    (value.pushOperand pending).1 = pending ∧
      code? place (value.pushOperand pending).2 = code? place value := by
  unfold Expression.pushOperand
  split
  · exact ⟨rfl, regroups.whole faithful⟩
  · rename_i notBinary
    exact regroups.operand faithful (Bool.eq_false_iff.mpr notBinary) pending

/-- The symbols of an operand are found again behind what waits. -/
theorem echoesAsOperand (isExact : exact) (pending : Pending) :
    ∃ found, Echoes place value pending (value.pushOperand pending) found := by
  unfold Expression.pushOperand
  split
  · obtain ⟨found, echoes⟩ := regroups.echoes isExact .empty
    exact ⟨found, echoes.parenthesized pending⟩
  · exact regroups.echoes isExact pending

/-- The code of an expression and the code of what its text stands for. -/
theorem rivals
    (lexical : vocabulary.IsLexical)
    (visible : exact → OpensVisibly vocabulary)
    (isOver : value.Over vocabulary) :
    Rivals exact value.Faithful (code place value) (code place value.regroup) := by
  have regroupedOver : value.regroup.Over vocabulary := (Expression.push_over isOver).whole
  refine ⟨fun faithful => ?_, fun isExact => ?_, fun isExact same => ?_⟩
  · have same := regroups.whole faithful
    rw [code?_eq_code isOver, code?_eq_code regroupedOver] at same
    exact Option.some.inj same
  · obtain ⟨found, echoes⟩ := regroups.echoes isExact .empty
    have foundSymbols : symbols (signs place value.regroup) = found :=
      (symbols_finish place _ _).trans echoes.reads
    rw [length_code isOver, length_code regroupedOver, foundSymbols]
    exact Sign.weight_le echoes.related
  · obtain ⟨found, echoes⟩ := regroups.echoes isExact .empty
    have foundSymbols : symbols (signs place value.regroup) = found :=
      (symbols_finish place _ _).trans echoes.reads
    have balanced : Sign.totalWeight found =
        Sign.totalWeight (symbols (signs place value)) := by
      rw [← foundSymbols, ← length_code isOver, ← length_code regroupedOver, same]
    have related := Sign.related_of_weight_eq echoes.related balanced
    rw [← foundSymbols] at related
    have sameSigns := Sign.eq_of_text_eq (signs_alternate place value)
      (signs_alternate place value.regroup) (signs_plain lexical (visible isExact) isOver)
      (signs_plain lexical (visible isExact) regroupedOver) related
      (by rw [text_signs isOver, text_signs regroupedOver, same])
    refine echoes.faithful ?_ (reach_eq_zero_of_signs_eq sameSigns.symm)
    rw [← foundSymbols, sameSigns]

end Regroups

/-! ## Links and operators -/

/-- A property has code if its target has. -/
theorem code?_member (target : Expression) (name : Identifier) (arrow : Bool) :
    code? place (.member target name arrow) =
      (code? place target).bind fun object => some (object ++ "." ++ name.name) := by
  rw [code?, emitExpression, toOption_bind]
  rfl

/-- An index has code if its target and its position have. -/
theorem code?_index (target position : Expression) (last : Position) :
    code? place (.index target position last) =
      (code? place target).bind fun object => (code? place position).bind fun inner =>
        some (object ++ "[" ++ inner ++ "]") := by
  simp only [code?, emitExpression, toOption_bind]
  rfl

/-- A binary expression has code if both operands have. -/
theorem code?_binary (operator : String) (left right : Expression) :
    code? place (.binary operator left right) =
      (code? place left).bind fun first => (code? place right).bind fun second =>
        some ("(" ++ first ++ operator ++ second ++ ")") := by
  simp only [code?, emitExpression, toOption_bind]
  rfl

/-- A call has code if its callee and the arguments it passes have. -/
theorem code?_invocation (callee : Expression) (arguments : List Expression) (last : Position) :
    code? place (.invocation callee arguments last) =
      (code? place callee).bind fun object =>
        if ignoresArguments callee then
          some (call object [])
        else
          (emitExpressions place arguments).toOption.bind fun codes =>
            some (call object codes) := by
  rw [code?, emitExpression_invocation, toOption_bind]
  refine congrArg _ (funext fun object => ?_)
  split
  · rfl
  · exact toOption_bind _ _

/-- A call of an operand passes arguments if a call of what it came from does. -/
theorem ignoresArguments_push
    {callee : Expression}
    (isOperand : callee.isBinary = false)
    (pending : Pending) :
    ignoresArguments (callee.push pending).2 = ignoresArguments callee := by
  cases callee with
  | binary => cases isOperand
  | _ => rfl

/-- The arguments that a call passes after regrouping are no longer, or they are dropped. -/
theorem length_passedCodes_push_le
    {callee : Expression}
    {arguments others : List Expression}
    (shorter : (call "" (others.map (code place))).length ≤
      (call "" (arguments.map (code place))).length)
    (pending : Pending) :
    (call "" (passedCodes place (callee.push pending).2 others)).length ≤
      (call "" (passedCodes place callee arguments)).length := by
  have dropped : ∀ codes, (call "" []).length ≤ (call "" codes).length := by
    intro codes
    simp only [call, String.length_append, String.intercalate_nil, String.length_empty]
    omega
  by_cases ignores : ignoresArguments callee
  · have isOperand : callee.isBinary = false := by
      cases callee with
      | binary => cases ignores
      | _ => rfl
    have ignoresStill := (ignoresArguments_push isOperand pending).trans ignores
    simp only [passedCodes, ignores, ignoresStill, if_true, Nat.le_refl]
  · by_cases ignoresNow : ignoresArguments (callee.push pending).2
    · simp only [passedCodes, ignoresNow, if_true]
      exact dropped _
    · simp only [passedCodes, ignores, ignoresNow]
      exact shorter

namespace Regroups

/-- A property is regrouped as its target is, with the link at the last operand. -/
theorem member
    {target : Expression}
    {name : Identifier}
    {arrow : Bool}
    (regroups : Regroups exact place target) :
    Regroups exact place (.member target name arrow) := by
  refine of_operand (fun faithful pending => ?_) fun isExact pending => ?_
  · obtain ⟨nothing, same⟩ := regroups.operand faithful.2 faithful.1 pending
    refine ⟨nothing, ?_⟩
    rw [Expression.push, code?_member, code?_member, same]
    rfl
  · obtain ⟨found, echoes⟩ := regroups.echoes isExact pending
    exact ⟨_, echoes.link rfl rfl rfl (Nat.le_refl _)
      fun _ isOperand targetFaithful => ⟨isOperand, targetFaithful⟩⟩

/-- An index is regrouped as its target is; its position is a whole expression of its own. -/
theorem index
    {target position : Expression}
    {last : Position}
    (regroups : Regroups exact place target)
    (positionRegroups : Regroups exact place position)
    (rivals : Rivals exact position.Faithful (code place position)
      (code place position.regroup)) :
    Regroups exact place (.index target position last) := by
  refine of_operand (fun faithful pending => ?_) fun isExact pending => ?_
  · obtain ⟨isOperand, targetFaithful, positionFaithful⟩ := faithful
    obtain ⟨nothing, same⟩ := regroups.operand targetFaithful isOperand pending
    have positionSame := positionRegroups.whole positionFaithful
    refine ⟨nothing, ?_⟩
    rw [Expression.push, code?_index, code?_index, same]
    rw [Expression.regroup] at positionSame
    rw [positionSame]
  · obtain ⟨found, echoes⟩ := regroups.echoes isExact pending
    have linkRivals := rivals.between "[" "]"
    refine ⟨_, echoes.link rfl rfl rfl (linkRivals.shorter isExact) ?_⟩
    intro sameLink isOperand targetFaithful
    exact ⟨isOperand, targetFaithful, linkRivals.keeps isExact sameLink⟩

/-- The right operand of a binary expression is read behind the left one and the operator. -/
theorem binary
    {operator : String}
    {left right : Expression}
    (leftRegroups : Regroups exact place left)
    (rightRegroups : Regroups exact place right) :
    Regroups exact place (.binary operator left right) := by
  refine ⟨fun _ isOperand => ?_, fun faithful => ?_, fun isExact pending => ?_⟩
  · cases isOperand
  · obtain ⟨leftFaithful, rightFaithful⟩ := faithful
    obtain ⟨leftNothing, leftSame⟩ := leftRegroups.asOperand leftFaithful .empty
    obtain ⟨rightNothing, rightSame⟩ := rightRegroups.asOperand rightFaithful
      (Pending.empty.extend (left.pushOperand .empty).2 operator)
    simp only [Expression.regroup, Expression.push_binary, leftNothing, Pending.whole,
      rightNothing, Pending.finish_extend_empty, code?_binary, leftSame, rightSame]
  · obtain ⟨leftFound, leftEchoes⟩ := leftRegroups.echoesAsOperand isExact pending
    obtain ⟨rightFound, rightEchoes⟩ := rightRegroups.echoesAsOperand isExact _
    exact ⟨_, leftEchoes.binary rightEchoes⟩

/-- A call passes what became of its arguments, or nothing. -/
theorem invocation
    {callee : Expression}
    {arguments : List Expression}
    {last : Position}
    (regroups : Regroups exact place callee)
    (argumentsOver : Expression.AllOver vocabulary arguments)
    (same : Expression.AllFaithful arguments →
      (Expression.regroupAll arguments).map (code place) = arguments.map (code place))
    (rivals : Rivals exact (Expression.AllFaithful arguments)
      (call "" (arguments.map (code place)))
      (call "" ((Expression.regroupAll arguments).map (code place)))) :
    Regroups exact place (.invocation callee arguments last) := by
  refine of_operand (fun faithful pending => ?_) fun isExact pending => ?_
  · obtain ⟨isOperand, calleeFaithful, argumentsFaithful⟩ := faithful
    obtain ⟨nothing, calleeSame⟩ := regroups.operand calleeFaithful isOperand pending
    refine ⟨nothing, ?_⟩
    rw [Expression.push, code?_invocation, code?_invocation, calleeSame,
      ignoresArguments_push isOperand]
    refine congrArg _ (funext fun object => ?_)
    split
    · rfl
    · rename_i passes
      have isFaithful := argumentsFaithful (Bool.eq_false_iff.mpr passes)
      rw [emitExpressions_eq_codes argumentsOver,
        emitExpressions_eq_codes (Expression.regroupAll_over argumentsOver), same isFaithful]
  · obtain ⟨found, echoes⟩ := regroups.echoes isExact pending
    refine ⟨_, echoes.link rfl rfl rfl ?_ ?_⟩
    · exact length_passedCodes_push_le (rivals.shorter isExact) pending
    · intro sameLink isOperand calleeFaithful
      refine ⟨isOperand, calleeFaithful, fun passes => rivals.keeps isExact ?_⟩
      have passesStill := (ignoresArguments_push isOperand pending).trans passes
      simp only [passedCodes, passes, passesStill, Bool.false_eq_true, if_false] at sameLink
      exact sameLink

end Regroups

/-- What becomes of the codes of a list of expressions. -/
structure RegroupsAll (exact : Prop) (place : Place) (values : List Expression) : Prop where
  same : Expression.AllFaithful values →
    (Expression.regroupAll values).map (code place) = values.map (code place)
  rivals : Rivals exact (Expression.AllFaithful values)
    (String.intercalate ", " (values.map (code place)))
    (String.intercalate ", " ((Expression.regroupAll values).map (code place)))

/-- Several expressions compare one by one. -/
theorem RegroupsAll.cons
    {first : Expression}
    {rest : List Expression}
    (firstRivals : Rivals exact first.Faithful (code place first) (code place first.regroup))
    (restRegroups : RegroupsAll exact place rest) :
    RegroupsAll exact place (first :: rest) := by
  refine ⟨fun faithful => ?_, ?_⟩
  · have firstSame := firstRivals.same faithful.1
    rw [Expression.regroup] at firstSame
    rw [Expression.regroupAll, List.map_cons, List.map_cons, firstSame,
      restRegroups.same faithful.2]
  · cases rest with
    | nil =>
        simp only [Expression.regroupAll, List.map_cons, List.map_nil,
          String.intercalate_singleton]
        exact firstRivals.of_iff (and_true _).symm.to_iff
    | cons second others =>
        have whole := (firstRivals.append (.constant ", ")).append restRegroups.rivals
        simp only [Expression.regroupAll, List.map_cons, String.intercalate_cons_cons] at whole ⊢
        exact whole.of_iff (by rw [and_true]; rfl)

/-- The arguments of a call. -/
theorem RegroupsAll.call
    {values : List Expression}
    (regroups : RegroupsAll exact place values) :
    Rivals exact (Expression.AllFaithful values) (call "" (values.map (code place)))
      (call "" ((Expression.regroupAll values).map (code place))) :=
  regroups.rivals.between ("" ++ "(") ")"

/-- Moved expressions have the same code. -/
theorem code_relocate (move : Position → Position) (value : Expression) :
    code place (value.relocate move) = code place value := by
  rw [code, emitExpression_relocate]
  rfl

end Expressions

/-- Two emissions succeed, and the codes are rivals. -/
def RivalCodes (exact kept : Prop) (first second : Except UnsupportedNode String) : Prop :=
  ∃ before after, first = .ok before ∧ second = .ok after ∧ Rivals exact kept before after

section Trees

variable {vocabulary : Vocabulary}

/-- Rival expressions have rival codes. -/
theorem Regroups.codes
    {place : Place}
    {value : Expression}
    (regroups : Regroups (OpensVisibly vocabulary) place value)
    (lexical : vocabulary.IsLexical)
    (isOver : value.Over vocabulary) :
    RivalCodes (OpensVisibly vocabulary) value.Faithful (emitExpression place value)
      (emitExpression place (Pending.whole (value.push .empty))) :=
  ⟨_, _, emitExpression_eq_code isOver,
    emitExpression_eq_code (Expression.push_over isOver).whole,
    regroups.rivals lexical id isOver⟩

/-- The code of the test of a loop, which may be left out. -/
theorem test_rivals
    {exact : Prop}
    {place : Place}
    {test : Expression}
    (isOver : test = .missing ∨ test.Over vocabulary)
    (rivals : test.Over vocabulary →
      RivalCodes exact test.Faithful (emitExpression place test)
        (emitExpression place (Pending.whole (test.push .empty)))) :
    RivalCodes exact test.Faithful (emitTest place test)
      (emitTest place (Pending.whole (test.push .empty))) := by
  rcases isOver with rfl | isOver
  · exact ⟨_, _, rfl, rfl, .constant "true"⟩
  · have present : ∀ {value : Expression}, value.Over vocabulary →
        emitTest place value = emitExpression place value := by
      intro value isOver
      cases value with
      | missing => exact isOver.elim
      | _ => rfl
    rw [present isOver, present (Expression.push_over isOver).whole]
    exact rivals isOver

/-- The code of a clause of a loop, which may be left out. -/
theorem clause_rivals
    {exact : Prop}
    {place : Place}
    {clause : Statement}
    (isOver : clause = .missing ∨ clause.isClause ∧ clause.Over vocabulary)
    (rivals : clause.Over vocabulary →
      RivalCodes exact clause.Faithful (emitStatement place clause)
        (emitStatement place clause.regroup)) :
    RivalCodes exact clause.Faithful (emitClause place clause)
      (emitClause place clause.regroup) := by
  rcases isOver with rfl | ⟨isClause, isOver⟩
  · exact ⟨_, _, rfl, rfl, .constant ""⟩
  · cases clause with
    | declared | assigned | evaluated => exact rivals isOver
    | _ => cases isClause

mutual

/-- What becomes of the code of any expression over a lexical vocabulary. -/
theorem expression_regroups (lexical : vocabulary.IsLexical) (place : Place) :
    ∀ {value : Expression}, value.Over vocabulary →
      Regroups (OpensVisibly vocabulary) place value
  | .bool _ _, isOver => .of_isAtom rfl isOver (.constant _)
  | .number _ _ _, isOver => .of_isAtom rfl isOver (.constant _)
  | .string _ _, isOver => .of_isAtom rfl isOver (.constant _)
  | .array values _, isOver => by
      have regroups := expressions_regroup lexical place isOver
      have regroupedOver := Expression.regroupAll_over isOver
      refine .of_isAtom rfl isOver ?_
      cases values with
      | nil =>
          exact .constant _
      | cons first rest =>
          exact (regroups.rivals.between "@[" "]").of_codes (code_array isOver)
            (code_array regroupedOver)
  | .identifier _, isOver => .of_isAtom rfl isOver (.constant _)
  | .invocation _ _ _, ⟨calleeOver, argumentsOver⟩ => by
      have regroups := expressions_regroup lexical place argumentsOver
      exact (expression_regroups lexical place calleeOver).invocation argumentsOver
        regroups.same regroups.call
  | .member _ _ _, ⟨targetOver, _⟩ => (expression_regroups lexical place targetOver).member
  | .index _ _ _, ⟨targetOver, positionOver⟩ => by
      have regroups := expression_regroups lexical place positionOver
      exact (expression_regroups lexical place targetOver).index regroups
        (regroups.rivals lexical id positionOver)
  | .binary _ _ _, ⟨_, leftOver, rightOver⟩ =>
      (expression_regroups lexical place leftOver).binary
        (expression_regroups lexical place rightOver)
  | .closure parameters body _, isOver => by
      obtain ⟨before, after, beforeCode, afterCode, rivals⟩ :=
        block_rivals lexical place.nested isOver.2
      have codes := (Rivals.constant ("proc(" ++ parameterList [] parameters ++
        "): auto \x7b.closure, gcsafe.\x7d =\n")).append rivals
      refine .of_isAtom rfl isOver ((codes.of_codes ?_ ?_).of_iff (by rw [true_and]; rfl))
      · rw [code, emitExpression, beforeCode]
        rfl
      · rw [Expression.regroup, Expression.push, Pending.whole, Pending.finish_empty, code,
          emitExpression, afterCode, parameterList_relocate]
        rfl
  | .construction callee arguments _, isOver => by
      have regroups := expressions_regroup lexical place isOver.2
      have regroupedOver := Expression.regroupAll_over isOver.2
      have calleeOver : callee.erase.Over vocabulary := (isOver.1.relocate _).over
      have codes := (Rivals.constant (code place callee)).append regroups.call
      refine .of_isAtom rfl isOver ((codes.of_codes ?_ ?_).of_iff (by rw [true_and]; rfl))
      · exact code_construction isOver.1.over isOver.2
      · rw [← code_relocate (fun _ => .zero) callee]
        exact code_construction calleeOver regroupedOver
  | .rawCode _ _, isOver => .of_isAtom rfl isOver (.constant _)

/-- What becomes of the codes of several expressions. -/
theorem expressions_regroup (lexical : vocabulary.IsLexical) (place : Place) :
    ∀ {values : List Expression}, Expression.AllOver vocabulary values →
      RegroupsAll (OpensVisibly vocabulary) place values
  | [], _ => ⟨fun _ => rfl, .constant _⟩
  | _ :: _, ⟨firstOver, restOver⟩ =>
      .cons ((expression_regroups lexical place firstOver).rivals lexical id firstOver)
        (expressions_regroup lexical place restOver)

/-- The code of a block and the code of what its text stands for. -/
theorem block_rivals (lexical : vocabulary.IsLexical) (place : Place) :
    ∀ {block : Block}, block.Over vocabulary →
      RivalCodes (OpensVisibly vocabulary) block.Faithful (emitBlock place block)
        (emitBlock place block.regroup)
  | .of _ _, statementsOver => by
      rw [Block.regroup, emitBlock, emitBlock]
      exact statements_rivals lexical place statementsOver

/-- The codes of several statements and the codes of what their texts stand for. -/
theorem statements_rivals (lexical : vocabulary.IsLexical) (place : Place) :
    ∀ {nodes : List Statement}, Statement.AllOver vocabulary nodes →
      RivalCodes (OpensVisibly vocabulary) (Statement.AllFaithful nodes)
        (emitStatements place nodes) (emitStatements place (Statement.regroupAll nodes))
  | [], _ => ⟨_, _, rfl, rfl, .constant ""⟩
  | first :: rest, ⟨firstOver, restOver⟩ => by
      obtain ⟨before, after, beforeCode, afterCode, rivals⟩ :=
        statement_rivals lexical place firstOver
      obtain ⟨others, othersAfter, othersCode, othersAfterCode, othersRivals⟩ :=
        statements_rivals lexical place restOver
      rw [Statement.regroupAll, emitStatements, emitStatements, beforeCode, afterCode, othersCode,
        othersAfterCode]
      exact ⟨_, _, rfl, rfl, rivals.append othersRivals⟩

/-- The code of a statement and the code of what its text stands for. -/
theorem statement_rivals (lexical : vocabulary.IsLexical) (place : Place) :
    ∀ {node : Statement}, node.Over vocabulary →
      RivalCodes (OpensVisibly vocabulary) node.Faithful (emitStatement place node)
        (emitStatement place node.regroup)
  | .returned value _, isOver => by
      obtain ⟨before, after, beforeCode, afterCode, rivals⟩ :=
        (expression_regroups lexical place isOver).codes lexical isOver
      rw [Statement.regroup, emitStatement, emitStatement, beforeCode, afterCode]
      exact ⟨_, _, rfl, rfl, rivals.between _ _⟩
  | .declared name value _, ⟨_, isOver⟩ => by
      obtain ⟨before, after, beforeCode, afterCode, rivals⟩ :=
        (expression_regroups lexical place isOver).codes lexical isOver
      rw [Statement.regroup, emitStatement, emitStatement, beforeCode, afterCode]
      exact ⟨_, _, rfl, rfl, rivals.between _ _⟩
  | .assigned target value, ⟨targetOver, isOver⟩ => by
      obtain ⟨object, objectAfter, objectCode, objectAfterCode, objectRivals⟩ :=
        (expression_regroups lexical place targetOver).codes lexical targetOver
      obtain ⟨before, after, beforeCode, afterCode, rivals⟩ :=
        (expression_regroups lexical place isOver).codes lexical isOver
      rw [Statement.regroup, emitStatement, emitStatement, objectCode, objectAfterCode,
        beforeCode, afterCode]
      refine ⟨_, _, rfl, rfl, ?_⟩
      exact (((objectRivals.between _ _).append rivals).append (.constant _)).of_iff
        (by rw [and_true]; rfl)
  | .evaluated value, isOver => by
      obtain ⟨before, after, beforeCode, afterCode, rivals⟩ :=
        (expression_regroups lexical place isOver).codes lexical isOver
      rw [Statement.regroup, emitStatement, emitStatement, beforeCode, afterCode]
      exact ⟨_, _, rfl, rfl, rivals.between _ _⟩
  | .conditional test consequent alternative _, ⟨testOver, consequentOver, alternativeOver⟩ => by
      obtain ⟨question, questionAfter, questionCode, questionAfterCode, questionRivals⟩ :=
        (expression_regroups lexical place testOver).codes lexical testOver
      obtain ⟨before, after, beforeCode, afterCode, rivals⟩ :=
        block_rivals lexical place.nested consequentOver
      have otherwise : RivalCodes (OpensVisibly vocabulary) alternative.Faithful
          (emitBlock place.nested alternative)
          (emitBlock place.nested alternative.regroup) := by
        rcases alternativeOver with isMissing | alternativeOver
        · rw [isMissing]
          exact ⟨_, _, rfl, rfl, .constant ""⟩
        · exact block_rivals lexical place.nested alternativeOver
      obtain ⟨other, otherAfter, otherCode, otherAfterCode, otherRivals⟩ := otherwise
      rw [Statement.regroup, emitStatement, emitStatement, questionCode, questionAfterCode,
        beforeCode, afterCode, otherCode, otherAfterCode, Block.regroup_isEmpty]
      have branch := (questionRivals.between (place.indentation ++ "if ") ":\n").append rivals
      by_cases isShort : alternative.isEmpty
      · refine ⟨_, _, by simp only [isShort, if_true]; rfl, by simp only [isShort, if_true]; rfl,
          branch.of_iff ?_⟩
        have isFaithful := Block.faithful_of_isEmpty isShort
        exact ⟨fun kept => ⟨kept.1, kept.2, isFaithful⟩, fun kept => ⟨kept.1, kept.2.1⟩⟩
      · refine ⟨_, _, by simp only [isShort]; rfl, by simp only [isShort]; rfl, ?_⟩
        exact (((branch.append (.constant place.indentation)).append (.constant "else:\n")).append
          otherRivals).of_iff (by simp only [and_true, and_assoc]; rfl)
  | .whileLoop test body _, ⟨testOver, bodyOver⟩ => by
      obtain ⟨question, questionAfter, questionCode, questionAfterCode, questionRivals⟩ :=
        (expression_regroups lexical place testOver).codes lexical testOver
      obtain ⟨before, after, beforeCode, afterCode, rivals⟩ :=
        block_rivals lexical place.nested bodyOver
      rw [Statement.regroup, emitStatement, emitStatement, questionCode, questionAfterCode,
        beforeCode, afterCode]
      exact ⟨_, _, rfl, rfl, (questionRivals.between _ _).append rivals⟩
  | .forLoop initial test increment body _,
      ⟨initialOver, testOver, incrementOver, bodyOver⟩ => by
      obtain ⟨first, firstAfter, firstCode, firstAfterCode, firstRivals⟩ :=
        clause_rivals initialOver (statement_rivals lexical place)
      obtain ⟨question, questionAfter, questionCode, questionAfterCode, questionRivals⟩ :=
        test_rivals testOver fun isOver =>
          (expression_regroups lexical place isOver).codes lexical isOver
      obtain ⟨before, after, beforeCode, afterCode, rivals⟩ :=
        block_rivals lexical place.nested bodyOver
      obtain ⟨last, lastAfter, lastCode, lastAfterCode, lastRivals⟩ :=
        clause_rivals incrementOver (statement_rivals lexical place.nested)
      rw [Statement.regroup, emitStatement_forLoop, emitStatement_forLoop, firstCode,
        firstAfterCode, questionCode, questionAfterCode, beforeCode, afterCode, lastCode,
        lastAfterCode]
      refine ⟨_, _, rfl, rfl, ?_⟩
      have head := ((firstRivals.append (.constant place.indentation)).append
        (.constant "while ")).append questionRivals
      exact (((head.append (.constant ":\n")).append rivals).append lastRivals).of_iff
        (by simp only [and_true, and_assoc]; rfl)

end

end Trees

end Nim

end FrenchNim
