import FrenchNim.Proofs.Nim.Margins

namespace FrenchNim

/-!
# Headers of blocks and the lines behind them

A header is followed by the first line of its block, which is indented one level
deeper. But nothing is written for a block without statements, so the line behind
its header is whatever comes next, and that never stands deeper than the header.
-/

/-! ## Blocks with statements -/

mutual

/-- Every block in the code of the expression has a line. -/
def Expression.fillsBlocks : Expression → Bool
  | .array values _ => Expression.allFillBlocks values
  | .invocation callee arguments _ =>
      callee.fillsBlocks &&
        (Nim.ignoresArguments callee || Expression.allFillBlocks arguments)
  | .member target _ _ => target.fillsBlocks
  | .index target position _ => target.fillsBlocks && position.fillsBlocks
  | .binary _ left right => left.fillsBlocks && right.fillsBlocks
  | .closure _ body _ => !body.isEmpty && body.fillsBlocks
  | .construction _ arguments _ => Expression.allFillBlocks arguments
  | .bool _ _ => true
  | .number _ _ _ => true
  | .string _ _ => true
  | .identifier _ => true
  | .rawCode _ _ => true
  | .unknown _ _ => true
  | .missing => true

/-- Every block in the code of the expressions has a line. -/
def Expression.allFillBlocks : List Expression → Bool
  | [] => true
  | first :: rest => first.fillsBlocks && Expression.allFillBlocks rest

/-- Every block in the code of the statements of a block has a line. -/
def Block.fillsBlocks : Block → Bool
  | .of statements _ => Statement.allFillBlocks statements
  | .missing => true

/--
Every block in the code of the statement has a line.

The second branch of a condition may be empty, since it is left out then, and the
body of a loop may be empty if the loop has a last clause.
-/
def Statement.fillsBlocks : Statement → Bool
  | .returned value _ => value.fillsBlocks
  | .declared _ value _ => value.fillsBlocks
  | .assigned target value => target.fillsBlocks && value.fillsBlocks
  | .evaluated value => value.fillsBlocks
  | .conditional test consequent alternative _ =>
      test.fillsBlocks && (!consequent.isEmpty && consequent.fillsBlocks) &&
        alternative.fillsBlocks
  | .whileLoop test body _ => test.fillsBlocks && (!body.isEmpty && body.fillsBlocks)
  | .forLoop initial test increment body _ =>
      initial.fillsBlocks && test.fillsBlocks && (!body.isEmpty || increment.isPresent) &&
        body.fillsBlocks && increment.fillsBlocks
  | .unknown _ _ => true
  | .missing => true

/-- Every block in the code of the statements has a line. -/
def Statement.allFillBlocks : List Statement → Bool
  | [] => true
  | first :: rest => first.fillsBlocks && Statement.allFillBlocks rest

end

/-- An empty block has no blocks inside that could be empty. -/
theorem Block.fillsBlocks_of_isEmpty {block : Block} (isEmpty : block.isEmpty = true) :
    block.fillsBlocks = true := by
  cases block with
  | missing => rfl
  | of statements span =>
      cases statements with
      | nil => rfl
      | cons => cases isEmpty

/--
Every block in the code of the declaration has a line.

The body of a constructor may be empty, since its procedure has a line of its own.
-/
def Declaration.fillsBlocks : Declaration → Bool
  | .classType _ constructor? methods _ =>
      constructor?.all (·.body.fillsBlocks) &&
        methods.all fun method => !method.body.isEmpty && method.body.fillsBlocks
  | .function _ _ body _ => !body.isEmpty && body.fillsBlocks
  | .constant _ value _ => value.fillsBlocks
  | .statement body => body.fillsBlocks
  | .imported _ _ _ _ => true
  | .typeName _ _ _ => true

/-- Every block in the code of the program has a line. -/
def Program.fillsBlocks (program : Program) : Bool :=
  program.declarations.all Declaration.fillsBlocks

namespace Nim

open Chunk (spelled written)

/-- Behind each header of the row there is a line that is indented deeper than the header. -/
def Headed : List Chunk → Prop
  | [] => True
  | .code _ :: rest => Headed rest
  | .lineBreak :: rest => Headed rest
  | .header depth :: rest => 2 * (depth + 1) ≤ leading (spelled rest) ∧ Headed rest

/-- A row that begins no line deeper than this. -/
def Shallow (depth : Nat) (row : List Chunk) : Prop :=
  leading (spelled row) < 2 * (depth + 1)

section Shallow

variable {depth : Nat} {row rest : List Chunk}

/-- What is shallow at a depth is shallow one level deeper. -/
theorem Shallow.nested (shallow : Shallow depth row) : Shallow (depth + 1) row :=
  Nat.lt_of_lt_of_le shallow (by omega)

/-- A text that goes on in a line is not indented. -/
theorem Continues.leading_lt {text : List Char} (continues : Continues text) :
    leading text < 2 :=
  Nat.lt_of_not_le fun deep => continues (startsLine_of_le deep)

/-- Code that goes on in a line is shallow at every depth. -/
theorem shallow_code {text : String} (goesOn : GoesOn text) : Shallow depth (.code text :: rest) :=
  Nat.lt_of_lt_of_le (goesOn.continues _).leading_lt (by omega)

/-- A line break is shallow at every depth. -/
theorem shallow_lineBreak : Shallow depth (.lineBreak :: rest) := by
  rw [Shallow, Chunk.spelled_lineBreak, leading_other (by decide)]
  omega

/-- Code that goes on in a line has one leading space at most. -/
theorem leading_word {text : String} (goesOn : GoesOn text) (rest : List Chunk) :
    leading (spelled (.code text :: rest)) ≤ 1 :=
  Nat.le_of_lt_succ (goesOn.continues _).leading_lt

/-- A line at a depth begins no deeper. -/
theorem shallow_line
    {place : Place}
    (low : leading (spelled rest) ≤ 1) :
    Shallow place.depth (.code place.indentation :: rest) := by
  rw [Shallow, Chunk.spelled_code, leading_indentation]
  omega

end Shallow

/-! ## How code begins -/

open Sign (OpensWith startsOperand)

/-- An operand does not begin with a space. -/
theorem opensWith_of_startsOperand
    {text : String}
    (opens : OpensWith startsOperand text) :
    OpensWith (· ≠ ' ') text :=
  opens.imp fun c starts isSpace => absurd starts.2 (by rw [isSpace]; decide)

section Begin

variable {text : String} (opens : OpensWith (· ≠ ' ') text) (row : List Chunk) (rest : List Char)

include opens

/-- Code that opens with a visible character is not indented. -/
theorem leading_code : leading (spelled (.code text :: row) ++ rest) = 0 := by
  obtain ⟨c, more, chars, visible⟩ := opens
  rw [Chunk.spelled_code, chars, List.cons_append, List.cons_append, leading_other visible]

theorem leading_begin (bound : Nat) : leading (spelled (.code text :: row) ++ rest) ≤ bound := by
  rw [leading_code opens]
  exact Nat.zero_le _

/-- A link stands behind what it is applied to. -/
theorem leading_link
    {target : List Chunk}
    (low : ∀ rest, leading (spelled target ++ rest) ≤ leading rest) :
    leading (spelled (target ++ .code text :: row) ++ rest) ≤ leading rest := by
  rw [Chunk.spelled_append, List.append_assoc]
  exact Nat.le_trans (low _) (leading_begin opens row rest _)

end Begin

section Trees

variable {vocabulary : Vocabulary}

/-- A line is not deeper for an expression in front of it. -/
theorem leading_expression
    (fits : FitsLines vocabulary)
    (place : Place) :
    ∀ {value : Expression}, value.Over vocabulary → ∀ rest : List Char,
      leading (spelled (expressionRow place value) ++ rest) ≤ leading rest
  | .bool value _, _, rest => by
      have isTrue : OpensWith (· ≠ ' ') "true" := ⟨'t', _, rfl, by decide⟩
      have isFalse : OpensWith (· ≠ ' ') "false" := ⟨'f', _, rfl, by decide⟩
      cases value
      · exact leading_begin isFalse [] rest _
      · exact leading_begin isTrue [] rest _
  | .number _ value _, _, rest => by
      have opens := opensWith_of_startsOperand (opensWith_number value)
      exact leading_begin opens [] rest _
  | .string value _, _, rest => by
      have opens : OpensWith (· ≠ ' ') (stringLiteral value) := opensWith_ofList (by decide) _
      exact leading_begin opens [] rest _
  | .array [] _, _, rest => by
      have opens : OpensWith (· ≠ ' ') "newSeq[string]()" := ⟨'n', _, rfl, by decide⟩
      exact leading_begin opens [] rest _
  | .array (first :: others) _, _, rest => by
      rw [expressionRow]
      exact leading_begin ⟨'@', _, rfl, by decide⟩ _ rest _
  | .identifier _, known, rest => by
      have opens := opensWith_of_startsOperand (opensWith_name place (fits.name known))
      exact leading_begin opens [] rest _
  | .invocation callee arguments _, ⟨calleeOver, _⟩, rest => by
      rw [expressionRow]
      exact leading_link ⟨'(', _, rfl, by decide⟩ _ rest (leading_expression fits place calleeOver)
  | .member target _ _, ⟨targetOver, _⟩, rest => by
      rw [expressionRow]
      exact leading_link (OpensWith.append ⟨'.', _, rfl, by decide⟩ _) _ rest
        (leading_expression fits place targetOver)
  | .index target position _, ⟨targetOver, _⟩, rest => by
      rw [expressionRow]
      exact leading_link ⟨'[', _, rfl, by decide⟩ _ rest (leading_expression fits place targetOver)
  | .binary operator left right, _, rest => by
      rw [expressionRow]
      exact leading_begin ⟨'(', _, rfl, by decide⟩ _ rest _
  | .closure parameters body _, _, rest => by
      have opens : OpensWith (· ≠ ' ') (closureHeader parameters) :=
        OpensWith.append (OpensWith.append ⟨'p', _, rfl, by decide⟩ _) _
      rw [expressionRow]
      exact leading_begin opens _ rest _
  | .construction callee arguments _, ⟨named, _⟩, rest => by
      rw [expressionRow]
      exact leading_link ⟨'(', _, rfl, by decide⟩ _ rest (leading_expression fits place named.over)
  | .rawCode code _, known, rest => by
      rcases fits.code known with rfl | opens
      · exact Nat.le_refl _
      · exact leading_begin opens [] rest _

/-- The name of a class holds no block. -/
theorem fillsBlocks_of_isClassName
    {callee : Expression}
    (named : callee.IsClassName vocabulary) :
    callee.fillsBlocks = true :=
  named.induction (fun _ _ => rfl) fun _ _ _ _ fillsBlocks => fillsBlocks

/-- The text begins a line of the place. -/
def BeginsAt (place : Place) (text : List Char) : Prop :=
  2 * place.depth ≤ leading text ∧ leading text ≤ 2 * place.depth + 1

/-- Indented code begins a line of its place. -/
theorem beginsAt_line
    (place : Place)
    {rest : List Char}
    (low : leading rest ≤ 1) :
    BeginsAt place (place.indentation.toList ++ rest) := by
  rw [BeginsAt, leading_indentation]
  omega

/-- A statement begins a line of its place. -/
theorem beginsAt_statement
    (fits : FitsLines vocabulary)
    (place : Place) :
    ∀ {node : Statement}, node.Over vocabulary → ∀ rest : List Char,
      BeginsAt place (spelled (statementRow place node) ++ rest)
  | .returned value _, _, rest => by
      rw [statementRow, Chunk.spelled_code, List.append_assoc]
      exact beginsAt_line place (leading_begin ⟨'r', _, rfl, by decide⟩ _ _ 1)
  | .declared identifier value _, _, rest => by
      have opens : OpensWith (· ≠ ' ') (variableHead place identifier) :=
        OpensWith.append (OpensWith.append (OpensWith.append ⟨'v', _, rfl, by decide⟩ _) _) _
      rw [statementRow, Chunk.spelled_code, List.append_assoc]
      exact beginsAt_line place (leading_begin opens _ _ 1)
  | .assigned target value, ⟨targetOver, _⟩, rest => by
      simp only [statementRow, Chunk.spelled_code, Chunk.spelled_append, List.append_assoc]
      refine beginsAt_line place (Nat.le_trans (leading_expression fits place targetOver _) ?_)
      exact Nat.le_of_lt_succ (GoesOn.continues (by decide) _).leading_lt
  | .evaluated value, valueOver, rest => by
      simp only [statementRow, Chunk.spelled_code, Chunk.spelled_append, Chunk.spelled_lineBreak,
        List.append_assoc]
      refine beginsAt_line place (Nat.le_trans (leading_expression fits place valueOver _) ?_)
      rw [List.cons_append, leading_other (by decide)]
      exact Nat.zero_le _
  | .conditional test consequent alternative _, _, rest => by
      rw [statementRow, Chunk.spelled_code, List.append_assoc]
      exact beginsAt_line place (leading_begin ⟨'i', _, rfl, by decide⟩ _ _ 1)
  | .whileLoop test body _, _, rest => by
      rw [statementRow, Chunk.spelled_code, List.append_assoc]
      exact beginsAt_line place (leading_begin ⟨'w', _, rfl, by decide⟩ _ _ 1)
  | .forLoop initial test increment body _, ⟨initialOver, _, _, _⟩, rest => by
      rw [statementRow, Chunk.spelled_append, List.append_assoc]
      rcases initialOver with rfl | ⟨-, initialOver⟩
      · rw [Chunk.spelled_code, List.append_assoc]
        exact beginsAt_line place (leading_begin ⟨'w', _, rfl, by decide⟩ _ _ 1)
      · exact beginsAt_statement fits place initialOver _

/-- Statements begin no deeper line than their place does. -/
theorem shallow_statements
    (fits : FitsLines vocabulary)
    {place : Place}
    {nodes : List Statement}
    (allOver : Statement.AllOver vocabulary nodes)
    {rest : List Chunk}
    (shallow : Shallow place.depth rest) :
    Shallow place.depth (statementsRow place nodes ++ rest) := by
  cases nodes with
  | nil => exact shallow
  | cons first others =>
      have begins := beginsAt_statement fits place allOver.1
        (spelled (statementsRow place others ++ rest))
      rw [statementsRow, List.append_assoc, Shallow, Chunk.spelled_append]
      exact Nat.lt_of_le_of_lt begins.2 (by omega)

/-- Only behind an empty block the line is not the block's own. -/
theorem block_deep_iff
    (fits : FitsLines vocabulary)
    (place : Place)
    {block : Block}
    (isOver : block.Over vocabulary)
    (rest : List Chunk) :
    2 * place.depth ≤ leading (spelled (blockRow place block ++ rest)) ↔
      block.isEmpty = false ∨ 2 * place.depth ≤ leading (spelled rest) := by
  cases block with
  | missing => exact isOver.elim
  | of statements span =>
      cases statements with
      | nil => exact (or_iff_right (by simp [Block.isEmpty, Block.statements])).symm
      | cons first others =>
          have begins := beginsAt_statement fits place isOver.1
            (spelled (statementsRow place others ++ rest))
          rw [blockRow, statementsRow, List.append_assoc, Chunk.spelled_append]
          exact iff_of_true begins.1 (.inl rfl)

/-- A header whose block is followed by shallow code needs a statement in the block. -/
theorem headed_block
    (fits : FitsLines vocabulary)
    {place : Place}
    {block : Block}
    (isOver : block.Over vocabulary)
    {rest : List Chunk}
    (shallow : Shallow place.depth rest)
    (inner : Headed (blockRow place.nested block ++ rest) ↔
      block.fillsBlocks = true ∧ Headed rest) :
    Headed (.header place.depth :: (blockRow place.nested block ++ rest)) ↔
      (!block.isEmpty && block.fillsBlocks) = true ∧ Headed rest := by
  have deep := block_deep_iff fits place.nested isOver rest
  have low : ¬ 2 * place.nested.depth ≤ leading (spelled rest) := Nat.not_le.mpr shallow
  rw [or_iff_left low] at deep
  have isDeep : 2 * (place.depth + 1) ≤ leading (spelled (blockRow place.nested block ++ rest)) ↔
      block.isEmpty = false := deep
  rw [Headed, isDeep, inner, Bool.and_eq_true, Bool.not_eq_true', and_assoc]

/-- A clause begins no deeper line than its place does. -/
theorem shallow_clause
    (fits : FitsLines vocabulary)
    {place : Place}
    {clause : Statement}
    (isOver : clause = .missing ∨ clause.isClause = true ∧ clause.Over vocabulary)
    {rest : List Chunk}
    (shallow : Shallow place.depth rest) :
    Shallow place.depth (statementRow place clause ++ rest) := by
  rcases isOver with rfl | ⟨-, isOver⟩
  · exact shallow
  · rw [Shallow, Chunk.spelled_append]
    exact Nat.lt_of_le_of_lt (beginsAt_statement fits place isOver _).2 (by omega)

/-- The line behind the header of a loop belongs to the body or to the last clause. -/
theorem loop_deep_iff
    (fits : FitsLines vocabulary)
    {place : Place}
    {body : Block}
    (bodyOver : body.Over vocabulary)
    {increment : Statement}
    (isOver : increment = .missing ∨ increment.isClause = true ∧ increment.Over vocabulary)
    {rest : List Chunk}
    (shallow : Shallow place.depth rest) :
    2 * (place.depth + 1) ≤ leading (spelled
        (blockRow place.nested body ++ (statementRow place.nested increment ++ rest))) ↔
      body.isEmpty = false ∨ increment.isPresent = true := by
  refine (block_deep_iff fits place.nested bodyOver _).trans (or_congr_right ?_)
  rcases isOver with rfl | ⟨-, isOver⟩
  · exact iff_of_false (Nat.not_le.mpr shallow) nofun
  · rw [Chunk.spelled_append]
    exact iff_of_true (beginsAt_statement fits place.nested isOver _).1
      (Statement.isPresent_of_over isOver)

/-! ## Headers in statements -/

mutual

/-- All headers of an expression have a line behind them if its blocks are filled. -/
theorem headed_expression
    (fits : FitsLines vocabulary)
    (place : Place) :
    ∀ {value : Expression}, value.Over vocabulary → ∀ {rest : List Chunk},
      Shallow place.depth rest →
        (Headed (expressionRow place value ++ rest) ↔ value.fillsBlocks = true ∧ Headed rest)
  | .bool _ _, _, _, _ => (and_iff_right rfl).symm
  | .number _ _ _, _, _, _ => (and_iff_right rfl).symm
  | .string _ _, _, _, _ => (and_iff_right rfl).symm
  | .array [] _, _, _, _ => (and_iff_right rfl).symm
  | .array (first :: others) _, isOver, rest, _ => by
      simp only [expressionRow, List.cons_append, List.append_assoc, List.nil_append]
      rw [Headed, headed_items fits place isOver (shallow_code (by decide)), Headed]
      rfl
  | .identifier _, _, _, _ => (and_iff_right rfl).symm
  | .rawCode _ _, _, _, _ => (and_iff_right rfl).symm
  | .invocation callee arguments _, ⟨calleeOver, argumentsOver⟩, rest, _ => by
      simp only [expressionRow, List.cons_append, List.append_assoc, List.nil_append,
        Expression.fillsBlocks]
      rw [headed_expression fits place calleeOver (shallow_code (by decide)), Headed]
      split
      · rw [List.nil_append, Headed]
        simp [*]
      · rw [headed_items fits place argumentsOver (shallow_code (by decide)), Headed]
        simp [*, and_assoc]
  | .member target identifier _, ⟨targetOver, _⟩, rest, _ => by
      simp only [expressionRow, List.cons_append, List.append_assoc, List.nil_append]
      rw [headed_expression fits place targetOver (shallow_code (GoesOn.append (by decide) _)),
        Headed]
      rfl
  | .index target position _, ⟨targetOver, positionOver⟩, rest, _ => by
      simp only [expressionRow, List.cons_append, List.append_assoc, List.nil_append,
        Expression.fillsBlocks]
      rw [headed_expression fits place targetOver (shallow_code (by decide)), Headed,
        headed_expression fits place positionOver (shallow_code (by decide)), Headed,
        Bool.and_eq_true, and_assoc]
  | .binary operator left right, ⟨known, leftOver, rightOver⟩, rest, _ => by
      simp only [expressionRow, List.cons_append, List.append_assoc, List.nil_append,
        Expression.fillsBlocks]
      rw [Headed, headed_expression fits place leftOver
          (shallow_code (goesOn_operator (fits.operator known))), Headed,
        headed_expression fits place rightOver (shallow_code (by decide)), Headed,
        Bool.and_eq_true, and_assoc]
  | .closure parameters body _, ⟨_, bodyOver⟩, rest, shallow => by
      simp only [expressionRow, List.cons_append, Expression.fillsBlocks]
      rw [Headed, headed_block fits bodyOver shallow
        (headed_blockRow fits place.nested bodyOver shallow.nested)]
  | .construction callee arguments _, ⟨named, argumentsOver⟩, rest, _ => by
      simp only [expressionRow, List.cons_append, List.append_assoc, List.nil_append,
        Expression.fillsBlocks]
      rw [headed_expression fits place named.over (shallow_code (by decide)), Headed,
        headed_items fits place argumentsOver (shallow_code (by decide)), Headed]
      exact and_iff_right (fillsBlocks_of_isClassName named)

/-- The headers in items have their lines if all blocks in the items have one. -/
theorem headed_items
    (fits : FitsLines vocabulary)
    (place : Place) :
    ∀ {values : List Expression}, Expression.AllOver vocabulary values →
      ∀ {separator : String} {rest : List Chunk}, Shallow place.depth rest →
        (Headed (itemsRow place separator values ++ rest) ↔
          Expression.allFillBlocks values = true ∧ Headed rest)
  | [], _, _, _, _ => (and_iff_right rfl).symm
  | first :: others, ⟨firstOver, othersOver⟩, _, rest, shallow => by
      have further : Shallow place.depth (itemsRow place ", " others ++ rest) := by
        cases others with
        | nil => exact shallow
        | cons second more => exact shallow_code (by decide)
      simp only [itemsRow, List.cons_append, List.append_assoc, Expression.allFillBlocks]
      rw [Headed, headed_expression fits place firstOver further,
        headed_items fits place othersOver shallow, Bool.and_eq_true, and_assoc]

/-- The headers in a block have their lines if all blocks in it have one. -/
theorem headed_blockRow
    (fits : FitsLines vocabulary)
    (place : Place) :
    ∀ {block : Block}, block.Over vocabulary → ∀ {rest : List Chunk}, Shallow place.depth rest →
      (Headed (blockRow place block ++ rest) ↔ block.fillsBlocks = true ∧ Headed rest)
  | .of _ _, isOver, _, shallow => headed_statements fits place isOver shallow

/-- The headers in statements have their lines if all blocks in them have one. -/
theorem headed_statements
    (fits : FitsLines vocabulary)
    (place : Place) :
    ∀ {nodes : List Statement}, Statement.AllOver vocabulary nodes →
      ∀ {rest : List Chunk}, Shallow place.depth rest →
        (Headed (statementsRow place nodes ++ rest) ↔
          Statement.allFillBlocks nodes = true ∧ Headed rest)
  | [], _, _, _ => (and_iff_right rfl).symm
  | first :: others, ⟨firstOver, othersOver⟩, rest, shallow => by
      rw [statementsRow, List.append_assoc,
        headed_statement fits place firstOver (shallow_statements fits othersOver shallow),
        headed_statements fits place othersOver shallow, Statement.allFillBlocks,
        Bool.and_eq_true, and_assoc]

/-- All headers of a statement have a line behind them if its blocks are filled. -/
theorem headed_statement
    (fits : FitsLines vocabulary)
    (place : Place) :
    ∀ {node : Statement}, node.Over vocabulary → ∀ {rest : List Chunk},
      Shallow place.depth rest →
        (Headed (statementRow place node ++ rest) ↔ node.fillsBlocks = true ∧ Headed rest)
  | .returned value _, isOver, rest, _ => by
      simp only [statementRow, List.cons_append, List.append_assoc, List.nil_append]
      rw [Headed, Headed, headed_expression fits place isOver shallow_lineBreak, Headed]
      rfl
  | .declared identifier value _, ⟨_, isOver⟩, rest, _ => by
      simp only [statementRow, List.cons_append, List.append_assoc, List.nil_append]
      rw [Headed, Headed, headed_expression fits place isOver shallow_lineBreak, Headed]
      rfl
  | .assigned target value, ⟨targetOver, isOver⟩, rest, _ => by
      simp only [statementRow, List.cons_append, List.append_assoc, List.nil_append]
      rw [Headed, headed_expression fits place targetOver (shallow_code (by decide)), Headed,
        headed_expression fits place isOver shallow_lineBreak, Headed, Statement.fillsBlocks,
        Bool.and_eq_true, and_assoc]
  | .evaluated value, isOver, rest, _ => by
      simp only [statementRow, List.cons_append, List.append_assoc, List.nil_append]
      rw [Headed, headed_expression fits place isOver shallow_lineBreak, Headed]
      rfl
  | .conditional test consequent alternative _, ⟨testOver, consequentOver, alternativeOver⟩,
      rest, shallow => by
      -- The line behind the header of the first block may be the other header.
      have other : Headed ((if alternative.isEmpty then [] else
            .code place.indentation :: .code "else:" :: .header place.depth ::
              blockRow place.nested alternative) ++ rest) ↔
          alternative.fillsBlocks = true ∧ Headed rest := by
        by_cases isEmpty : alternative.isEmpty
        · rw [if_pos isEmpty, List.nil_append]
          exact (and_iff_right (Block.fillsBlocks_of_isEmpty isEmpty)).symm
        rcases alternativeOver with rfl | isOver
        · exact (isEmpty rfl).elim
        · rw [if_neg isEmpty]
          simp only [List.cons_append]
          rw [Headed, Headed, headed_block fits isOver shallow
            (headed_blockRow fits place.nested isOver shallow.nested)]
          simp [isEmpty]
      have low : Shallow place.depth ((if alternative.isEmpty then [] else
          .code place.indentation :: .code "else:" :: .header place.depth ::
            blockRow place.nested alternative) ++ rest) := by
        split
        · exact shallow
        · exact shallow_line (leading_word (by decide) _)
      simp only [statementRow, List.cons_append, List.append_assoc]
      rw [Headed, Headed, headed_expression fits place testOver (shallow_code (by decide)), Headed,
        headed_block fits consequentOver low
          (headed_blockRow fits place.nested consequentOver low.nested), other,
        Statement.fillsBlocks]
      simp only [Bool.and_eq_true, and_assoc]
  | .whileLoop test body _, ⟨testOver, bodyOver⟩, rest, shallow => by
      simp only [statementRow, List.cons_append, List.append_assoc]
      rw [Headed, Headed, headed_expression fits place testOver (shallow_code (by decide)), Headed,
        headed_block fits bodyOver shallow
          (headed_blockRow fits place.nested bodyOver shallow.nested),
        Statement.fillsBlocks, Bool.and_eq_true test.fillsBlocks, and_assoc]
  | .forLoop initial test increment body _, ⟨initialOver, testOver, incrementOver, bodyOver⟩,
      rest, shallow => by
      have first : ∀ {more : List Chunk}, Shallow place.depth more →
          (Headed (statementRow place initial ++ more) ↔
            initial.fillsBlocks = true ∧ Headed more) := by
        intro more shallowMore
        rcases initialOver with rfl | ⟨-, isOver⟩
        · exact (and_iff_right rfl).symm
        · exact headed_statement fits place isOver shallowMore
      -- The last clause of the head stands in the body, so it may be its only line.
      have last : Headed (statementRow place.nested increment ++ rest) ↔
          increment.fillsBlocks = true ∧ Headed rest := by
        rcases incrementOver with rfl | ⟨-, isOver⟩
        · exact (and_iff_right rfl).symm
        · exact headed_statement fits place.nested isOver shallow.nested
      have condition : ∀ {more : List Chunk}, Shallow place.depth more →
          (Headed ((if test.isPresent then expressionRow place test else [.code "true"]) ++ more) ↔
            test.fillsBlocks = true ∧ Headed more) := by
        intro more shallowMore
        rcases testOver with rfl | isOver
        · exact (and_iff_right rfl).symm
        · rw [if_pos (Expression.isPresent_of_over isOver)]
          exact headed_expression fits place isOver shallowMore
      have bodyRow := headed_blockRow fits place.nested bodyOver
        (shallow_clause fits incrementOver shallow.nested)
      simp only [statementRow, List.cons_append, List.append_assoc]
      rw [first (shallow_line (leading_word (by decide) _)), Headed, Headed,
        condition (shallow_code (by decide)), Headed, Headed,
        loop_deep_iff fits bodyOver incrementOver shallow, bodyRow, last, Statement.fillsBlocks]
      simp only [Bool.and_eq_true, Bool.or_eq_true, Bool.not_eq_true', and_assoc]

end

end Trees

end Nim

end FrenchNim
