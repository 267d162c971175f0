import FrenchNim.Proofs.Nim.Lines
import FrenchNim.Proofs.Syntax.Shape

namespace FrenchNim

/-!
# The margins of emitted statements

Each line that a statement begins is indented by the depth of the statement, and
the lines of its blocks are indented further. But the code of a closure ends with
a line break, so whatever stands behind a closure in the same statement begins a
line of its own, without any indentation. A statement keeps its margin, at every
depth other than zero, exactly if its closures stand at its very end.
-/

/-! ## Closures at the end -/

mutual

/-- No closure is part of the code of the expression. -/
def Expression.isFlat : Expression → Bool
  | .array values _ => Expression.allFlat values
  | .invocation callee arguments _ =>
      callee.isFlat && (Nim.ignoresArguments callee || Expression.allFlat arguments)
  | .member target _ _ => target.isFlat
  | .index target position _ => target.isFlat && position.isFlat
  | .binary _ left right => left.isFlat && right.isFlat
  | .closure _ _ _ => false
  | .construction _ arguments _ => Expression.allFlat arguments
  | .bool _ _ => true
  | .number _ _ _ => true
  | .string _ _ => true
  | .identifier _ => true
  | .rawCode _ _ => true
  | .unknown _ _ => true
  | .missing => true

/-- No closure is part of the code of the expressions. -/
def Expression.allFlat : List Expression → Bool
  | [] => true
  | first :: rest => first.isFlat && Expression.allFlat rest

end

/-- The expression is a closure. -/
def Expression.isClosure : Expression → Bool
  | .closure _ _ _ => true
  | _ => false

mutual

/-- The expression is flat, or it is a closure whose statements close last. -/
def Expression.closesLast : Expression → Bool
  | .closure _ body _ => body.closesLast
  | value => value.isFlat

/-- Closures stand at the ends of the statements of a block. -/
def Block.closesLast : Block → Bool
  | .of statements _ => Statement.allCloseLast statements
  | .missing => true

/-- Closures stand at the end of the statement and of the statements in it. -/
def Statement.closesLast : Statement → Bool
  | .returned value _ => value.closesLast
  | .declared _ value _ => value.closesLast
  | .assigned target value => target.isFlat && value.closesLast
  | .evaluated value => value.closesLast
  | .conditional test consequent alternative _ =>
      test.isFlat && consequent.closesLast && alternative.closesLast
  | .whileLoop test body _ => test.isFlat && body.closesLast
  | .forLoop initial test increment body _ =>
      initial.closesLast && test.isFlat && body.closesLast && increment.closesLast
  | .unknown _ _ => true
  | .missing => true

/-- Closures stand at the ends of statements. -/
def Statement.allCloseLast : List Statement → Bool
  | [] => true
  | first :: rest => first.closesLast && Statement.allCloseLast rest

end

/-- An empty block has no closure that could stand elsewhere. -/
theorem Block.closesLast_of_isEmpty {block : Block} (isEmpty : block.isEmpty = true) :
    block.closesLast = true := by
  cases block with
  | missing => rfl
  | of statements span =>
      cases statements with
      | nil => rfl
      | cons => cases isEmpty

/-- A string or embedded code has no line break. -/
def Expression.IsOneLine : Expression → Prop
  | .string value _ => '\n' ∉ value.toList
  | .rawCode code _ => '\n' ∉ code.toList
  | _ => True

namespace Nim

/-! ## Margins of trees -/

section Trees

variable {vocabulary : Vocabulary} {width : Nat}

/-- A part of a line keeps every margin. -/
theorem keepsMargin_leaf
    {text : String}
    (isLine : IsLine text)
    (rest : List Char) :
    KeepsMargin width (Chunk.spelled [.code text] ++ rest) ↔
      true = true ∧ KeepsMargin width rest := by
  rw [Chunk.spelled_code, Chunk.spelled_nil, List.append_nil, keepsMargin_append isLine]
  exact (and_iff_right rfl).symm

/-- The name of a class is one line. -/
theorem everywhere_of_isClassName
    {callee : Expression}
    (named : callee.IsClassName vocabulary) :
    callee.Everywhere Expression.IsOneLine :=
  named.induction (fun _ _ => trivial) fun _ _ _ _ everywhere => ⟨trivial, everywhere⟩

/-- The name of a class holds no closure. -/
theorem isFlat_of_isClassName
    {callee : Expression}
    (named : callee.IsClassName vocabulary) :
    callee.isFlat = true :=
  named.induction (fun _ _ => rfl) fun _ _ _ _ isFlat => isFlat

mutual

/-- Code that goes on behind an expression keeps the margin only if the expression is flat. -/
theorem keepsMargin_expression
    (fits : FitsLines vocabulary)
    (wide : 2 ≤ width)
    (place : Place) :
    ∀ {value : Expression}, value.Over vocabulary → value.Everywhere Expression.IsOneLine →
      ∀ {rest : List Char}, (value.isClosure = true → Continues rest) →
        (KeepsMargin width (Chunk.spelled (expressionRow place value) ++ rest) ↔
          value.isFlat = true ∧ KeepsMargin width rest)
  | .bool value _, _, _, _, _ => by
      have isTrue : IsLine "true" := by decide
      have isFalse : IsLine "false" := by decide
      cases value
      · exact keepsMargin_leaf isFalse _
      · exact keepsMargin_leaf isTrue _
  | .number _ value _, _, _, _, _ => keepsMargin_leaf (isLine_number value) _
  | .string _ _, _, oneLine, _, _ => keepsMargin_leaf (isLine_string oneLine) _
  | .array [] _, _, _, _, _ => by
      have isLine : IsLine "newSeq[string]()" := by decide
      exact keepsMargin_leaf isLine _
  | .array (first :: rest) _, isOver, ⟨_, oneLine⟩, _, _ => by
      simp only [expressionRow, Chunk.spelled_append, Chunk.spelled_code, Chunk.spelled_nil,
        List.append_assoc, List.nil_append]
      rw [keepsMargin_append (by decide),
        keepsMargin_items fits wide place isOver oneLine (by decide)
          (GoesOn.continues (by decide) _), keepsMargin_append (by decide)]
      rfl
  | .identifier _, known, _, _, _ => keepsMargin_leaf (isLine_name fits place known) _
  | .rawCode _ _, _, oneLine, _, _ => keepsMargin_leaf oneLine _
  | .invocation callee arguments _, ⟨calleeOver, argumentsOver⟩,
      ⟨_, calleeOneLine, oneLine⟩, _, _ => by
      simp only [expressionRow, Chunk.spelled_append, Chunk.spelled_code, Chunk.spelled_nil,
        List.append_assoc, List.nil_append, Expression.isFlat]
      rw [keepsMargin_expression fits wide place calleeOver calleeOneLine
          fun _ => GoesOn.continues (by decide) _, keepsMargin_append (by decide)]
      split
      · rw [Chunk.spelled_nil, List.nil_append, keepsMargin_append (by decide)]
        simp [*]
      · rw [keepsMargin_items fits wide place argumentsOver oneLine (by decide)
          (GoesOn.continues (by decide) _), keepsMargin_append (by decide)]
        simp [*, and_assoc]
  | .member target identifier _, ⟨targetOver, known⟩, ⟨_, oneLine⟩, rest, _ => by
      have isLine : IsLine ("." ++ identifier.name) :=
        IsLine.append (by decide) (isLine_word (fits.name known))
      have goesOn : GoesOn ("." ++ identifier.name) := GoesOn.append (by decide) _
      simp only [expressionRow, Chunk.spelled_append, Chunk.spelled_code, Chunk.spelled_nil,
        List.append_assoc, List.nil_append]
      rw [keepsMargin_expression fits wide place targetOver oneLine fun _ => goesOn.continues _,
        keepsMargin_append isLine]
      rfl
  | .index target position _, ⟨targetOver, positionOver⟩,
      ⟨_, targetOneLine, positionOneLine⟩, _, _ => by
      simp only [expressionRow, Chunk.spelled_append, Chunk.spelled_code, Chunk.spelled_nil,
        List.append_assoc, List.nil_append, Expression.isFlat]
      rw [keepsMargin_expression fits wide place targetOver targetOneLine
          fun _ => GoesOn.continues (by decide) _, keepsMargin_append (by decide),
        keepsMargin_expression fits wide place positionOver positionOneLine
          fun _ => GoesOn.continues (by decide) _, keepsMargin_append (by decide),
        Bool.and_eq_true, and_assoc]
  | .binary operator left right, ⟨known, leftOver, rightOver⟩,
      ⟨_, leftOneLine, rightOneLine⟩, _, _ => by
      have listed := fits.operator known
      simp only [expressionRow, Chunk.spelled_append, Chunk.spelled_code, Chunk.spelled_nil,
        List.append_assoc, List.nil_append, Expression.isFlat]
      rw [keepsMargin_append (by decide),
        keepsMargin_expression fits wide place leftOver leftOneLine
          fun _ => (goesOn_operator listed).continues _,
        keepsMargin_append (isLine_operator listed),
        keepsMargin_expression fits wide place rightOver rightOneLine
          fun _ => GoesOn.continues (by decide) _, keepsMargin_append (by decide),
        Bool.and_eq_true, and_assoc]
  | .closure parameters body _, ⟨known, bodyOver⟩, _, rest, goesOn => by
      -- The lines of the body end with a break, so what goes on behind them starts a line.
      refine iff_of_false (fun keeps => ?_) (fun flat => by cases flat.1)
      simp only [expressionRow, Chunk.spelled_code, Chunk.spelled_header, List.append_assoc,
        List.cons_append] at keeps
      rw [keepsMargin_append (isLine_closureHeader fits known)] at keeps
      exact (goesOn rfl).not_startsLine wide ((endsLine_block place.nested body).startsLine keeps)
  | .construction callee arguments _, ⟨named, argumentsOver⟩, ⟨_, oneLine⟩, _, _ => by
      simp only [expressionRow, Chunk.spelled_append, Chunk.spelled_code, Chunk.spelled_nil,
        List.append_assoc, List.nil_append, Expression.isFlat]
      rw [keepsMargin_expression fits wide place named.over (everywhere_of_isClassName named)
          fun _ => GoesOn.continues (by decide) _, keepsMargin_append (by decide),
        keepsMargin_items fits wide place argumentsOver oneLine (by decide)
          (GoesOn.continues (by decide) _), keepsMargin_append (by decide)]
      exact and_iff_right (isFlat_of_isClassName named)

/-- Items keep the margin if none of them holds a closure. -/
theorem keepsMargin_items
    (fits : FitsLines vocabulary)
    (wide : 2 ≤ width)
    (place : Place) :
    ∀ {values : List Expression}, Expression.AllOver vocabulary values →
      Expression.AllEverywhere Expression.IsOneLine values →
      ∀ {separator : String}, IsLine separator → ∀ {rest : List Char}, Continues rest →
        (KeepsMargin width (Chunk.spelled (itemsRow place separator values) ++ rest) ↔
          Expression.allFlat values = true ∧ KeepsMargin width rest)
  | [], _, _, _, _, _, _ => (and_iff_right rfl).symm
  | first :: others, ⟨firstOver, othersOver⟩, ⟨firstOneLine, oneLine⟩, _, isLine, rest, goesOn => by
      have further : Continues (Chunk.spelled (itemsRow place ", " others) ++ rest) := by
        cases others with
        | nil => exact goesOn
        | cons second more =>
            rw [itemsRow, Chunk.spelled_code, List.append_assoc]
            exact GoesOn.continues (by decide) _
      simp only [itemsRow, Chunk.spelled_append, Chunk.spelled_code, List.append_assoc,
        Expression.allFlat]
      rw [keepsMargin_append isLine,
        keepsMargin_expression fits wide place firstOver firstOneLine fun _ => further,
        keepsMargin_items fits wide place othersOver oneLine (by decide) goesOn,
        Bool.and_eq_true, and_assoc]

end

/-- A margin that fits a place fits the places inside it. -/
theorem le_nested {place : Place} (deep : width ≤ 2 * place.depth) :
    width ≤ 2 * place.nested.depth :=
  Nat.le_trans deep (Nat.mul_le_mul_left 2 (Nat.le_succ _))

/-- An expression other than a closure keeps the margin at the end of a line if it is flat. -/
theorem keepsMargin_flat
    (fits : FitsLines vocabulary)
    (wide : 2 ≤ width)
    (place : Place)
    {value : Expression}
    (isOpen : value.isClosure = false)
    (isOver : value.Over vocabulary)
    (oneLine : value.Everywhere Expression.IsOneLine) :
    KeepsMargin width (Chunk.spelled (expressionRow place value) ++ ['\n']) ↔
      value.closesLast = true := by
  have same : value.closesLast = value.isFlat := by
    cases value with
    | closure => cases isOpen
    | _ => rfl
  rw [same, keepsMargin_expression fits wide place isOver oneLine
    fun isClosure => by rw [isOpen] at isClosure; cases isClosure]
  exact and_iff_left keepsMargin_lineBreak

/-- The test of a loop in front of code that goes on. -/
theorem keepsMargin_test
    (fits : FitsLines vocabulary)
    (wide : 2 ≤ width)
    (place : Place)
    {test : Expression}
    (isOver : test = .missing ∨ test.Over vocabulary)
    (oneLine : test.Everywhere Expression.IsOneLine)
    {rest : List Char}
    (goesOn : Continues rest) :
    KeepsMargin width (Chunk.spelled
        (if test.isPresent then expressionRow place test else [.code "true"]) ++ rest) ↔
      test.isFlat = true ∧ KeepsMargin width rest := by
  rcases isOver with rfl | isOver
  · exact keepsMargin_leaf (by decide) rest
  · rw [if_pos (Expression.isPresent_of_over isOver)]
    exact keepsMargin_expression fits wide place isOver oneLine fun _ => goesOn

mutual

/-- An expression at the end of a line keeps the margin if it closes last. -/
theorem keepsMargin_value
    (fits : FitsLines vocabulary)
    (wide : 2 ≤ width)
    {place : Place}
    (deep : width ≤ 2 * place.depth) :
    ∀ {value : Expression}, value.Over vocabulary → value.Everywhere Expression.IsOneLine →
      (KeepsMargin width (Chunk.spelled (expressionRow place value) ++ ['\n']) ↔
        value.closesLast = true)
  | .closure parameters body _, ⟨known, bodyOver⟩, ⟨_, oneLine⟩ => by
      have nested := le_nested deep
      simp only [expressionRow, Chunk.spelled_code, Chunk.spelled_header, List.append_assoc,
        List.cons_append]
      rw [keepsMargin_append (isLine_closureHeader fits known),
        (endsLine_block place.nested body).keepsMargin_append,
        keepsMargin_block fits wide nested bodyOver oneLine]
      exact and_iff_left (keepsMargin_break.mpr ⟨.inl rfl, keepsMargin_lineBreak⟩)
  | .bool _ _, isOver, oneLine => keepsMargin_flat fits wide place rfl isOver oneLine
  | .number _ _ _, isOver, oneLine => keepsMargin_flat fits wide place rfl isOver oneLine
  | .string _ _, isOver, oneLine => keepsMargin_flat fits wide place rfl isOver oneLine
  | .array _ _, isOver, oneLine => keepsMargin_flat fits wide place rfl isOver oneLine
  | .identifier _, isOver, oneLine => keepsMargin_flat fits wide place rfl isOver oneLine
  | .invocation _ _ _, isOver, oneLine => keepsMargin_flat fits wide place rfl isOver oneLine
  | .member _ _ _, isOver, oneLine => keepsMargin_flat fits wide place rfl isOver oneLine
  | .index _ _ _, isOver, oneLine => keepsMargin_flat fits wide place rfl isOver oneLine
  | .binary _ _ _, isOver, oneLine => keepsMargin_flat fits wide place rfl isOver oneLine
  | .construction _ _ _, isOver, oneLine => keepsMargin_flat fits wide place rfl isOver oneLine
  | .rawCode _ _, isOver, oneLine => keepsMargin_flat fits wide place rfl isOver oneLine

/-- A block keeps the margin if its closures stand at the ends of statements. -/
theorem keepsMargin_block
    (fits : FitsLines vocabulary)
    (wide : 2 ≤ width)
    {place : Place}
    (deep : width ≤ 2 * place.depth) :
    ∀ {block : Block}, block.Over vocabulary → block.Everywhere Expression.IsOneLine →
      (KeepsMargin width ('\n' :: Chunk.spelled (blockRow place block)) ↔
        block.closesLast = true)
  | .of _ _, isOver, oneLine => keepsMargin_statements fits wide deep isOver oneLine

theorem keepsMargin_statements
    (fits : FitsLines vocabulary)
    (wide : 2 ≤ width)
    {place : Place}
    (deep : width ≤ 2 * place.depth) :
    ∀ {nodes : List Statement}, Statement.AllOver vocabulary nodes →
      Statement.AllEverywhere Expression.IsOneLine nodes →
      (KeepsMargin width ('\n' :: Chunk.spelled (statementsRow place nodes)) ↔
        Statement.allCloseLast nodes = true)
  | [], _, _ => iff_of_true ⟨fun _ => trivial, trivial⟩ rfl
  | first :: rest, ⟨firstOver, restOver⟩, ⟨firstOneLine, oneLine⟩ => by
      rw [statementsRow, Chunk.spelled_append, (endsLine_statement place first).keepsMargin_append,
        keepsMargin_statement fits wide deep firstOver firstOneLine,
        keepsMargin_statements fits wide deep restOver oneLine, Statement.allCloseLast,
        Bool.and_eq_true]

/-- A statement keeps its margin exactly if it closes last. -/
theorem keepsMargin_statement
    (fits : FitsLines vocabulary)
    (wide : 2 ≤ width)
    {place : Place}
    (deep : width ≤ 2 * place.depth) :
    ∀ {node : Statement}, node.Over vocabulary → node.Everywhere Expression.IsOneLine →
      (KeepsMargin width ('\n' :: Chunk.spelled (statementRow place node)) ↔
        node.closesLast = true)
  | .returned value _, isOver, oneLine => by
      simp only [statementRow, Chunk.spelled_code, Chunk.spelled_append, Chunk.spelled_lineBreak,
        Chunk.spelled_nil]
      rw [keepsMargin_line deep, keepsMargin_append (by decide),
        keepsMargin_value fits wide deep isOver oneLine]
      rfl
  | .declared identifier value _, ⟨known, isOver⟩, oneLine => by
      simp only [statementRow, Chunk.spelled_code, Chunk.spelled_append, Chunk.spelled_lineBreak,
        Chunk.spelled_nil]
      rw [keepsMargin_line deep, keepsMargin_append (isLine_variableHead fits place known),
        keepsMargin_value fits wide deep isOver oneLine]
      rfl
  | .assigned target value, ⟨targetOver, isOver⟩, ⟨targetOneLine, oneLine⟩ => by
      simp only [statementRow, Chunk.spelled_code, Chunk.spelled_append, Chunk.spelled_lineBreak,
        Chunk.spelled_nil]
      rw [keepsMargin_line deep,
        keepsMargin_expression fits wide place targetOver targetOneLine
          fun _ => GoesOn.continues (by decide) _,
        keepsMargin_append (by decide), keepsMargin_value fits wide deep isOver oneLine,
        Statement.closesLast, Bool.and_eq_true]
  | .evaluated value, isOver, oneLine => by
      simp only [statementRow, Chunk.spelled_code, Chunk.spelled_append, Chunk.spelled_lineBreak,
        Chunk.spelled_nil]
      rw [keepsMargin_line deep, keepsMargin_value fits wide deep isOver oneLine]
      rfl
  | .conditional test consequent alternative _, ⟨testOver, consequentOver, alternativeOver⟩,
      ⟨testOneLine, consequentOneLine, alternativeOneLine⟩ => by
      have nested := le_nested deep
      have otherwise : KeepsMargin width ('\n' :: Chunk.spelled (if alternative.isEmpty then [] else
          .code place.indentation :: .code "else:" :: .header place.depth ::
            blockRow place.nested alternative)) ↔ alternative.closesLast = true := by
        rcases alternativeOver with rfl | alternativeOver
        · exact iff_of_true keepsMargin_lineBreak rfl
        by_cases isEmpty : alternative.isEmpty
        · rw [if_pos isEmpty]
          exact iff_of_true keepsMargin_lineBreak (Block.closesLast_of_isEmpty isEmpty)
        · rw [if_neg isEmpty, Chunk.spelled_code, Chunk.spelled_code, Chunk.spelled_header,
            keepsMargin_line deep, keepsMargin_append (by decide),
            keepsMargin_block fits wide nested alternativeOver alternativeOneLine]
      simp only [statementRow, Chunk.spelled_code, Chunk.spelled_append, Chunk.spelled_header]
      rw [keepsMargin_line deep, keepsMargin_append (by decide),
        keepsMargin_expression fits wide place testOver testOneLine
          fun _ => GoesOn.continues (by decide) _,
        keepsMargin_append (by decide),
        (endsLine_block place.nested consequent).keepsMargin_append,
        keepsMargin_block fits wide nested consequentOver consequentOneLine, otherwise,
        Statement.closesLast, Bool.and_eq_true, Bool.and_eq_true, and_assoc]
  | .whileLoop test body _, ⟨testOver, bodyOver⟩, ⟨testOneLine, bodyOneLine⟩ => by
      have nested := le_nested deep
      simp only [statementRow, Chunk.spelled_code, Chunk.spelled_append, Chunk.spelled_header]
      rw [keepsMargin_line deep, keepsMargin_append (by decide),
        keepsMargin_expression fits wide place testOver testOneLine
          fun _ => GoesOn.continues (by decide) _,
        keepsMargin_append (by decide), keepsMargin_block fits wide nested bodyOver bodyOneLine,
        Statement.closesLast, Bool.and_eq_true]
  | .forLoop initial test increment body _, ⟨initialOver, testOver, incrementOver, bodyOver⟩,
      ⟨initialOneLine, testOneLine, incrementOneLine, bodyOneLine⟩ => by
      have nested := le_nested deep
      have first : KeepsMargin width ('\n' :: Chunk.spelled (statementRow place initial)) ↔
          initial.closesLast = true := by
        rcases initialOver with rfl | ⟨-, isOver⟩
        · exact iff_of_true keepsMargin_lineBreak rfl
        · exact keepsMargin_statement fits wide deep isOver initialOneLine
      have last : KeepsMargin width ('\n' :: Chunk.spelled (statementRow place.nested increment)) ↔
          increment.closesLast = true := by
        rcases incrementOver with rfl | ⟨-, isOver⟩
        · exact iff_of_true keepsMargin_lineBreak rfl
        · exact keepsMargin_statement fits wide nested isOver incrementOneLine
      simp only [statementRow, Chunk.spelled_code, Chunk.spelled_append, Chunk.spelled_header]
      rw [(endsLine_statement place initial).keepsMargin_append, first, keepsMargin_line deep,
        keepsMargin_append (by decide),
        keepsMargin_test fits wide place testOver testOneLine (GoesOn.continues (by decide) _),
        keepsMargin_append (by decide), (endsLine_block place.nested body).keepsMargin_append,
        keepsMargin_block fits wide nested bodyOver bodyOneLine, last, Statement.closesLast]
      simp only [Bool.and_eq_true, and_assoc]

end

/--
At any depth but zero, every line of a statement is indented by that depth exactly
if the closures of the statement stand at its end.
-/
theorem emitStatement_indented_iff
    (fits : FitsLines vocabulary)
    (place : Place)
    {node : Statement}
    (isOver : node.Over vocabulary)
    (oneLine : node.Everywhere Expression.IsOneLine) :
    ∃ text, emitStatement place node = .ok text ∧
      (Indented (2 * place.depth) text ↔ place.depth = 0 ∨ node.closesLast = true) := by
  refine ⟨_, emitStatement_eq_written place isOver, ?_⟩
  rw [indented_iff, Chunk.written, String.toList_ofList]
  cases depth : place.depth with
  | zero =>
      exact iff_of_true (keepsMargin_zero _) (.inl rfl)
  | succ outer =>
      rw [← depth, keepsMargin_statement fits (by omega) (Nat.le_refl _) isOver oneLine]
      simp [depth]

end Trees

end Nim

end FrenchNim
