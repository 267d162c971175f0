import FrenchNim.Proofs.Grammar.RereadingPrograms

namespace FrenchNim.Grammar

/-!
# What the grammar refuses

The tokens of a tree are read unless its expressions are nested too deeply, a
class is named by the self-reference, or a statement at the top level begins with
a closure. Each of these is a reason to fail: where the tokens of a tree are read,
with anything behind them, the tree fits. The proof follows the text from left to
right, like the one that says how it is read, and uses that one to get from one
part of a text to the next.
-/

/-- A reading that succeeds shows that the tree fits. -/
def Shows (fits : Prop) (actual : Except GrammarError α) : Prop :=
  ∀ found, actual = .ok found → fits

namespace Shows

variable {fits first second : Prop} {actual between : Except GrammarError α}

/-- Nothing has to be shown of a tree that fits. -/
theorem of_fits (fit : fits) : Shows fits actual :=
  fun _ _ => fit

/-- A failure shows nothing. -/
theorem of_error {error : GrammarError} (failed : actual = .error error) : Shows fits actual := by
  intro found succeeds
  cases failed.symm.trans succeeds

/-- What shows it may be replaced by the same. -/
theorem congr
    (same : actual = between)
    (shows' : Shows fits between) :
    Shows fits actual :=
  same ▸ shows'

/-- A weaker condition is shown as well. -/
theorem imp
    (shows' : Shows first actual)
    (weaker : first → second) :
    Shows second actual :=
  fun found succeeds => weaker (shows' found succeeds)

/-- The first part of a text shows that it fits, and then the second part does. -/
theorem trans
    (firstShows : Shows first actual)
    (reads : Reads first actual between)
    (secondShows : Shows second between) :
    Shows (first ∧ second) actual := by
  intro found succeeds
  have fit := firstShows found succeeds
  exact ⟨fit, secondShows found ((reads.eq fit).symm.trans succeeds)⟩

/-- What succeeds as a whole succeeds in its first part. -/
theorem andThen
    {actual : Parsed α}
    (shows' : Shows fits actual)
    (next : α → List Token → Parsed β) :
    Shows fits (actual.andThen next) := by
  rcases actual with error | ⟨value, rest⟩
  · exact .of_error rfl
  · exact fun _ _ => shows' _ rfl

/-- Behind a first part that is read as expected, the second part is read. -/
theorem andThen_ok
    {actual : Parsed α}
    {value : α}
    {rest : List Token}
    {next : α → List Token → Parsed β}
    (firstShows : Shows first actual)
    (reads : Reads first actual (.ok (value, rest)))
    (secondShows : Shows second (next value rest)) :
    Shows (first ∧ second) (actual.andThen next) := by
  have between : Reads first (actual.andThen next) (next value rest) := reads.andThen next
  exact trans (firstShows.andThen next) between secondShows

end Shows

section Trees

variable (final : Token)

/-- The tokens of an expression are read only if it fits, whatever waits and follows. -/
def ExpressionShows (value : Expression) : Prop :=
  ∀ (room : Nat) (pending : Pending) (rest : List Token),
    Shows (ExpressionFits room value) (begin final room pending (value.tokens ++ rest))

/-- The tokens of items are read only if they fit. -/
def ItemsShow (values : List Expression) : Prop :=
  ∀ (room : Nat) (known : List Expression) (closing : Token) (rest : List Token),
    closing.kind ∈ [TokenKind.parenClose, .bracketClose] → values ≠ [] →
      Shows (ItemsFit room values)
        ((Rule.moreItems known).read final room
          ([Token.comma].intercalate (Expression.allTokens values) ++ closing :: rest))

/-- The tokens of a block are read only if it fits. -/
def BlockShows (block : Block) : Prop :=
  ∀ (room : Nat) (rest : List Token),
    Shows (BlockFits room block) (Rule.block.read final room (block.tokens ++ rest))

/-- The tokens of a statement are read only if it fits. -/
def StatementShows (node : Statement) : Prop :=
  ∀ (room : Nat) (rest : List Token), Before endingKinds rest →
    Shows (StatementFits room node) (Rule.statement.read final room (node.tokens ++ rest))

/-- The tokens of statements are read only if they fit. -/
def StatementsShow (nodes : List Statement) : Prop :=
  ∀ (room : Nat) (known : List Statement) (rest : List Token),
    Shows (StatementsFit room nodes)
      ((Rule.statements known).read final room
        (skipNewlines (Statement.allTokens nodes ++ .newline :: .closing :: rest)))

variable {final}

/-- An expression that takes a level of its own. -/
theorem ExpressionShows.value
    {value : Expression}
    (shows' : ExpressionShows final value)
    (room : Nat)
    (rest : List Token) :
    Shows (ValueFits room value) (Rule.expression.read final room (value.tokens ++ rest)) := by
  cases room with
  | zero =>
      exact .of_error (Rule.read_expression_zero final _)
  | succ room =>
      rw [read_expression_begin]
      exact (shows' room .empty rest).imp fun fits => ⟨Nat.succ_le_succ fits.1, fits.2⟩

/-- Items up to and including the token that closes them. -/
theorem ItemsShow.items
    {vocabulary : Vocabulary}
    {values : List Expression}
    (shows' : ItemsShow final values)
    (allOver : Expression.AllOver vocabulary values)
    (closing : Expectation)
    (isClosing : closing.kind ∈ [TokenKind.parenClose, .bracketClose])
    (literal : String)
    (rest : List Token)
    (room : Nat) :
    Shows (ItemsFit room values)
      ((Rule.items closing).read final room
        ([Token.comma].intercalate (Expression.allTokens values) ++
          .bare closing.kind literal :: rest)) := by
  cases values with
  | nil =>
      exact .of_fits ⟨Nat.zero_le _, trivial⟩
  | cons first others =>
      rw [Rule.read_items, if_neg (current_items_ne allOver isClosing final _)]
      exact (shows' room [] _ rest isClosing (List.cons_ne_nil _ _)).andThen _

section Expressions

variable {vocabulary : Vocabulary} {target position left right : Expression}
variable {values : List Expression} {body : Block}

/-- Where a list is read, its items fit. -/
theorem shows_array
    (allOver : Expression.AllOver vocabulary values)
    (shows' : ItemsShow final values)
    (span : Span) :
    ExpressionShows final (.array values span) := by
  intro room pending rest
  have items := shows'.items allOver .bracketClose (by decide) "]" rest room
  rw [Expression.tokens, List.append_assoc, List.cons_append, List.singleton_append, begin,
    Rule.read_primary_cons final room rfl, if_neg nofun, if_neg nofun, if_neg nofun,
    if_pos (Token.bare_kind _ _)]
  exact ((items.andThen _).andThen _).imp fun fits => ⟨fits.1, rfl, fits.2⟩

/-- Where a property is read, its target fits. -/
theorem shows_member
    (shows' : ExpressionShows final target)
    (name : Identifier)
    (arrow : Bool) :
    ExpressionShows final (.member target name arrow) := by
  intro room pending rest
  rw [Expression.tokens, List.append_assoc]
  exact (shows' room pending _).imp fun fits => ⟨fits.1, rfl, fits.2⟩

/-- Where a call is read, its callee and its arguments fit. -/
theorem shows_invocation
    (targetRereads : ExpressionRereads final target)
    (targetShows : ExpressionShows final target)
    (allOver : Expression.AllOver vocabulary values)
    (shows' : ItemsShow final values)
    (last : Position) :
    ExpressionShows final (.invocation target values last) := by
  intro room pending rest
  have items := shows'.items allOver .parenClose (by decide) ")" rest room
  rw [Expression.tokens, List.append_assoc, List.append_assoc, List.singleton_append]
  refine ((targetShows room pending _).trans (targetRereads room pending _) ?_).imp
    fun (⟨targetFits, itemsFit⟩ : _ ∧ ItemsFit room values) =>
      ⟨Nat.max_le.mpr ⟨targetFits.1, itemsFit.1⟩, rfl, targetFits.2, itemsFit.2⟩
  unfold resume
  rw [List.cons_append, Rule.read_moreLinks_cons, if_neg nofun, if_pos (Token.bare_kind _ _),
    Parsed.andThen_assoc]
  exact items.andThen _

/-- Where an index is read, its target and its position fit. -/
theorem shows_index
    (targetRereads : ExpressionRereads final target)
    (targetShows : ExpressionShows final target)
    (shows' : ExpressionShows final position)
    (last : Position) :
    ExpressionShows final (.index target position last) := by
  intro room pending rest
  rw [Expression.tokens, List.append_assoc, List.append_assoc, List.singleton_append]
  refine ((targetShows room pending _).trans (targetRereads room pending _) ?_).imp
    fun (⟨targetFits, positionFits⟩ : _ ∧ ValueFits room position) =>
      ⟨Nat.max_le.mpr ⟨targetFits.1, positionFits.1⟩, rfl, targetFits.2, positionFits.2⟩
  unfold resume
  rw [List.cons_append, Rule.read_moreLinks_cons, if_neg nofun, if_neg nofun,
    if_pos (Token.bare_kind _ _), Parsed.andThen_assoc]
  exact (shows'.value room _).andThen _

/-- An operand, between parentheses if it is binary. -/
theorem ExpressionShows.operand
    {value : Expression}
    (shows' : ExpressionShows final value)
    (room : Nat)
    (pending : Pending)
    (rest : List Token) :
    Shows (value.nesting + (if value.isBinary then 1 else 0) ≤ room ∧
        value.Everywhere (·.constructsSelf = false))
      (begin final room pending (value.operandTokens value.tokens ++ rest)) := by
  unfold Expression.operandTokens
  cases value.isBinary with
  | false =>
      exact shows' room pending rest
  | true =>
      rw [if_pos rfl, if_pos rfl, List.append_assoc, List.cons_append, List.singleton_append, begin,
        Rule.read_primary_cons final room rfl, if_neg nofun, if_neg nofun, if_neg nofun,
        if_neg nofun, if_pos (Token.bare_kind _ _)]
      exact ((shows'.value room _).andThen _).andThen _

/-- Where a binary expression is read, both operands fit. -/
theorem shows_binary
    {operator : String}
    (listed : operator ∈ binaryOperators)
    (leftRereads : ExpressionRereads final left)
    (leftShows : ExpressionShows final left)
    (rightShows : ExpressionShows final right) :
    ExpressionShows final (.binary operator left right) := by
  intro room pending rest
  have first := leftRereads.operand room pending
    (.bare (operatorKind operator) operator :: (right.operandTokens right.tokens ++ rest))
  rw [resume_operator final room listed] at first
  rw [Expression.tokens, List.append_assoc, List.cons_append]
  exact ((leftShows.operand room pending _).trans first (rightShows.operand room _ rest)).imp
    fun ⟨leftFits, rightFits⟩ =>
      ⟨Nat.max_le.mpr ⟨leftFits.1, rightFits.1⟩, rfl, leftFits.2, rightFits.2⟩

/-- Where a procedure is read, its block fits. -/
theorem shows_procedure
    (shows' : BlockShows final body)
    (names : List Identifier)
    (room : Nat)
    (rest : List Token) :
    Shows (BlockFits room body)
      (Rule.procedure.read final room (parameterTokens names ++ (body.tokens ++ rest))) := by
  rw [Rule.read_procedure, read_parameters_tokens, Parsed.andThen_ok]
  exact (shows' room rest).andThen _

/-- Where a closure is read, its block fits. -/
theorem shows_closure
    (shows' : BlockShows final body)
    (names : List Identifier)
    (start : Position) :
    ExpressionShows final (.closure names body start) := by
  intro room pending rest
  rw [Expression.tokens, List.append_assoc, List.cons_append, begin,
    Rule.read_primary_cons final room rfl, if_neg nofun, if_pos (Token.bare_kind _ _)]
  exact (((shows_procedure shows' names room rest).andThen _).andThen _).imp
    fun fits => ⟨fits.1, rfl, fits.2⟩

/-- A construction is refused if its class is named by the self-reference. -/
theorem shows_construction
    {callee : Expression}
    (isClass : callee.IsClassName vocabulary)
    (allOver : Expression.AllOver vocabulary values)
    (shows' : ItemsShow final values)
    (span : Span) :
    ExpressionShows final (.construction callee values span) := by
  intro room pending rest
  have items := shows'.items allOver .parenClose (by decide) ")" rest room
  rw [Expression.tokens, List.append_assoc, List.append_assoc, List.cons_append, begin,
    Rule.read_primary_cons final room rfl, if_pos (Token.bare_kind _ _)]
  refine Shows.andThen ?_ _
  by_cases isSelf : callee.root? = some selfName
  · obtain ⟨more, starts⟩ := tokens_of_root_self isSelf
    rw [starts, List.cons_append, Rule.read_name, Rule.read_expect_cons, if_neg nofun]
    exact .of_error rfl
  · have named := read_className_tokens final room isClass isSelf
    refine .congr (Parsed.andThen_assoc _ _ _).symm ?_
    rw [named, List.cons_append, Rule.read_className_cons, if_neg nofun, Parsed.andThen_ok,
      read_expected final room rfl, Parsed.andThen_ok, List.singleton_append]
    exact (items.andThen _).imp fun fits => ⟨fits.1, decide_eq_false isSelf, fits.2⟩

end Expressions

/-- No items always fit. -/
theorem itemsShow_nil : ItemsShow final [] :=
  fun _ _ _ _ _ nonempty => (nonempty rfl).elim

/-- Where items are read, the first one fits and then the others do. -/
theorem itemsShow_cons
    {first : Expression}
    {others : List Expression}
    (firstRereads : ExpressionRereads final first)
    (firstShows : ExpressionShows final first)
    (othersShow : ItemsShow final others) :
    ItemsShow final (first :: others) := by
  intro room known closing rest isClosing _
  cases others with
  | nil =>
      rw [Rule.read_moreItems, Expression.allTokens, Expression.allTokens,
        List.intercalate_singleton]
      exact ((firstShows.value room _).andThen _).imp fun fits =>
        ⟨Nat.max_le.mpr ⟨fits.1, Nat.zero_le _⟩, fits.2, trivial⟩
  | cons second others =>
      have comma := before_cons (show Token.comma.kind ∈ haltingKinds by decide)
        ([Token.comma].intercalate (Expression.allTokens (second :: others)) ++ closing :: rest)
      have more : Expression.allTokens (second :: others) ≠ [] := List.cons_ne_nil _ _
      rw [Rule.read_moreItems, Expression.allTokens, intercalate_comma_cons _ more]
      refine ((firstShows.value room _).andThen_ok (firstRereads.value comma room) ?_).imp
        fun (fits : _ ∧ ItemsFit room (second :: others)) =>
          ⟨Nat.max_le.mpr ⟨fits.1.1, fits.2.1⟩, fits.1.2, fits.2.2⟩
      simp only [Token.bare_kind, if_true]
      exact othersShow room (first.regroup :: known) closing rest isClosing (List.cons_ne_nil _ _)

/-! ## Statements -/

section Statements

variable {vocabulary : Vocabulary} {value target test : Expression} {body : Block}

/-- Where a return is read, its value fits. -/
theorem shows_returned
    (shows' : ExpressionShows final value)
    (first : Position) :
    StatementShows final (.returned value first) := by
  intro room rest _
  rw [Statement.tokens, List.cons_append, Rule.read_statement_cons, if_pos (Token.bare_kind _ _)]
  exact (shows'.value room rest).andThen _

/-- Where a declared variable is read, its value fits. -/
theorem shows_declared
    (shows' : ExpressionShows final value)
    (name : Identifier)
    (first : Position) :
    StatementShows final (.declared name value first) := by
  intro room rest _
  rw [Statement.tokens, List.cons_append, List.cons_append, List.cons_append,
    Rule.read_statement_cons, if_neg nofun, if_pos (Token.bare_kind _ _), Rule.read_variableRest,
    read_expectedName final room rfl, Parsed.andThen_ok, read_expected final room rfl,
    Parsed.andThen_ok]
  exact (shows'.value room rest).andThen _

/-- Where an expression is read as a statement, it fits. -/
theorem shows_evaluated
    (isOver : value.Over vocabulary)
    (shows' : ExpressionShows final value) :
    StatementShows final (.evaluated value) := by
  intro room rest _
  rw [Statement.tokens, read_statement_simple isOver, Rule.read_simple]
  exact (shows'.value room rest).andThen _

/-- Where an assignment is read, its target and its value fit. -/
theorem shows_assigned
    (isOver : target.Over vocabulary)
    (targetRereads : ExpressionRereads final target)
    (targetShows : ExpressionShows final target)
    (shows' : ExpressionShows final value) :
    StatementShows final (.assigned target value) := by
  intro room rest _
  have equal := before_cons (show Token.equal.kind ∈ haltingKinds by decide) (value.tokens ++ rest)
  rw [Statement.tokens, List.append_assoc, read_statement_simple isOver, Rule.read_simple]
  refine ((targetShows.value room _).andThen_ok (targetRereads.value equal room) ?_).imp
    fun (⟨targetFits, valueFits⟩ : _ ∧ ValueFits room value) =>
      ⟨Nat.max_le.mpr ⟨targetFits.1, valueFits.1⟩, targetFits.2, valueFits.2⟩
  simp only [Token.bare_kind, if_true]
  exact (shows'.value room rest).andThen _

/-- No statements always fit. -/
theorem statementsShow_nil : StatementsShow final [] :=
  fun _ _ _ => .of_fits ⟨Nat.zero_le _, trivial⟩

/-- Where statements are read, the first one fits and then the others do. -/
theorem statementsShow_cons
    {first : Statement}
    {others : List Statement}
    (isOver : first.Over vocabulary)
    (firstRereads : StatementRereads final first)
    (firstShows : StatementShows final first)
    (othersShow : StatementsShow final others) :
    StatementsShow final (first :: others) := by
  intro room known rest
  obtain ⟨start, more, starts, noNewline, goesOn⟩ := statement_tokens_go_on isOver
  have before := before_allTokens others rest
  have statement := firstShows room _ before
  have reads := firstRereads room _ before
  rw [Statement.allTokens, List.cons_append, List.cons_append, List.append_assoc,
    skipNewlines_newline]
  rw [starts, List.cons_append] at statement reads ⊢
  rw [skipNewlines_other noNewline, Rule.read_statements_cons, goesOn, if_neg Bool.false_ne_true]
  exact (statement.andThen_ok reads (othersShow room (first.regroup :: known) rest)).imp
    fun ⟨firstFits, othersFit⟩ =>
      ⟨Nat.max_le.mpr ⟨firstFits.1, othersFit.1⟩, firstFits.2, othersFit.2⟩

/-- Where a block is read, its statements fit. -/
theorem shows_block
    {nodes : List Statement}
    (shows' : StatementsShow final nodes)
    (span : Span) :
    BlockShows final (.of nodes span) := by
  intro room rest
  rw [Block.tokens, List.cons_append, List.cons_append, List.append_assoc, Rule.read_block,
    read_expected final room rfl, Parsed.andThen_ok, Rule.read_blockRest]
  exact (shows' room [] rest).andThen _

/-- Where a condition is read, its expression fits. -/
theorem ExpressionShows.condition
    (shows' : ExpressionShows final test)
    (room : Nat)
    (rest : List Token) :
    Shows (ValueFits room test)
      (Rule.condition.read final room (.parenOpen :: (test.tokens ++ .parenClose :: rest))) := by
  rw [Rule.read_condition, read_expected final room rfl, Parsed.andThen_ok]
  exact (shows'.value room _).andThen _

/-- Where a `while` loop is read, its condition and its body fit. -/
theorem shows_whileLoop
    (testRereads : ExpressionRereads final test)
    (testShows : ExpressionShows final test)
    (isOver : body.Over vocabulary)
    (shows' : BlockShows final body)
    (first : Position) :
    StatementShows final (.whileLoop test body first) := by
  intro room rest _
  rw [Statement.tokens, List.append_assoc, List.cons_append, List.cons_append,
    Rule.read_statement_cons, if_neg nofun, if_neg nofun, if_neg nofun,
    if_pos (Token.bare_kind _ _), Rule.read_whileRest]
  have condition := testRereads.condition room (body.tokens ++ rest)
  refine ((testShows.condition room _).andThen_ok condition ?_).imp
    fun (⟨testFits, bodyFits⟩ : _ ∧ BlockFits room body) =>
      ⟨Nat.max_le.mpr ⟨testFits.1, bodyFits.1⟩, testFits.2, bodyFits.2⟩
  rw [read_loopBlock_tokens isOver]
  exact (shows' room rest).andThen _

/-- Where a conditional is read, its condition and its blocks fit. -/
theorem shows_conditional
    {consequent alternative : Block}
    (testRereads : ExpressionRereads final test)
    (testShows : ExpressionShows final test)
    (rereads : BlockRereads final consequent)
    (shows' : BlockShows final consequent)
    (otherShows : alternative = .missing ∨ BlockShows final alternative)
    (first : Position) :
    StatementShows final (.conditional test consequent alternative first) := by
  intro room rest _
  cases alternative with
  | missing =>
      rw [Statement.tokens, List.append_nil, List.append_assoc, List.cons_append, List.cons_append,
        Rule.read_statement_cons, if_neg (by rintro ⟨⟩), if_neg (by rintro ⟨⟩),
        if_neg (by rintro ⟨⟩), if_neg (by rintro ⟨⟩), if_pos (Token.bare_kind _ _),
        Rule.read_ifRest]
      exact ((testShows.condition room _).andThen_ok (testRereads.condition room _)
        ((shows' room rest).andThen _)).imp fun ⟨testFits, bodyFits⟩ =>
          ⟨Nat.max_le.mpr ⟨testFits.1, Nat.max_le.mpr ⟨bodyFits.1, Nat.zero_le _⟩⟩,
            testFits.2, bodyFits.2, trivial⟩
  | of nodes span =>
      have otherShows := otherShows.resolve_left (by rintro ⟨⟩)
      rw [Statement.tokens_alternative, List.append_assoc, List.append_assoc, List.cons_append,
        List.cons_append, List.cons_append, Rule.read_statement_cons, if_neg (by rintro ⟨⟩),
        if_neg (by rintro ⟨⟩), if_neg (by rintro ⟨⟩), if_neg (by rintro ⟨⟩),
        if_pos (Token.bare_kind _ _), Rule.read_ifRest]
      have condition := testRereads.condition room (consequent.tokens ++
        .bare .elseKeyword "sinon" :: ((Block.of nodes span).tokens ++ rest))
      have body := rereads room
        (.bare .elseKeyword "sinon" :: ((Block.of nodes span).tokens ++ rest))
      refine ((testShows.condition room _).andThen_ok condition
        ((shows' room _).andThen_ok body ?_)).imp
          fun (⟨testFits, bodyFits, otherFits⟩ : _ ∧ _ ∧ BlockFits room (.of nodes span)) =>
            ⟨Nat.max_le.mpr ⟨testFits.1, Nat.max_le.mpr ⟨bodyFits.1, otherFits.1⟩⟩,
              testFits.2, bodyFits.2, otherFits.2⟩
      simp only [Token.bare_kind, if_true]
      exact (otherShows room rest).andThen _

/-- A clause that may be left out. -/
theorem shows_clause
    {node : Statement}
    (allowed : node = .missing ∨
      node.isClause = true ∧ node.Over vocabulary ∧ StatementShows final node)
    (closing : Expectation)
    (isClosing : closing.kind ∈ endingKinds)
    (literal : String)
    (room : Nat)
    (rest : List Token) :
    Shows (StatementFits room node)
      ((Rule.clause closing.kind).read final room
        (node.tokens ++ .bare closing.kind literal :: rest)) := by
  rcases allowed with rfl | ⟨isClause, isOver, shows'⟩
  · exact .of_fits ⟨Nat.zero_le _, trivial⟩
  · rw [read_clause_tokens isClause isOver isClosing]
    exact shows' room _ (before_cons isClosing rest)

/-- The test of a loop takes a level of its own, if it is there. -/
abbrev TestFits (room : Nat) (test : Expression) : Prop :=
  (if test.isPresent then test.nesting + 1 else 0) ≤ room ∧
    test.Everywhere (·.constructsSelf = false)

/-- The test of a loop that may be left out. -/
theorem shows_optionalTest
    (allowed : test = .missing ∨ test.Over vocabulary ∧ ExpressionShows final test)
    (room : Nat)
    (rest : List Token) :
    Shows (TestFits room test)
      (Rule.optionalTest.read final room (test.tokens ++ .semicolon :: rest)) := by
  rcases allowed with rfl | ⟨isOver, shows'⟩
  · exact .of_fits ⟨Nat.zero_le _, trivial⟩
  · rw [Rule.read_optionalTest, if_neg (current_tokens_ne isOver (by decide) final _), TestFits,
      Expression.isPresent_of_over isOver]
    exact shows'.value room _

/-- Where a `for` loop is read, its clauses and its body fit. -/
theorem shows_forLoop
    {initial increment : Statement}
    (initialAllowed : initial = .missing ∨ initial.isClause = true ∧ initial.Over vocabulary ∧
      StatementRereads final initial ∧ StatementShows final initial)
    (testAllowed : test = .missing ∨ test.Over vocabulary ∧
      ExpressionRereads final test ∧ ExpressionShows final test)
    (incrementAllowed : increment = .missing ∨ increment.isClause = true ∧
      increment.Over vocabulary ∧ StatementRereads final increment ∧
      StatementShows final increment)
    (isOver : body.Over vocabulary)
    (shows' : BlockShows final body)
    (first : Position) :
    StatementShows final (.forLoop initial test increment body first) := by
  intro room rest _
  have third := rereads_clause (incrementAllowed.imp_right fun allowed =>
    ⟨allowed.1, allowed.2.1, allowed.2.2.1⟩) .parenClose (by decide) ")" room (body.tokens ++ rest)
  have second := rereads_optionalTest (testAllowed.imp_right fun allowed =>
    ⟨allowed.1, allowed.2.1⟩) room (increment.tokens ++ .parenClose :: (body.tokens ++ rest))
  have opening := rereads_clause (initialAllowed.imp_right fun allowed =>
    ⟨allowed.1, allowed.2.1, allowed.2.2.1⟩) .semicolon (by decide) ";" room
    (test.tokens ++ .semicolon :: (increment.tokens ++ .parenClose :: (body.tokens ++ rest)))
  suffices parts : Shows (StatementFits room initial ∧ TestFits room test ∧
      StatementFits room increment ∧ BlockFits room body)
      (Rule.statement.read final room
        ((Statement.forLoop initial test increment body first).tokens ++ rest)) from
    parts.imp fun ⟨initialFits, testFits, incrementFits, bodyFits⟩ =>
      ⟨Nat.max_le.mpr ⟨Nat.max_le.mpr ⟨initialFits.1, testFits.1⟩,
        Nat.max_le.mpr ⟨incrementFits.1, bodyFits.1⟩⟩,
        initialFits.2, testFits.2, incrementFits.2, bodyFits.2⟩
  simp only [Statement.tokens, List.append_assoc, List.cons_append]
  rw [Rule.read_statement_cons, if_neg nofun, if_neg nofun, if_pos (Token.bare_kind _ _),
    Rule.read_forRest, read_expected final room rfl, Parsed.andThen_ok]
  refine (shows_clause (initialAllowed.imp_right fun allowed =>
    ⟨allowed.1, allowed.2.1, allowed.2.2.2⟩) .semicolon (by decide) ";" room _).andThen_ok
      opening ?_
  rw [read_expected final room rfl, Parsed.andThen_ok]
  refine (shows_optionalTest (testAllowed.imp_right fun allowed =>
    ⟨allowed.1, allowed.2.2⟩) room _).andThen_ok second ?_
  rw [read_expected final room rfl, Parsed.andThen_ok]
  refine (shows_clause (incrementAllowed.imp_right fun allowed =>
    ⟨allowed.1, allowed.2.1, allowed.2.2.2⟩) .parenClose (by decide) ")" room _).andThen_ok third ?_
  rw [read_expected final room rfl, Parsed.andThen_ok, read_loopBlock_tokens isOver]
  exact (shows' room rest).andThen _

end Statements

/-! ## All trees -/

section Induction

variable {vocabulary : Vocabulary}

mutual

/-- The tokens of an expression are read only if it fits. -/
theorem expression_shows (lexical : vocabulary.IsLexical) :
    ∀ {value : Expression}, value.Over vocabulary → ExpressionShows final value
  | .bool _ _, _ => fun _ _ _ => .of_fits ⟨Nat.zero_le _, rfl⟩
  | .number _ _ _, _ => fun _ _ _ => .of_fits ⟨Nat.zero_le _, rfl⟩
  | .string _ _, _ => fun _ _ _ => .of_fits ⟨Nat.zero_le _, rfl⟩
  | .array _ span, allOver => shows_array allOver (items_show lexical allOver) span
  | .identifier _, _ => fun _ _ _ => .of_fits ⟨Nat.zero_le _, rfl⟩
  | .invocation _ _ last, ⟨calleeOver, allOver⟩ =>
      shows_invocation (expression_rereads lexical calleeOver) (expression_shows lexical calleeOver)
        allOver (items_show lexical allOver) last
  | .member _ name arrow, ⟨targetOver, _⟩ =>
      shows_member (expression_shows lexical targetOver) name arrow
  | .index _ _ last, ⟨targetOver, positionOver⟩ =>
      shows_index (expression_rereads lexical targetOver) (expression_shows lexical targetOver)
        (expression_shows lexical positionOver) last
  | .binary _ _ _, ⟨listed, leftOver, rightOver⟩ =>
      shows_binary (lexical.operator listed) (expression_rereads lexical leftOver)
        (expression_shows lexical leftOver) (expression_shows lexical rightOver)
  | .closure parameters _ first, ⟨_, bodyOver⟩ =>
      shows_closure (block_shows lexical bodyOver) parameters first
  | .construction _ _ span, ⟨isClass, allOver⟩ =>
      shows_construction isClass allOver (items_show lexical allOver) span
  | .rawCode _ _, _ => fun _ _ _ => .of_fits ⟨Nat.zero_le _, rfl⟩

/-- Where items over a lexical vocabulary are read, they fit. -/
theorem items_show (lexical : vocabulary.IsLexical) :
    ∀ {values : List Expression}, Expression.AllOver vocabulary values → ItemsShow final values
  | [], _ => itemsShow_nil
  | _ :: _, ⟨firstOver, othersOver⟩ =>
      itemsShow_cons (expression_rereads lexical firstOver) (expression_shows lexical firstOver)
        (items_show lexical othersOver)

/-- Where a block is read, it fits. -/
theorem block_shows (lexical : vocabulary.IsLexical) :
    ∀ {block : Block}, block.Over vocabulary → BlockShows final block
  | .of _ span, allOver => shows_block (statements_show lexical allOver) span

/-- Where a statement is read, it fits. -/
theorem statement_shows (lexical : vocabulary.IsLexical) :
    ∀ {node : Statement}, node.Over vocabulary → StatementShows final node
  | .returned _ first, valueOver => shows_returned (expression_shows lexical valueOver) first
  | .declared name _ first, ⟨_, valueOver⟩ =>
      shows_declared (expression_shows lexical valueOver) name first
  | .assigned _ _, ⟨targetOver, valueOver⟩ =>
      shows_assigned targetOver (expression_rereads lexical targetOver)
        (expression_shows lexical targetOver) (expression_shows lexical valueOver)
  | .evaluated _, valueOver => shows_evaluated valueOver (expression_shows lexical valueOver)
  | .conditional _ _ _ first, ⟨testOver, bodyOver, otherOver⟩ => by
      refine shows_conditional (expression_rereads lexical testOver)
        (expression_shows lexical testOver) (block_rereads lexical bodyOver)
        (block_shows lexical bodyOver) ?_ first
      exact otherOver.imp_right fun isOver => block_shows lexical isOver
  | .whileLoop _ _ first, ⟨testOver, bodyOver⟩ =>
      shows_whileLoop (expression_rereads lexical testOver) (expression_shows lexical testOver)
        bodyOver (block_shows lexical bodyOver) first
  | .forLoop _ _ _ _ first, ⟨initialOver, testOver, incrementOver, bodyOver⟩ => by
      refine shows_forLoop ?_ ?_ ?_ bodyOver (block_shows lexical bodyOver) first
      · exact initialOver.imp_right fun ⟨isClause, isOver⟩ =>
          ⟨isClause, isOver, statement_rereads lexical isOver, statement_shows lexical isOver⟩
      · exact testOver.imp_right fun isOver =>
          ⟨isOver, expression_rereads lexical isOver, expression_shows lexical isOver⟩
      · exact incrementOver.imp_right fun ⟨isClause, isOver⟩ =>
          ⟨isClause, isOver, statement_rereads lexical isOver, statement_shows lexical isOver⟩

/-- Where the statements of a block are read, they fit. -/
theorem statements_show (lexical : vocabulary.IsLexical) :
    ∀ {nodes : List Statement}, Statement.AllOver vocabulary nodes → StatementsShow final nodes
  | [], _ => statementsShow_nil
  | _ :: _, ⟨firstOver, othersOver⟩ =>
      statementsShow_cons firstOver (statement_rereads lexical firstOver)
        (statement_shows lexical firstOver) (statements_show lexical othersOver)

end

end Induction

end Trees

/-! ## Declarations -/

/-- A program goes on behind a declaration that is read as expected. -/
theorem Shows.declarations_cons
    {first second : Prop}
    {final : Token}
    {room : Nat}
    {known : List Declaration}
    {token : Token}
    {more rest : List Token}
    {next : Declaration}
    (firstShows : Shows first (Rule.declaration.read final room (token :: more)))
    (reads : Reads first (Rule.declaration.read final room (token :: more)) (.ok (next, rest)))
    (secondShows : Shows second
      (declarations final room (next :: known) (skipNewlines rest))) :
    Shows (first ∧ second) (declarations final room known (token :: more)) := by
  intro found succeeds
  rw [Grammar.declarations_cons] at succeeds
  cases outcome : Rule.declaration.read final room (token :: more) with
  | error error =>
      rw [outcome] at succeeds
      cases succeeds
  | ok parsed =>
      have fit := firstShows parsed outcome
      rw [reads.eq fit] at succeeds
      exact ⟨fit, secondShows found succeeds⟩

section Declarations

variable {vocabulary : Vocabulary} (final : Token) (lexical : vocabulary.IsLexical)

include lexical

/-- Where the methods of a class are read, their blocks fit. -/
theorem methods_show
    {nodes : List Method}
    (allOver : ∀ node ∈ nodes, node.Over vocabulary)
    (room : Nat)
    (constructor? : Option Constructor)
    (rest : List Token) :
    ∀ known : List Method,
      Shows (∀ node ∈ nodes, BlockFits room node.body)
        ((Rule.members constructor? known).read final room
          ((nodes.map Method.tokens).flatMap (Token.newline :: ·) ++
            .newline :: .closing :: rest)) := by
  induction nodes with
  | nil =>
      exact fun known => .of_fits (by simp)
  | cons first others inductionHypothesis =>
      intro known
      have firstOver := allOver first List.mem_cons_self
      have rereads : BlockRereads final first.body := block_rereads lexical firstOver.2.2
      have body : BlockShows final first.body := block_shows lexical firstOver.2.2
      have procedure := rereads_procedure rereads first.parameters room
        ((others.map Method.tokens).flatMap (Token.newline :: ·) ++ .newline :: .closing :: rest)
      have goesOn := inductionHypothesis
        (fun node member => allOver node (List.mem_cons_of_mem _ member)) (first.regroup :: known)
      rw [List.map_cons, List.flatMap_cons, List.append_assoc, List.cons_append,
        Rule.read_members_cons, if_neg (by rintro ⟨⟩), if_neg (by rintro ⟨⟩), if_neg (by rintro ⟨⟩),
        Method.tokens, List.append_assoc, List.cons_append, Rule.read_members_cons,
        if_neg (by rintro ⟨⟩), if_neg (by rintro ⟨⟩), if_pos (Token.bare_kind _ _)]
      exact ((shows_procedure body first.parameters room _).andThen_ok procedure goesOn).imp
        fun fits => List.forall_mem_cons.mpr fits

/-- Where the members of a class are read, their blocks fit. -/
theorem members_show
    {constructor? : Option Constructor}
    {methods : List Method}
    (constructorOver : ∀ node ∈ constructor?, node.Over vocabulary)
    (methodsOver : ∀ node ∈ methods, node.Over vocabulary)
    (room : Nat)
    (rest : List Token) :
    Shows ((∀ node ∈ constructor?, BlockFits room node.body) ∧
        ∀ node ∈ methods, BlockFits room node.body)
      ((Rule.members none []).read final room
        (Declaration.memberTokens constructor? methods ++ .newline :: .closing :: rest)) := by
  cases constructor? with
  | none =>
      exact (methods_show final lexical methodsOver room none rest []).imp fun fits =>
        ⟨fun _ member => absurd member (Option.not_mem_none _), fits⟩
  | some node =>
      have nodeOver := constructorOver node rfl
      have rereads : BlockRereads final node.body := block_rereads lexical nodeOver.2
      have body : BlockShows final node.body := block_shows lexical nodeOver.2
      have procedure := rereads_procedure rereads node.parameters room
        ((methods.map Method.tokens).flatMap (Token.newline :: ·) ++ .newline :: .closing :: rest)
      have all := methods_show final lexical methodsOver room (some node.regroup) rest []
      unfold Declaration.memberTokens
      rw [Option.toList_some, List.map_singleton, List.singleton_append, List.flatMap_cons,
        List.append_assoc, List.cons_append, Rule.read_members_cons, if_neg (by rintro ⟨⟩),
        if_neg (by rintro ⟨⟩), if_neg (by rintro ⟨⟩), Constructor.tokens, List.append_assoc,
        List.cons_append, Rule.read_members_cons, if_neg (by rintro ⟨⟩),
        if_pos (Token.bare_kind _ _)]
      refine ((shows_procedure body node.parameters room _).andThen_ok procedure all).imp
        fun fits => ⟨fun other member => ?_, fits.2⟩
      cases member
      exact fits.1

/-- The tokens of a declaration are read only if it fits. -/
theorem declaration_shows
    {node : Declaration}
    (isOver : node.Over vocabulary)
    (room : Nat)
    {rest : List Token}
    (before : Before [.newline] rest) :
    Shows (DeclarationFits room node) (Rule.declaration.read final room (node.tokens ++ rest)) := by
  cases node with
  | imported module alias? path span =>
      exact .of_fits ⟨Nat.zero_le _, trivial, rfl⟩
  | classType name constructor? methods span =>
      obtain ⟨_, constructorOver, methodsOver⟩ := isOver
      have members := members_show final lexical constructorOver methodsOver room rest
      simp only [Declaration.tokens, List.append_assoc, List.cons_append, List.nil_append]
      rw [Rule.read_declaration_cons, if_neg (by rintro ⟨⟩), if_pos (Token.bare_kind _ _),
        Rule.read_classRest, read_expectedName final room rfl, Parsed.andThen_ok,
        read_expected final room rfl, Parsed.andThen_ok]
      refine (members.andThen _).imp fun fits =>
        ⟨Nat.max_le.mpr ⟨?_, foldr_max_le_iff.mpr fun count member => ?_⟩,
          ⟨fun node member => (fits.1 node member).2,
            fun node member => (fits.2 node member).2⟩, rfl⟩
      · cases constructor? with
        | none => exact Nat.zero_le _
        | some node => exact (fits.1 node rfl).1
      · obtain ⟨method, isMethod, rfl⟩ := List.mem_map.mp member
        exact (fits.2 method isMethod).1
  | function name parameters body first =>
      have shows' : BlockShows final body := block_shows lexical isOver.2.2
      simp only [Declaration.tokens, List.append_assoc, List.cons_append]
      rw [Rule.read_declaration_cons, if_neg (by rintro ⟨⟩), if_neg (by rintro ⟨⟩),
        if_neg (by rintro ⟨⟩), if_neg (by rintro ⟨⟩), if_pos (Token.bare_kind _ _),
        Rule.read_functionRest, read_expectedName final room rfl, Parsed.andThen_ok]
      exact ((shows_procedure shows' parameters room rest).andThen _).imp fun fits =>
        ⟨fits.1, fits.2, rfl⟩
  | typeName name external span =>
      exact .of_fits ⟨Nat.zero_le _, trivial, rfl⟩
  | constant name value first =>
      have shows' : ExpressionShows final value := expression_shows lexical isOver.2
      simp only [Declaration.tokens, List.cons_append]
      rw [Rule.read_declaration_cons, if_neg (by rintro ⟨⟩), if_neg (by rintro ⟨⟩),
        if_neg (by rintro ⟨⟩), if_pos (Token.bare_kind _ _), Rule.read_constantRest,
        read_expectedName final room rfl, Parsed.andThen_ok, read_expected final room rfl,
        Parsed.andThen_ok]
      exact ((shows'.value room rest).andThen _).imp fun fits => ⟨fits.1, fits.2, rfl⟩
  | statement body =>
      obtain ⟨noReturn, bodyOver⟩ := isOver
      cases leads : (Declaration.statement body).leadsWithClosure with
      | true =>
          obtain ⟨error, failed⟩ := read_declaration_closure final leads room rest
          exact .of_error failed
      | false =>
          have shows' : StatementShows final body := statement_shows lexical bodyOver
          rw [Declaration.tokens, read_declaration_statement final bodyOver noReturn leads]
          exact ((shows' room rest (before.of_subset (by decide))).andThen _).imp fun fits =>
            ⟨fits.1, fits.2, leads⟩

/-- Declarations are read only if all of them fit. -/
theorem declarations_show
    (room : Nat)
    {others : List Declaration} :
    ∀ {node : Declaration} (known : List Declaration), node.Over vocabulary →
      (∀ other ∈ others, other.Over vocabulary) →
      Shows (∀ each ∈ node :: others, DeclarationFits room each)
        (declarations final room known (node.tokens ++ Program.tokensAfter node others)) := by
  induction others with
  | nil =>
      intro node known isOver _
      obtain ⟨first, more, starts, -⟩ := declaration_tokens_start isOver
      have shows' := declaration_shows final lexical isOver room (before_tokensAfter node [])
      have reads := declaration_rereads final lexical isOver room (before_tokensAfter node [])
      rw [starts, List.cons_append] at shows' reads ⊢
      exact (shows'.declarations_cons reads (.of_fits trivial)).imp fun fits =>
        List.forall_mem_singleton.mpr fits.1
  | cons next others inductionHypothesis =>
      intro node known isOver othersOver
      have nextOver := othersOver next List.mem_cons_self
      obtain ⟨first, more, starts, -⟩ := declaration_tokens_start isOver
      have before := before_tokensAfter node (next :: others)
      have shows' := declaration_shows final lexical isOver room before
      have reads := declaration_rereads final lexical isOver room before
      have remaining := inductionHypothesis (node.regroup :: known) nextOver
        fun other member => othersOver other (List.mem_cons_of_mem _ member)
      rw [← skipNewlines_tokensAfter node nextOver others] at remaining
      rw [starts, List.cons_append] at shows' reads ⊢
      exact (shows'.declarations_cons reads remaining).imp fun fits =>
        List.forall_mem_cons.mpr fits

end Declarations

/-- The tokens of a program are read only if it fits. -/
theorem programWithin_shows
    {vocabulary : Vocabulary}
    (lexical : vocabulary.IsLexical)
    {program : Program}
    (isOver : program.Over vocabulary)
    (proper : ∀ token ∈ program.tokens, token.kind ≠ .endOfInput)
    (room : Nat) :
    Shows (ProgramFits room program)
      (programWithin room (program.tokens ++ [Token.endOfInput .zero])) := by
  obtain ⟨nodes⟩ := program
  rw [programWithin_concat room proper rfl]
  cases nodes with
  | nil =>
      exact .of_fits (by simp [ProgramFits])
  | cons node others =>
      have nodeOver := isOver node List.mem_cons_self
      obtain ⟨first, more, starts, noNewline⟩ := declaration_tokens_start nodeOver
      have shows' := declarations_show (.endOfInput .zero) lexical room [] nodeOver
        fun other member => isOver other (List.mem_cons_of_mem _ member)
      have skipped : skipNewlines (node.tokens ++ Program.tokensAfter node others) =
          node.tokens ++ Program.tokensAfter node others := by
        rw [starts, List.cons_append, skipNewlines_other noNewline]
      rw [Program.tokens, skipped]
      intro found succeeds
      cases outcome : declarations (.endOfInput .zero) room []
          (node.tokens ++ Program.tokensAfter node others) with
      | error error =>
          rw [outcome] at succeeds
          cases succeeds
      | ok all =>
          exact shows' all outcome

end FrenchNim.Grammar
