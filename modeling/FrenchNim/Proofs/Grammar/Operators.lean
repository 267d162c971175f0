import Mathlib
import FrenchNim.Proofs.Grammar.Standing
import FrenchNim.Proofs.Syntax.Tokens

namespace FrenchNim.Grammar

/-!
# How a row of operators is grouped

Comparisons bind tighter than sums, and both are folded to the left. So a row of
operands with any operators between them falls into runs at its additive
operators: each run is a comparison, and the runs are the terms of the sum.
-/

/-- Items with an operator between any two of them. -/
structure Joined (α : Type) where
  first : α
  others : List (Token × α)

namespace Joined

/-- The items from left to right. -/
def items (joined : Joined α) : List α :=
  joined.first :: joined.others.map (·.2)

/-- The operators from left to right. -/
def operators (joined : Joined α) : List Token :=
  joined.others.map (·.1)

/-- The tokens of the operators and of the items behind them. -/
def furtherTokens (written : α → List Token) (others : List (Token × α)) : List Token :=
  others.flatMap fun pair => pair.1 :: written pair.2

/-- The tokens of the items and of the operators. -/
def tokens (written : α → List Token) (joined : Joined α) : List Token :=
  written joined.first ++ furtherTokens written joined.others

/-- Join the values of the items from left to right. -/
def foldLeft (value : α → Expression) (joined : Joined α) : Expression :=
  joined.others.foldl (fun left pair => .binary pair.1.literal left (value pair.2))
    (value joined.first)

/-- One more item in front. -/
def cons (item : α) (operator : Token) (joined : Joined α) : Joined α :=
  ⟨item, (operator, joined.first) :: joined.others⟩

/-- The runs of items between additive operators, if an item stands in front of the others. -/
def runsFrom (item : α) : List (Token × α) → Joined (Joined α)
  | [] => ⟨⟨item, []⟩, []⟩
  | (operator, next) :: others =>
      let runs := runsFrom next others
      if operator.kind.isAdditive then
        runs.cons ⟨item, []⟩ operator
      else
        ⟨runs.first.cons item operator, runs.others⟩

/-- Split a row of items at its additive operators. -/
def runs (joined : Joined α) : Joined (Joined α) :=
  runsFrom joined.first joined.others

@[simp] theorem tokens_single (written : α → List Token) (item : α) :
    tokens written ⟨item, []⟩ = written item :=
  List.append_nil _

theorem tokens_cons
    (written : α → List Token)
    (item : α)
    (operator : Token)
    (joined : Joined α) :
    (joined.cons item operator).tokens written =
      written item ++ operator :: joined.tokens written :=
  rfl

/-- Splitting a row moves no token. -/
theorem tokens_runs (written : α → List Token) (joined : Joined α) :
    joined.runs.tokens (·.tokens written) = joined.tokens written := by
  obtain ⟨item, others⟩ := joined
  rw [runs]
  induction others generalizing item with
  | nil => rw [runsFrom, tokens_single]
  | cons pair others inductionHypothesis =>
      obtain ⟨operator, next⟩ := pair
      have whole : tokens written ⟨item, (operator, next) :: others⟩ =
          written item ++ operator :: tokens written ⟨next, others⟩ :=
        tokens_cons written item operator ⟨next, others⟩
      rw [whole, ← inductionHypothesis next, runsFrom]
      split
      · rw [tokens_cons, tokens_single]
      · rw [tokens, tokens_cons, List.append_assoc, List.cons_append]
        rfl

/-- The runs of a row are made of its items, in their order. -/
theorem items_runs (joined : Joined α) : joined.runs.items.flatMap items = joined.items := by
  obtain ⟨item, others⟩ := joined
  rw [runs]
  induction others generalizing item with
  | nil => rfl
  | cons pair others inductionHypothesis =>
      have shape : items ⟨item, pair :: others⟩ = item :: items ⟨pair.2, others⟩ := rfl
      rw [shape, ← inductionHypothesis pair.2, runsFrom]
      split <;> rfl

/-- The runs of a row are joined by its additive operators. -/
theorem operators_runs (joined : Joined α) :
    joined.runs.operators = joined.operators.filter (·.kind.isAdditive) := by
  obtain ⟨item, others⟩ := joined
  rw [runs]
  induction others generalizing item with
  | nil => rfl
  | cons pair others inductionHypothesis =>
      have shape : operators ⟨item, pair :: others⟩ = pair.1 :: operators ⟨pair.2, others⟩ := rfl
      rw [shape, List.filter_cons, ← inductionHypothesis pair.2, runsFrom]
      split <;> rfl

/-- The other operators of a row stand in its runs. -/
theorem operators_of_runs (joined : Joined α) :
    joined.runs.items.flatMap operators = joined.operators.filter (!·.kind.isAdditive) := by
  obtain ⟨item, others⟩ := joined
  rw [runs]
  induction others generalizing item with
  | nil => rfl
  | cons pair others inductionHypothesis =>
      have shape : operators ⟨item, pair :: others⟩ = pair.1 :: operators ⟨pair.2, others⟩ := rfl
      rw [shape, List.filter_cons, ← inductionHypothesis pair.2, runsFrom]
      by_cases additive : pair.1.kind.isAdditive = true
      · simp [additive]
        rfl
      · simp [additive]
        rfl

end Joined

/-! ## A level of operators -/

/-- A level of binary operators: what they join, and how the further items of a row are read. -/
structure Level (final : Token) (room : Nat) where
  item : Rule Expression
  further : Expression → Rule Expression
  joins : TokenKind → Bool
  /-- The items do not go on with a token of the kind. -/
  ends : TokenKind → Bool
  ends_of_joins : ∀ kind, joins kind = true → ends kind = true
  read_nil : ∀ left, (further left).read final room [] = .ok (left, [])
  read_cons : ∀ left operator operands,
    (further left).read final room (operator :: operands) =
      if joins operator.kind then
        (item.read final room operands).andThen fun right behind =>
          (further (.binary operator.literal left right)).read final room behind
      else
        .ok (left, operator :: operands)

namespace Level

variable {final : Token} {room : Nat}

/-- The level of comparisons, which join chains. -/
def comparisons (final : Token) (room : Nat) : Level final room where
  item := .chain
  further := .moreComparisons
  joins := (·.isComparison)
  ends := endsChain
  ends_of_joins kind isOperator := by cases kind <;> first | rfl | cases isOperator
  read_nil := Rule.read_moreComparisons_nil final room
  read_cons := Rule.read_moreComparisons_cons final room

/-- The level of sums, which join comparisons. -/
def terms (final : Token) (room : Nat) : Level final room where
  item := .comparison
  further := .moreTerms
  joins := (·.isAdditive)
  ends := endsComparison
  ends_of_joins kind isOperator := by cases kind <;> first | rfl | cases isOperator
  read_nil := Rule.read_moreTerms_nil final room
  read_cons := Rule.read_moreTerms_cons final room

variable (level : Level final room)

/-- The tokens are read as an item of the level in front of whatever ends it. -/
def Reads (tokens : List Token) (value : Expression) : Prop :=
  ∀ behind, (nextKind behind).all level.ends →
    level.item.read final room (tokens ++ behind) = .ok (value, behind)

variable {level} {written : α → List Token} {value : α → Expression}

/-- What follows an item of a row ends it. -/
theorem ends_further
    {others : List (Token × α)}
    {behind : List Token}
    (joins : ∀ pair ∈ others, level.joins pair.1.kind = true)
    (ends : (nextKind behind).all level.ends) :
    (nextKind (Joined.furtherTokens written others ++ behind)).all level.ends := by
  cases others with
  | nil => exact ends
  | cons pair others => exact level.ends_of_joins _ (joins pair (List.mem_cons_self ..))

/-- The further items of a row are folded to the left. -/
theorem read_further
    {others : List (Token × α)}
    (joins : ∀ pair ∈ others, level.joins pair.1.kind = true)
    (reads : ∀ pair ∈ others, level.Reads (written pair.2) (value pair.2))
    {behind : List Token}
    (ends : (nextKind behind).all level.ends)
    (noJoin : (nextKind behind).all fun kind => !level.joins kind)
    (left : Expression) :
    (level.further left).read final room (Joined.furtherTokens written others ++ behind) =
      .ok (others.foldl (fun left pair => .binary pair.1.literal left (value pair.2)) left,
        behind) := by
  induction others generalizing left with
  | nil =>
      cases behind with
      | nil => exact level.read_nil left
      | cons token rest =>
          have other : ¬level.joins token.kind = true := by
            simpa using noJoin
          exact (level.read_cons left token rest).trans (if_neg other)
  | cons pair others inductionHypothesis =>
      obtain ⟨first, joinsOthers⟩ := List.forall_mem_cons.mp joins
      obtain ⟨firstReads, othersRead⟩ := List.forall_mem_cons.mp reads
      have shape : Joined.furtherTokens written (pair :: others) ++ behind =
          pair.1 :: (written pair.2 ++ (Joined.furtherTokens written others ++ behind)) := by
        simp [Joined.furtherTokens]
      rw [shape, level.read_cons, if_pos first, firstReads _ (ends_further joinsOthers ends),
        Parsed.andThen_ok]
      exact inductionHypothesis joinsOthers othersRead _

/-- A row of items is folded to the left. -/
theorem read_joined
    {joined : Joined α}
    (joins : ∀ operator ∈ joined.operators, level.joins operator.kind = true)
    (reads : ∀ item ∈ joined.items, level.Reads (written item) (value item))
    {behind : List Token}
    (ends : (nextKind behind).all level.ends)
    (noJoin : (nextKind behind).all fun kind => !level.joins kind) :
    ((level.item.read final room (joined.tokens written ++ behind)).andThen fun left rest =>
      (level.further left).read final room rest) = .ok (joined.foldLeft value, behind) := by
  have joinsOthers : ∀ pair ∈ joined.others, level.joins pair.1.kind = true :=
    fun pair member => joins _ (List.mem_map_of_mem member)
  obtain ⟨firstReads, othersRead⟩ := List.forall_mem_cons.mp reads
  rw [Joined.tokens, List.append_assoc, firstReads _ (ends_further joinsOthers ends),
    Parsed.andThen_ok]
  exact read_further joinsOthers (fun pair member => othersRead _ (List.mem_map_of_mem member))
    ends noJoin _

end Level

/-! ## Rows of operands -/

/-- The tokens of an operand and what it is. -/
structure Operand where
  tokens : List Token
  value : Expression

/-- The operand is what all of its tokens are read as, in front of some further token. -/
def Operand.IsRead (final : Token) (room : Nat) (operand : Operand) : Prop :=
  ∃ next behind, Rule.chain.read final room (operand.tokens ++ next :: behind) =
    .ok (operand.value, next :: behind)

/-- The comparisons of a row of operands are the terms of a sum. -/
def Joined.grouped (row : Joined Operand) : Expression :=
  row.runs.foldLeft (·.foldLeft Operand.value)

variable {final : Token} {room : Nat}

/-- An operand that is read in front of one token is read in front of all that end it. -/
theorem Operand.IsRead.reads
    (isEnd : final.kind = .endOfInput)
    {operand : Operand}
    (isRead : operand.IsRead final room) :
    (Level.comparisons final room).Reads operand.tokens operand.value := by
  obtain ⟨next, after, found⟩ := isRead
  intro behind ends
  refine Rule.read_standing isEnd isEnd ?_ found
  exact ⟨Option.some_ne_none _, ends⟩

/-- A run of operands is read as one comparison. -/
theorem reads_run
    {run : Joined Operand}
    (comparisons : ∀ operator ∈ run.operators, operator.kind.isComparison = true)
    (reads : ∀ operand ∈ run.items,
      (Level.comparisons final room).Reads operand.tokens operand.value) :
    (Level.terms final room).Reads (run.tokens Operand.tokens) (run.foldLeft Operand.value) := by
  intro behind ends
  have apart : (nextKind behind).all endsChain ∧
      (nextKind behind).all fun kind => !kind.isComparison := by
    cases behind with
    | nil => exact ⟨rfl, rfl⟩
    | cons token rest => simpa [Level.terms, endsComparison] using ends
  refine (Rule.read_comparison final room _).trans ?_
  exact (Level.comparisons final room).read_joined comparisons reads apart.1 apart.2

/-- The operators of an expression. -/
def isOperator (kind : TokenKind) : Bool :=
  kind.isAdditive || kind.isComparison

/--
A row of operands is read as a sum of comparisons: it is split at the additive operators, the
operands of each run are joined from left to right, and so are the runs.
-/
theorem expression_groups_row
    (isEnd : final.kind = .endOfInput)
    {row : Joined Operand}
    (joined : ∀ operator ∈ row.operators, isOperator operator.kind = true)
    (operands : ∀ operand ∈ row.items, operand.IsRead final room)
    {behind : List Token}
    (ends : (nextKind behind).all Goal.endsExpression) :
    Rule.expression.read final (room + 1) (row.tokens Operand.tokens ++ behind) =
      .ok (row.grouped, behind) := by
  have additive : ∀ operator ∈ row.runs.operators, operator.kind.isAdditive = true := by
    intro operator member
    rw [row.operators_runs] at member
    exact (List.mem_filter.mp member).2
  have comparisons : ∀ run ∈ row.runs.items, ∀ operator ∈ run.operators,
      operator.kind.isComparison = true := by
    intro run isRun operator member
    have inside := List.mem_flatMap_of_mem isRun member
    rw [row.operators_of_runs] at inside
    obtain ⟨among, tighter⟩ := List.mem_filter.mp inside
    have either := joined operator among
    rw [Bool.not_eq_true'] at tighter
    rwa [isOperator, tighter, Bool.false_or] at either
  have reads : ∀ run ∈ row.runs.items,
      (Level.terms final room).Reads (run.tokens Operand.tokens)
        (run.foldLeft Operand.value) := by
    intro run isRun
    refine reads_run (comparisons run isRun) fun operand member => ?_
    have inside := List.mem_flatMap_of_mem isRun member
    rw [row.items_runs] at inside
    exact (operands operand inside).reads isEnd
  have apart : (nextKind behind).all endsComparison ∧
      (nextKind behind).all fun kind => !kind.isAdditive := by
    cases behind with
    | nil => exact ⟨rfl, rfl⟩
    | cons token rest =>
        simpa [endsComparison, endsChain, Goal.endsExpression, and_assoc] using ends
  rw [← row.tokens_runs, Rule.read_expression_succ]
  exact (Level.terms final room).read_joined additive reads apart.1 apart.2

/-- The row `a + f() == b - c`. -/
def mixedRow : Joined Operand where
  first := ⟨[.bare .identifier "a"], .identifier ⟨"a", .zero⟩⟩
  others := [
    (.bare .plus "+",
      ⟨[.bare .identifier "f", .bare .parenOpen "(", .bare .parenClose ")"],
        .invocation (.identifier ⟨"f", .zero⟩) [] .zero⟩),
    (.bare .equalEqual "==", ⟨[.bare .identifier "b"], .identifier ⟨"b", .zero⟩⟩),
    (.bare .minus "-", ⟨[.bare .identifier "c"], .identifier ⟨"c", .zero⟩⟩)]

/-- The comparison in the middle of the row is one term of its sum. -/
theorem expression_groups_row_mixed :
    (∀ operator ∈ mixedRow.operators, isOperator operator.kind = true) ∧
    (∀ operand ∈ mixedRow.items, operand.IsRead (.endOfInput .zero) 0) ∧
    Rule.expression.read (.endOfInput .zero) 1 (mixedRow.tokens Operand.tokens ++ []) =
      .ok (.binary "-"
        (.binary "+" (.identifier ⟨"a", .zero⟩)
          (.binary "==" (.invocation (.identifier ⟨"f", .zero⟩) [] .zero)
            (.identifier ⟨"b", .zero⟩)))
        (.identifier ⟨"c", .zero⟩), []) := by
  have joined : ∀ operator ∈ mixedRow.operators, isOperator operator.kind = true := by
    decide
  have operands : ∀ operand ∈ mixedRow.items, operand.IsRead (.endOfInput .zero) 0 := by
    refine List.forall_mem_cons.mpr ⟨⟨.bare .plus "+", [], by cbv⟩, ?_⟩
    refine List.forall_mem_cons.mpr ⟨⟨.bare .equalEqual "==", [], by cbv⟩, ?_⟩
    refine List.forall_mem_cons.mpr ⟨⟨.bare .minus "-", [], by cbv⟩, ?_⟩
    exact List.forall_mem_singleton.mpr ⟨.bare .newline "\n", [], by cbv⟩
  exact ⟨joined, operands, expression_groups_row rfl joined operands rfl⟩

end FrenchNim.Grammar
