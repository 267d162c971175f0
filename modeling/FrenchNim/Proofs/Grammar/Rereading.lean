import FrenchNim.Proofs.Grammar.Rules
import FrenchNim.Proofs.Grammar.Induction
import FrenchNim.Proofs.Syntax.Regrouping
import FrenchNim.Proofs.Syntax.Spelling

namespace FrenchNim.Grammar

/-!
# Reading the tokens of a tree

The grammar reads the tokens of a tree as the tree that its text stands for. It
fails for two reasons only: expressions are nested too deeply, or a class is
named by the self-reference, which is a keyword in the text. The proof follows
the text from left to right. In the middle of an expression the grammar holds
operands back, and what it does next depends on these and on the last operand
alone.
-/

/-- The reading is the expected one, or it fails and the tree does not fit. -/
def Reads (fits : Prop) (actual expected : Except GrammarError α) : Prop :=
  actual = expected ∨ ¬fits ∧ ∃ error, actual = .error error

namespace Reads

variable {fits : Prop} {actual between expected : Except GrammarError α}

/-- What is equal is read as expected. -/
theorem of_eq (same : actual = expected) : Reads fits actual expected :=
  .inl same

/-- A failure is allowed where the tree does not fit. -/
theorem fails {error : GrammarError} (unfit : ¬fits) (failed : actual = .error error) :
    Reads fits actual expected :=
  .inr ⟨unfit, error, failed⟩

/-- A condition that says more excuses more failures. -/
theorem weaken
    {stronger : Prop}
    (reads : Reads fits actual expected)
    (fewer : stronger → fits) :
    Reads stronger actual expected := by
  rcases reads with same | ⟨unfit, failed⟩
  · exact .inl same
  · exact .inr ⟨fun fit => unfit (fewer fit), failed⟩

/-- Readings of one tree are expected in a row. -/
theorem trans
    (first : Reads fits actual between)
    (second : Reads fits between expected) :
    Reads fits actual expected := by
  rcases first with rfl | failed
  · exact second
  · exact .inr failed

/-- What follows a reading is the same behind the expected one. -/
theorem andThen
    {actual expected : Parsed α}
    (reads : Reads fits actual expected)
    (next : α → List Token → Parsed β) :
    Reads fits (actual.andThen next) (expected.andThen next) := by
  rcases reads with rfl | ⟨unfit, error, rfl⟩
  · exact .inl rfl
  · exact .inr ⟨unfit, error, rfl⟩

/-- What follows an expected success goes on with its result. -/
theorem andThen_ok
    {actual : Parsed α}
    {value : α}
    {rest : List Token}
    {next : α → List Token → Parsed β}
    {whole : Parsed β}
    (reads : Reads fits actual (.ok (value, rest)))
    (goesOn : Reads fits (next value rest) whole) :
    Reads fits (actual.andThen next) whole :=
  (reads.andThen next).trans goesOn

/-- A tree that fits is read as expected. -/
theorem eq (reads : Reads fits actual expected) (fit : fits) : actual = expected := by
  rcases reads with same | ⟨unfit, -⟩
  · exact same
  · exact (unfit fit).elim

/-- A reading that succeeds is the expected one. -/
theorem eq_of_ok
    {found : α}
    (reads : Reads fits actual expected)
    (succeeds : actual = .ok found) :
    expected = .ok found := by
  rcases reads with same | ⟨-, error, failed⟩
  · exact same.symm.trans succeeds
  · rw [failed] at succeeds
    cases succeeds

end Reads

/-! ## The tokens between the parts of a tree -/

/-- A kind of token that may follow an expression. -/
def haltingKinds : List TokenKind :=
  [.newline, .equal, .parenClose, .bracketClose, .comma, .semicolon]

/-- A kind of token that may follow a statement. -/
def endingKinds : List TokenKind :=
  [.newline, .parenClose, .semicolon]

/-- A kind of token that an expression may start with. -/
def startingKinds : List TokenKind :=
  [.selfKeyword, .string, .identifier, .number, .boolean, .newKeyword, .functionKeyword, .atSign,
    .bracketOpen, .parenOpen]

/-- The first token, if there is one, is of one of the kinds. -/
def Before (kinds : List TokenKind) (tokens : List Token) : Prop :=
  ∀ token ∈ tokens.head?, token.kind ∈ kinds

/-- No token stands before the end. -/
theorem before_nil (kinds : List TokenKind) : Before kinds [] := by
  intro token isFirst
  cases isFirst

/-- A listed token may come first. -/
theorem before_cons
    {kinds : List TokenKind}
    {token : Token}
    (listed : token.kind ∈ kinds)
    (rest : List Token) :
    Before kinds (token :: rest) := by
  intro first isFirst
  cases isFirst
  exact listed

/-- A longer list of kinds admits more. -/
theorem Before.of_subset
    {fewer kinds : List TokenKind}
    {tokens : List Token}
    (before : Before fewer tokens)
    (subset : fewer ⊆ kinds) :
    Before kinds tokens :=
  fun token isFirst => subset (before token isFirst)

section Reading

variable (final : Token) (room : Nat)

/-- A rule looks at the first token. -/
theorem current_cons (token : Token) (rest : List Token) : current final (token :: rest) = token :=
  rfl

/-- The token that is expected is read. -/
theorem read_expected
    {expectation : Expectation}
    {token : Token}
    (isKind : token.kind = expectation.kind)
    (rest : List Token) :
    (Rule.expect expectation).read final room (token :: rest) = .ok (token, rest) := by
  rw [Rule.read_expect_cons, if_pos isKind]

/-- The name that is expected is read. -/
theorem read_expectedName
    {expectation : Expectation}
    {token : Token}
    (isKind : token.kind = expectation.kind)
    (rest : List Token) :
    (Rule.name expectation).read final room (token :: rest) = .ok (identifierOf token, rest) := by
  rw [Rule.read_name, read_expected final room isKind, Parsed.andThen_ok]

/-! ## In the middle of an expression -/

/-- Read the links of the last operand, then the rest of the comparison and of the sum. -/
def resume (pending : Pending) (target : Expression) (tokens : List Token) : Parsed Expression :=
  ((Rule.moreLinks target).read final room tokens).andThen fun operand behind =>
    ((Rule.moreComparisons (pending.compared operand)).read final room behind).andThen
      fun term after => (Rule.moreTerms (Pending.join pending.sum term)).read final room after

/-- Read the next operand and go on. -/
def begin (pending : Pending) (tokens : List Token) : Parsed Expression :=
  (Rule.primary.read final room tokens).andThen (resume final room pending)

/-- An expression begins with nothing that waits. -/
theorem read_expression_begin (tokens : List Token) :
    Rule.expression.read final (room + 1) tokens = begin final room .empty tokens := by
  rw [Rule.read_expression_succ, Rule.read_comparison, Rule.read_chain, Parsed.andThen_assoc,
    Parsed.andThen_assoc]
  unfold begin
  congr 1

/-- A chain ends before a token that is no link. -/
theorem read_moreLinks_other
    {tokens : List Token}
    {kinds : List TokenKind}
    (before : Before kinds tokens)
    (noLinks : ∀ kind ∈ kinds,
      kind ≠ .dot ∧ kind ≠ .arrow ∧ kind ≠ .parenOpen ∧ kind ≠ .bracketOpen)
    (target : Expression) :
    (Rule.moreLinks target).read final room tokens = .ok (target, tokens) := by
  cases tokens with
  | nil =>
      exact Rule.read_moreLinks_nil final room target
  | cons token rest =>
      obtain ⟨noDot, noArrow, noCall, noIndex⟩ := noLinks token.kind (before token rfl)
      rw [Rule.read_moreLinks_cons, if_neg (not_or.mpr ⟨noDot, noArrow⟩), if_neg noCall,
        if_neg noIndex]

/-- A row of comparisons ends before a token that is no such operator. -/
theorem read_moreComparisons_other
    {tokens : List Token}
    {kinds : List TokenKind}
    (before : Before kinds tokens)
    (noComparison : ∀ kind ∈ kinds, kind.isComparison = false)
    (left : Expression) :
    (Rule.moreComparisons left).read final room tokens = .ok (left, tokens) := by
  cases tokens with
  | nil =>
      exact Rule.read_moreComparisons_nil final room left
  | cons token rest =>
      rw [Rule.read_moreComparisons_cons, noComparison token.kind (before token rfl),
        if_neg Bool.false_ne_true]

/-- A sum ends before a token that may follow an expression. -/
theorem read_moreTerms_other
    {tokens : List Token}
    (before : Before haltingKinds tokens)
    (left : Expression) :
    (Rule.moreTerms left).read final room tokens = .ok (left, tokens) := by
  cases tokens with
  | nil =>
      exact Rule.read_moreTerms_nil final room left
  | cons token rest =>
      have noSum : ∀ kind ∈ haltingKinds, kind.isAdditive = false := by
        decide
      rw [Rule.read_moreTerms_cons, noSum token.kind (before token rfl), if_neg Bool.false_ne_true]

/-- An expression ends before a token that cannot continue it. -/
theorem resume_end
    {tokens : List Token}
    (before : Before haltingKinds tokens)
    (pending : Pending)
    (target : Expression) :
    resume final room pending target tokens = .ok (pending.finish target, tokens) := by
  unfold resume
  rw [read_moreLinks_other final room before (by decide), Parsed.andThen_ok,
    read_moreComparisons_other final room before (by decide), Parsed.andThen_ok,
    read_moreTerms_other final room before]
  rfl

/-- A member is a link of the last operand. -/
theorem resume_member
    (pending : Pending)
    (target : Expression)
    (name : Identifier)
    (arrow : Bool)
    (rest : List Token) :
    resume final room pending target (.link arrow :: .named name :: rest) =
      resume final room pending (.member target (name.relocate fun _ => .zero) arrow) rest := by
  have isLink : (Token.link arrow).kind = .dot ∨ (Token.link arrow).kind = .arrow := by
    cases arrow with
    | true => exact .inr rfl
    | false => exact .inl rfl
  have isArrow : decide ((Token.link arrow).kind = .arrow) = arrow := by
    cases arrow with
    | true => rfl
    | false => rfl
  unfold resume
  rw [Rule.read_moreLinks_cons, if_pos isLink, read_expectedName final room rfl,
    Parsed.andThen_ok, isArrow]
  rfl

/-- The kind of an operator decides which level it belongs to. -/
theorem operatorKind_cases
    {operator : String}
    (listed : operator ∈ binaryOperators) :
    (operatorKind operator).isComparison = true ∨
      (operatorKind operator).isComparison = false ∧
        (operatorKind operator).isAdditive = true := by
  revert operator
  decide

/-- Behind an operator the operands before it wait. -/
theorem resume_operator
    {operator : String}
    (listed : operator ∈ binaryOperators)
    (pending : Pending)
    (target : Expression)
    (rest : List Token) :
    resume final room pending target (.bare (operatorKind operator) operator :: rest) =
      begin final room (pending.extend target operator) rest := by
  have noLinks : ∀ operator ∈ binaryOperators, ∀ kind ∈ [operatorKind operator],
      kind ≠ .dot ∧ kind ≠ .arrow ∧ kind ≠ .parenOpen ∧ kind ≠ .bracketOpen := by
    decide
  have before : Before [operatorKind operator]
      (Token.bare (operatorKind operator) operator :: rest) :=
    before_cons (List.mem_singleton.mpr rfl) rest
  have noLink := read_moreLinks_other final room before (noLinks operator listed) target
  unfold resume Pending.extend
  rw [noLink, Parsed.andThen_ok]
  rcases operatorKind_cases listed with comparison | ⟨noComparison, additive⟩
  · rw [if_pos comparison, Rule.read_moreComparisons_cons, Token.bare_kind, if_pos comparison,
      Rule.read_chain, Parsed.andThen_assoc, Parsed.andThen_assoc]
    unfold begin
    congr 1
  · rw [if_neg (by simp [noComparison]), Rule.read_moreComparisons_cons, Token.bare_kind,
      if_neg (by simp [noComparison]), Parsed.andThen_ok, Rule.read_moreTerms_cons,
      Token.bare_kind, if_pos additive, Rule.read_comparison, Rule.read_chain,
      Parsed.andThen_assoc, Parsed.andThen_assoc]
    unfold begin
    congr 1

/-! ## Lists of names, and the names of classes -/

/-- A comma stands between the first of several items and the others. -/
theorem intercalate_comma_cons
    (first : List Token)
    {others : List (List Token)}
    (nonempty : others ≠ [])
    (rest : List Token) :
    [Token.comma].intercalate (first :: others) ++ rest =
      first ++ .comma :: ([Token.comma].intercalate others ++ rest) := by
  cases others with
  | nil =>
      exact (nonempty rfl).elim
  | cons second others =>
      rw [List.intercalate_cons_cons, List.append_assoc, List.append_assoc, List.singleton_append]

/-- Names with commas between them are read as parameters, up to the parenthesis. -/
theorem read_moreParameters_tokens
    {names : List Identifier}
    (nonempty : names ≠ [])
    (rest : List Token) :
    ∀ known : List Identifier,
      (Rule.moreParameters known).read final room
          ([Token.comma].intercalate (names.map ([Token.named ·])) ++ .parenClose :: rest) =
        .ok (known.reverse ++ names.map (·.relocate fun _ => .zero), .parenClose :: rest) := by
  induction names with
  | nil =>
      exact (nonempty rfl).elim
  | cons first others inductionHypothesis =>
      intro known
      cases others with
      | nil =>
          rw [List.map_singleton, List.intercalate_singleton, Rule.read_moreParameters,
            List.singleton_append, read_expectedName final room rfl, Parsed.andThen_ok]
          simp only [Token.bare_kind, reduceCtorEq, if_false, List.reverse_cons]
          rfl
      | cons second others =>
          have goesOn := inductionHypothesis (List.cons_ne_nil _ _)
            (identifierOf (.named first) :: known)
          have more : (second :: others).map ([Token.named ·]) ≠ [] := List.cons_ne_nil _ _
          rw [List.map_cons, intercalate_comma_cons _ more, Rule.read_moreParameters,
            List.singleton_append, read_expectedName final room rfl, Parsed.andThen_ok]
          simp only [Token.bare_kind, if_true]
          rw [goesOn, List.reverse_cons, List.append_assoc]
          rfl

/-- The parameters of a procedure are read as they are. -/
theorem read_parameters_tokens (names : List Identifier) (rest : List Token) :
    Rule.parameters.read final room (parameterTokens names ++ rest) =
      .ok (names.map (·.relocate fun _ => .zero), rest) := by
  unfold parameterTokens
  rw [Rule.read_parameters, List.cons_append, List.cons_append, read_expected final room rfl,
    Parsed.andThen_ok, List.append_assoc, List.singleton_append]
  cases names with
  | nil =>
      rfl
  | cons first others =>
      have noClose : (current final ([Token.comma].intercalate
          ((first :: others).map ([Token.named ·])) ++ .parenClose :: rest)).kind ≠
          .parenClose := by
        cases others with
        | nil => exact nofun
        | cons second others => exact nofun
      rw [if_neg noClose, read_moreParameters_tokens final room (List.cons_ne_nil _ _),
        Parsed.andThen_ok, read_expected final room rfl, Parsed.andThen_ok]
      rfl

/-- A class named by the self-reference starts with a keyword. -/
theorem tokens_of_root_self :
    ∀ {callee : Expression}, callee.root? = some selfName →
      ∃ more, callee.tokens = .bare .selfKeyword "ceci" :: more
  | .identifier name, isSelf => by
      have isName : name.name = selfName := Option.some.inj isSelf
      exact ⟨[], by rw [Expression.tokens, Expression.nameToken, if_pos isName]⟩
  | .member target name arrow, isSelf => by
      have targetSelf : target.root? = some selfName := isSelf
      obtain ⟨more, starts⟩ := tokens_of_root_self targetSelf
      exact ⟨more ++ [Token.link arrow, .named name],
        by rw [Expression.tokens, starts, List.cons_append]⟩

/-- Any other name of a class is read as it is. -/
theorem read_className_tokens
    {vocabulary : Vocabulary}
    {callee : Expression}
    (named : callee.IsClassName vocabulary) :
    callee.root? ≠ some selfName → ∀ rest,
      (((Rule.name .className).read final room (callee.tokens ++ rest)).andThen
        fun name after => (Rule.className (.identifier name)).read final room after) =
          (Rule.className callee.erase).read final room rest := by
  refine named.induction (fun name _ noSelf rest => ?_)
    fun target name _ _ reads noSelf rest => ?_
  · have isOther : name.name ≠ selfName := fun isSelf => noSelf (congrArg some isSelf)
    rw [Expression.tokens, Expression.nameToken, if_neg isOther, List.singleton_append,
      read_expectedName final room rfl, Parsed.andThen_ok]
    rfl
  · rw [Expression.tokens, List.append_assoc]
    refine (reads noSelf (.link false :: .named name :: rest)).trans ?_
    have isDot : (Token.link false).kind = .dot := rfl
    rw [Rule.read_className_cons, if_pos isDot, read_expectedName final room rfl,
      Parsed.andThen_ok]
    rfl

end Reading

/-! ## Which trees are read -/

/-- Expressions may be nested this deeply, and no class is named by the self-reference. -/
def ExpressionFits (room : Nat) (value : Expression) : Prop :=
  value.nesting ≤ room ∧ value.Everywhere (·.constructsSelf = false)

/-- The same for a list of items. -/
def ItemsFit (room : Nat) (values : List Expression) : Prop :=
  Expression.itemNesting values ≤ room ∧
    Expression.AllEverywhere (·.constructsSelf = false) values

/-- The same for a block. -/
def BlockFits (room : Nat) (block : Block) : Prop :=
  block.nesting ≤ room ∧ block.Everywhere (·.constructsSelf = false)

/-- The same for a statement. -/
def StatementFits (room : Nat) (node : Statement) : Prop :=
  node.nesting ≤ room ∧ node.Everywhere (·.constructsSelf = false)

/-- The same for a list of statements. -/
def StatementsFit (room : Nat) (nodes : List Statement) : Prop :=
  Statement.allNesting nodes ≤ room ∧ Statement.AllEverywhere (·.constructsSelf = false) nodes

/-- The same for an expression that takes a level of its own. -/
def ValueFits (room : Nat) (value : Expression) : Prop :=
  value.nesting + 1 ≤ room ∧ value.Everywhere (·.constructsSelf = false)

section Starts

variable {vocabulary : Vocabulary}

/-- The first token of an expression says so, and a closure is only where it starts with one. -/
theorem tokens_start :
    ∀ {value : Expression}, value.Over vocabulary →
      ∃ first more, value.tokens = first :: more ∧ first.kind ∈ startingKinds ∧
        (value.leadsWithClosure = false → first.kind ≠ .functionKeyword)
  | .bool _ _, _ => ⟨_, _, rfl, by simp [startingKinds], fun _ => nofun⟩
  | .number _ _ _, _ => ⟨_, _, rfl, by simp [startingKinds], fun _ => nofun⟩
  | .string _ _, _ => ⟨_, _, rfl, by simp [startingKinds], fun _ => nofun⟩
  | .array _ _, _ => ⟨_, _, rfl, by decide, fun _ => nofun⟩
  | .identifier name, _ => by
      rw [Expression.tokens, Expression.nameToken]
      split
      · exact ⟨_, _, rfl, by decide, fun _ => nofun⟩
      · exact ⟨_, _, rfl, by simp [startingKinds], fun _ => nofun⟩
  | .invocation callee _ _, ⟨calleeOver, _⟩ => by
      obtain ⟨first, more, starts, listed, leads⟩ := tokens_start calleeOver
      exact ⟨first, _, by rw [Expression.tokens, starts]; rfl, listed, leads⟩
  | .member target _ _, ⟨targetOver, _⟩ => by
      obtain ⟨first, more, starts, listed, leads⟩ := tokens_start targetOver
      exact ⟨first, _, by rw [Expression.tokens, starts]; rfl, listed, leads⟩
  | .index target _ _, ⟨targetOver, _⟩ => by
      obtain ⟨first, more, starts, listed, leads⟩ := tokens_start targetOver
      exact ⟨first, _, by rw [Expression.tokens, starts]; rfl, listed, leads⟩
  | .binary _ left _, ⟨_, leftOver, _⟩ => by
      obtain ⟨first, more, starts, listed, leads⟩ := tokens_start leftOver
      rw [Expression.tokens, Expression.operandTokens, Expression.leadsWithClosure]
      cases left.isBinary with
      | true => exact ⟨_, _, rfl, by decide, fun _ => nofun⟩
      | false => exact ⟨first, _, by rw [starts]; rfl, listed, leads⟩
  | .closure _ _ _, _ => ⟨_, _, rfl, by decide, nofun⟩
  | .construction _ _ _, _ => ⟨_, _, rfl, by decide, fun _ => nofun⟩
  | .rawCode _ _, _ => ⟨_, _, rfl, by decide, fun _ => nofun⟩

/-- No token that an expression starts with is of another kind. -/
theorem current_tokens_ne
    {value : Expression}
    (isOver : value.Over vocabulary)
    {kind : TokenKind}
    (other : kind ∉ startingKinds)
    (final : Token)
    (rest : List Token) :
    (current final (value.tokens ++ rest)).kind ≠ kind := by
  obtain ⟨first, more, starts, listed, -⟩ := tokens_start isOver
  rw [starts]
  intro same
  exact other (same ▸ listed)

/-- Items do not start with the token that closes them. -/
theorem current_items_ne
    {first : Expression}
    {others : List Expression}
    (allOver : Expression.AllOver vocabulary (first :: others))
    {kind : TokenKind}
    (isClosing : kind ∈ [TokenKind.parenClose, .bracketClose])
    (final : Token)
    (rest : List Token) :
    (current final ([Token.comma].intercalate (Expression.allTokens (first :: others)) ++
      rest)).kind ≠ kind := by
  have other : kind ∉ startingKinds := by
    revert kind
    decide
  cases others with
  | nil =>
      rw [Expression.allTokens, Expression.allTokens, List.intercalate_singleton]
      exact current_tokens_ne allOver.1 other final _
  | cons second others =>
      have more : Expression.allTokens (second :: others) ≠ [] := List.cons_ne_nil _ _
      rw [Expression.allTokens, intercalate_comma_cons _ more]
      exact current_tokens_ne allOver.1 other final _

end Starts

section Trees

variable (final : Token)

/-- The tokens of the expression are read as its text says, wherever they stand. -/
def ExpressionRereads (value : Expression) : Prop :=
  ∀ (room : Nat) (pending : Pending) (rest : List Token),
    Reads (ExpressionFits room value) (begin final room pending (value.tokens ++ rest))
      (resume final room (value.push pending).1 (value.push pending).2 rest)

/-- The tokens of the items are read as their texts say, up to the token that closes them. -/
def ItemsReread (values : List Expression) : Prop :=
  ∀ (room : Nat) (known : List Expression) (closing : Token) (rest : List Token),
    closing.kind ∈ [TokenKind.parenClose, .bracketClose] → values ≠ [] →
      Reads (ItemsFit room values)
        ((Rule.moreItems known).read final room
          ([Token.comma].intercalate (Expression.allTokens values) ++ closing :: rest))
        (.ok (known.reverse ++ Expression.regroupAll values, closing :: rest))

/-- The tokens of the block are read as its text says. -/
def BlockRereads (block : Block) : Prop :=
  ∀ (room : Nat) (rest : List Token),
    Reads (BlockFits room block) (Rule.block.read final room (block.tokens ++ rest))
      (.ok (block.regroup, rest))

/-- The tokens of the statement are read as its text says. -/
def StatementRereads (node : Statement) : Prop :=
  ∀ (room : Nat) (rest : List Token), Before endingKinds rest →
    Reads (StatementFits room node) (Rule.statement.read final room (node.tokens ++ rest))
      (.ok (node.regroup, rest))

/-- The tokens of the statements are read as their texts say, up to the end of the block. -/
def StatementsReread (nodes : List Statement) : Prop :=
  ∀ (room : Nat) (known : List Statement) (rest : List Token),
    Reads (StatementsFit room nodes)
      ((Rule.statements known).read final room
        (skipNewlines (Statement.allTokens nodes ++ .newline :: .closing :: rest)))
      (.ok (known.reverse ++ Statement.regroupAll nodes, .closing :: rest))

variable {final}

/-- An operand that is read whole is then resumed at its links. -/
theorem begin_of_primary
    {fits : Prop}
    {room : Nat}
    {tokens rest : List Token}
    {head : Expression}
    (reads : Reads fits (Rule.primary.read final room tokens) (.ok (head, rest)))
    (pending : Pending) :
    Reads fits (begin final room pending tokens) (resume final room pending head rest) :=
  reads.andThen (resume final room pending)

/-- An expression that takes a level of its own. -/
theorem ExpressionRereads.value
    {value : Expression}
    (rereads : ExpressionRereads final value)
    {rest : List Token}
    (before : Before haltingKinds rest)
    (room : Nat) :
    Reads (ValueFits room value) (Rule.expression.read final room (value.tokens ++ rest))
      (.ok (value.regroup, rest)) := by
  cases room with
  | zero =>
      exact .fails (fun fits => Nat.not_succ_le_zero _ fits.1)
        (Rule.read_expression_zero final _)
  | succ room =>
      rw [read_expression_begin]
      have reads := rereads room .empty rest
      rw [resume_end final room before] at reads
      exact reads.weaken fun fits => ⟨Nat.le_of_succ_le_succ fits.1, fits.2⟩

/-- Items up to and including the token that closes them. -/
theorem ItemsReread.items
    {vocabulary : Vocabulary}
    {values : List Expression}
    (rereads : ItemsReread final values)
    (allOver : Expression.AllOver vocabulary values)
    (closing : Expectation)
    (isClosing : closing.kind ∈ [TokenKind.parenClose, .bracketClose])
    (literal : String)
    (rest : List Token)
    (room : Nat) :
    Reads (ItemsFit room values)
      ((Rule.items closing).read final room
        ([Token.comma].intercalate (Expression.allTokens values) ++
          .bare closing.kind literal :: rest))
      (.ok ((Expression.regroupAll values, .bare closing.kind literal), rest)) := by
  have closed := read_expected final room (Token.bare_kind closing.kind literal) rest
  rw [Rule.read_items]
  cases values with
  | nil =>
      refine .of_eq ?_
      rw [Expression.allTokens, List.intercalate_nil, List.nil_append,
        if_pos (show (current final (.bare closing.kind literal :: rest)).kind = closing.kind
          from rfl), closed]
      rfl
  | cons first others =>
      rw [if_neg (current_items_ne allOver isClosing final _)]
      refine (rereads room [] _ rest isClosing (List.cons_ne_nil _ _)).andThen_ok ?_
      refine .of_eq ?_
      rw [closed]
      rfl

section Expressions

variable {vocabulary : Vocabulary} {target position left right : Expression}
variable {values : List Expression} {body : Block}

/-- A single token that is an expression. -/
theorem rereads_leaf
    {value head : Expression}
    {token : Token}
    (single : value.tokens = [token])
    (isLeaf : leaf? token = some head)
    (isOperand : ∀ pending, value.push pending = (pending, head)) :
    ExpressionRereads final value := by
  intro room pending rest
  rw [single, List.singleton_append, isOperand]
  exact begin_of_primary (.of_eq (Rule.read_primary_leaf final room isLeaf rest)) pending

/-- A name is read as the name it is, and as the self-reference if it is that. -/
theorem rereads_identifier (name : Identifier) : ExpressionRereads final (.identifier name) := by
  by_cases isSelf : name.name = selfName
  · have isLeaf : leaf? (.bare .selfKeyword "ceci") =
        some (.identifier (name.relocate fun _ => .zero)) := by
      rw [Identifier.relocate, isSelf]
      rfl
    refine rereads_leaf ?_ isLeaf fun _ => rfl
    rw [Expression.tokens, Expression.nameToken, if_pos isSelf]
  · have isLeaf : leaf? (.named name) = some (.identifier (name.relocate fun _ => .zero)) :=
      rfl
    refine rereads_leaf ?_ isLeaf fun _ => rfl
    rw [Expression.tokens, Expression.nameToken, if_neg isSelf]

/-- A list is read as the list of its regrouped items. -/
theorem rereads_array
    (allOver : Expression.AllOver vocabulary values)
    (rereads : ItemsReread final values)
    (span : Span) :
    ExpressionRereads final (.array values span) := by
  intro room pending rest
  have items := rereads.items allOver .bracketClose (by decide) "]" rest room
  refine begin_of_primary ?_ pending
  rw [Expression.tokens, List.append_assoc, List.cons_append, List.singleton_append,
    Rule.read_primary_cons final room rfl, if_neg nofun, if_neg nofun, if_neg nofun,
    if_pos (Token.bare_kind _ _)]
  exact (items.weaken fun fits => ⟨fits.1, fits.2.2⟩).andThen_ok (.of_eq rfl)

/-- A property is read as a link behind its target. -/
theorem rereads_member
    (rereads : ExpressionRereads final target)
    (name : Identifier)
    (arrow : Bool) :
    ExpressionRereads final (.member target name arrow) := by
  intro room pending rest
  have before := rereads room pending (.link arrow :: .named name :: rest)
  rw [resume_member] at before
  rw [Expression.tokens, List.append_assoc]
  exact before.weaken fun fits => ⟨fits.1, fits.2.2⟩

/-- A call is a link of the last operand. -/
theorem rereads_invocation
    (targetRereads : ExpressionRereads final target)
    (allOver : Expression.AllOver vocabulary values)
    (rereads : ItemsReread final values)
    (last : Position) :
    ExpressionRereads final (.invocation target values last) := by
  intro room pending rest
  have before := targetRereads room pending
    (.parenOpen :: [Token.comma].intercalate (Expression.allTokens values) ++ .parenClose :: rest)
  have items := rereads.items allOver .parenClose (by decide) ")" rest room
  rw [Expression.tokens, List.append_assoc, List.append_assoc, List.singleton_append]
  refine (before.weaken fun fits => ⟨(Nat.max_le.mp fits.1).1, fits.2.2.1⟩).trans ?_
  unfold resume
  rw [List.cons_append, Rule.read_moreLinks_cons, if_neg nofun, if_pos (Token.bare_kind _ _),
    Parsed.andThen_assoc]
  exact (items.weaken fun fits => ⟨(Nat.max_le.mp fits.1).2, fits.2.2.2⟩).andThen_ok (.of_eq rfl)

/-- An index is a link of the last operand. -/
theorem rereads_index
    (targetRereads : ExpressionRereads final target)
    (rereads : ExpressionRereads final position)
    (last : Position) :
    ExpressionRereads final (.index target position last) := by
  intro room pending rest
  have before := targetRereads room pending
    (.bracketOpen :: position.tokens ++ .bracketClose :: rest)
  have inner := rereads.value
    (before_cons (show Token.bracketClose.kind ∈ haltingKinds by decide) rest) room
  rw [Expression.tokens, List.append_assoc, List.append_assoc, List.singleton_append]
  refine (before.weaken fun fits => ⟨(Nat.max_le.mp fits.1).1, fits.2.2.1⟩).trans ?_
  unfold resume
  rw [List.cons_append, Rule.read_moreLinks_cons, if_neg nofun, if_neg nofun,
    if_pos (Token.bare_kind _ _), Parsed.andThen_assoc]
  refine (inner.weaken fun fits => ⟨(Nat.max_le.mp fits.1).2, fits.2.2.2⟩).andThen_ok ?_
  rw [read_expected final room rfl]
  exact .of_eq rfl

/-- An operand, between parentheses if it is binary. -/
theorem ExpressionRereads.operand
    {value : Expression}
    (rereads : ExpressionRereads final value)
    (room : Nat)
    (pending : Pending)
    (rest : List Token) :
    Reads (value.nesting + (if value.isBinary then 1 else 0) ≤ room ∧
        value.Everywhere (·.constructsSelf = false))
      (begin final room pending (value.operandTokens value.tokens ++ rest))
      (resume final room (value.pushOperand pending).1 (value.pushOperand pending).2 rest) := by
  unfold Expression.operandTokens Expression.pushOperand
  cases value.isBinary with
  | false =>
      exact rereads room pending rest
  | true =>
      have inner := rereads.value
        (before_cons (show Token.parenClose.kind ∈ haltingKinds by decide) rest) room
      refine begin_of_primary ?_ pending
      rw [if_pos rfl, if_pos rfl, List.append_assoc, List.cons_append, List.singleton_append,
        Rule.read_primary_cons final room rfl, if_neg nofun, if_neg nofun, if_neg nofun,
        if_neg nofun, if_pos (Token.bare_kind _ _)]
      refine (inner.weaken fun fits => ⟨fits.1, fits.2⟩).andThen_ok ?_
      rw [read_expected final room rfl]
      exact .of_eq rfl

/-- The operands of a binary expression are read one behind the other. -/
theorem rereads_binary
    {operator : String}
    (listed : operator ∈ binaryOperators)
    (leftRereads : ExpressionRereads final left)
    (rightRereads : ExpressionRereads final right) :
    ExpressionRereads final (.binary operator left right) := by
  intro room pending rest
  have first := leftRereads.operand room pending
    (.bare (operatorKind operator) operator :: (right.operandTokens right.tokens ++ rest))
  rw [resume_operator final room listed] at first
  have second := rightRereads.operand room
    ((left.pushOperand pending).1.extend (left.pushOperand pending).2 operator) rest
  rw [Expression.tokens, List.append_assoc, List.cons_append]
  refine (first.weaken fun fits => ⟨(Nat.max_le.mp fits.1).1, fits.2.2.1⟩).trans ?_
  exact second.weaken fun fits => ⟨(Nat.max_le.mp fits.1).2, fits.2.2.2⟩

/-- The parameters and the block of a procedure are read one behind the other. -/
theorem rereads_procedure
    (rereads : BlockRereads final body)
    (names : List Identifier)
    (room : Nat)
    (rest : List Token) :
    Reads (BlockFits room body)
      (Rule.procedure.read final room (parameterTokens names ++ (body.tokens ++ rest)))
      (.ok ((names.map (·.relocate fun _ => .zero), body.regroup), rest)) := by
  rw [Rule.read_procedure, read_parameters_tokens, Parsed.andThen_ok]
  exact (rereads room rest).andThen_ok (.of_eq rfl)

/-- A closure is read as a procedure behind its word. -/
theorem rereads_closure
    (rereads : BlockRereads final body)
    (names : List Identifier)
    (start : Position) :
    ExpressionRereads final (.closure names body start) := by
  intro room pending rest
  have procedure := rereads_procedure rereads names room rest
  refine begin_of_primary ?_ pending
  rw [Expression.tokens, List.append_assoc, List.cons_append,
    Rule.read_primary_cons final room rfl, if_neg nofun, if_pos (Token.bare_kind _ _)]
  exact (procedure.weaken fun fits => ⟨fits.1, fits.2.2⟩).andThen_ok (.of_eq rfl)

/-- A construction, unless its class is named by the self-reference. -/
theorem rereads_construction
    {callee : Expression}
    (isClass : callee.IsClassName vocabulary)
    (allOver : Expression.AllOver vocabulary values)
    (rereads : ItemsReread final values)
    (span : Span) :
    ExpressionRereads final (.construction callee values span) := by
  intro room pending rest
  have items := rereads.items allOver .parenClose (by decide) ")" rest room
  refine begin_of_primary ?_ pending
  rw [Expression.tokens, List.append_assoc, List.append_assoc, List.cons_append,
    Rule.read_primary_cons final room rfl, if_pos (Token.bare_kind _ _)]
  by_cases isSelf : callee.root? = some selfName
  · obtain ⟨more, starts⟩ := tokens_of_root_self isSelf
    have unfit : ¬ExpressionFits room (.construction callee values span) := by
      intro fits
      have noSelf : decide (callee.root? = some selfName) = false := fits.2.1
      exact (decide_eq_false_iff_not.mp noSelf) isSelf
    rw [starts, List.cons_append, Rule.read_name, Rule.read_expect_cons, if_neg nofun]
    exact .fails unfit rfl
  · have named := read_className_tokens final room isClass isSelf
    refine .trans (.of_eq (Parsed.andThen_assoc _ _ _).symm) ?_
    rw [named, List.cons_append, Rule.read_className_cons, if_neg nofun, Parsed.andThen_ok,
      read_expected final room rfl, Parsed.andThen_ok, List.singleton_append]
    exact (items.weaken fun fits => ⟨fits.1, fits.2.2⟩).andThen_ok (.of_eq rfl)

/-- Embedded code that is captured as it is written is read as it is. -/
theorem rereads_rawCode
    {code : String}
    (readsBack : RawCode.ReadsBack code)
    (span : Span) :
    ExpressionRereads final (.rawCode code span) := by
  intro room pending rest
  refine begin_of_primary (.of_eq ?_) pending
  rw [Expression.tokens, List.append_assoc, List.cons_append, List.cons_append, List.cons_append,
    List.singleton_append, Rule.read_primary_cons final room rfl, if_neg nofun, if_neg nofun,
    if_pos (Token.bare_kind _ _), Rule.read_rawCode, read_expected final room rfl,
    Parsed.andThen_ok, read_expected final room rfl, Parsed.andThen_ok, readsBack.captured]
  rfl

end Expressions

/-- No items are read as no items. -/
theorem itemsReread_nil : ItemsReread final [] :=
  fun _ _ _ _ _ nonempty => (nonempty rfl).elim

/-- A further item is read behind a comma. -/
theorem itemsReread_cons
    {first : Expression}
    {others : List Expression}
    (firstRereads : ExpressionRereads final first)
    (othersReread : ItemsReread final others) :
    ItemsReread final (first :: others) := by
  intro room known closing rest isClosing _
  have halting : closing.kind ∈ haltingKinds := by
    revert isClosing
    generalize closing.kind = kind
    revert kind
    decide
  have noComma : closing.kind ≠ .comma := by
    revert isClosing
    generalize closing.kind = kind
    revert kind
    decide
  cases others with
  | nil =>
      have value := firstRereads.value (before_cons halting rest) room
      rw [Rule.read_moreItems, Expression.allTokens, Expression.allTokens,
        List.intercalate_singleton]
      refine (value.weaken fun fits => ⟨(Nat.max_le.mp fits.1).1, fits.2.1⟩).andThen_ok ?_
      simp only
      rw [if_neg noComma, List.reverse_cons]
      exact .of_eq rfl
  | cons second others =>
      have comma := before_cons (show Token.comma.kind ∈ haltingKinds by decide)
        ([Token.comma].intercalate (Expression.allTokens (second :: others)) ++ closing :: rest)
      have value := firstRereads.value comma room
      have goesOn := othersReread room (first.regroup :: known) closing rest isClosing
        (List.cons_ne_nil _ _)
      have more : Expression.allTokens (second :: others) ≠ [] := List.cons_ne_nil _ _
      rw [Rule.read_moreItems, Expression.allTokens, intercalate_comma_cons _ more]
      refine (value.weaken fun fits => ⟨(Nat.max_le.mp fits.1).1, fits.2.1⟩).andThen_ok ?_
      simp only [Token.bare_kind, if_true]
      rw [List.reverse_cons, List.append_assoc] at goesOn
      exact goesOn.weaken fun fits => ⟨(Nat.max_le.mp fits.1).2, fits.2.2⟩

/-! ## Statements -/

/-- A line break is skipped. -/
theorem skipNewlines_newline (rest : List Token) :
    skipNewlines (.newline :: rest) = skipNewlines rest :=
  rfl

/-- Nothing else is skipped. -/
theorem skipNewlines_other {first : Token} (other : first.kind ≠ .newline) (rest : List Token) :
    skipNewlines (first :: rest) = first :: rest := by
  rw [skipNewlines, List.dropWhile_cons, if_neg (by simpa using other)]

section Statements

variable {vocabulary : Vocabulary} {value target test : Expression} {body : Block}

/-- A kind of token that a statement may start with. -/
def statementKinds : List TokenKind :=
  [TokenKind.returnKeyword, .variableKeyword, .ifKeyword, .whileKeyword, .forKeyword] ++
    startingKinds

/-- A statement begins with a token of a known kind, and mostly not with that of another rule. -/
theorem statement_tokens_start
    {node : Statement}
    (isOver : node.Over vocabulary) :
    ∃ first more, node.tokens = first :: more ∧ first.kind ∈ statementKinds ∧
      (node.isReturn = false → (Declaration.statement node).leadsWithClosure = false →
        first.kind ≠ .returnKeyword ∧ first.kind ≠ .functionKeyword) := by
  have noReturn : ∀ kind ∈ startingKinds, kind ≠ .returnKeyword := by
    decide
  cases node with
  | returned value first =>
      exact ⟨_, _, rfl, by decide, nofun⟩
  | declared name value first =>
      exact ⟨_, _, rfl, by decide, fun _ _ => ⟨nofun, nofun⟩⟩
  | assigned target value =>
      obtain ⟨first, more, starts, listed, leads⟩ := tokens_start isOver.1
      refine ⟨first, more ++ .equal :: value.tokens, ?_, List.mem_append_right _ listed, ?_⟩
      · rw [Statement.tokens, starts, List.cons_append]
      · exact fun _ noClosure => ⟨noReturn _ listed, leads noClosure⟩
  | evaluated value =>
      obtain ⟨first, more, starts, listed, leads⟩ := tokens_start isOver
      refine ⟨first, more, ?_, List.mem_append_right _ listed, ?_⟩
      · rw [Statement.tokens, starts]
      · exact fun _ noClosure => ⟨noReturn _ listed, leads noClosure⟩
  | conditional test consequent alternative first =>
      exact ⟨_, _, rfl, by decide, fun _ _ => ⟨nofun, nofun⟩⟩
  | whileLoop test body first =>
      exact ⟨_, _, rfl, by decide, fun _ _ => ⟨nofun, nofun⟩⟩
  | forLoop initial test increment body first =>
      exact ⟨_, _, rfl, by decide, fun _ _ => ⟨nofun, nofun⟩⟩
  | unknown kind span =>
      exact isOver.elim
  | missing =>
      exact isOver.elim

/-- A statement that starts with an expression is read as such. -/
theorem read_statement_simple
    (isOver : value.Over vocabulary)
    (room : Nat)
    (rest : List Token) :
    Rule.statement.read final room (value.tokens ++ rest) =
      Rule.simple.read final room (value.tokens ++ rest) := by
  obtain ⟨first, more, starts, listed, -⟩ := tokens_start isOver
  have others : ∀ kind ∈ startingKinds, kind ≠ .returnKeyword ∧ kind ≠ .variableKeyword ∧
      kind ≠ .forKeyword ∧ kind ≠ .whileKeyword ∧ kind ≠ .ifKeyword := by
    decide
  obtain ⟨noReturn, noVariable, noFor, noWhile, noIf⟩ := others _ listed
  rw [starts, List.cons_append, Rule.read_statement_cons, if_neg noReturn, if_neg noVariable,
    if_neg noFor, if_neg noWhile, if_neg noIf]

/-- A return is read behind its word. -/
theorem rereads_returned
    (rereads : ExpressionRereads final value)
    (first : Position) :
    StatementRereads final (.returned value first) := by
  intro room rest before
  have inner := rereads.value (before.of_subset (by decide)) room
  rw [Statement.tokens, List.cons_append, Rule.read_statement_cons, if_pos (Token.bare_kind _ _)]
  exact Reads.andThen_ok inner (.of_eq rfl)

/-- A declared variable is read behind its word. -/
theorem rereads_declared
    (rereads : ExpressionRereads final value)
    (name : Identifier)
    (first : Position) :
    StatementRereads final (.declared name value first) := by
  intro room rest before
  have inner := rereads.value (before.of_subset (by decide)) room
  rw [Statement.tokens, List.cons_append, List.cons_append, List.cons_append,
    Rule.read_statement_cons, if_neg nofun, if_pos (Token.bare_kind _ _), Rule.read_variableRest,
    read_expectedName final room rfl, Parsed.andThen_ok, read_expected final room rfl,
    Parsed.andThen_ok]
  exact Reads.andThen_ok inner (.of_eq rfl)

/-- An expression is read as a statement if no equal sign follows. -/
theorem rereads_evaluated
    (isOver : value.Over vocabulary)
    (rereads : ExpressionRereads final value) :
    StatementRereads final (.evaluated value) := by
  intro room rest before
  have inner := rereads.value (before.of_subset (by decide)) room
  rw [Statement.tokens, read_statement_simple isOver, Rule.read_simple]
  refine Reads.andThen_ok inner ?_
  cases rest with
  | nil =>
      exact .of_eq rfl
  | cons token rest =>
      have noEqual : ∀ kind ∈ endingKinds, kind ≠ .equal := by
        decide
      simp only
      rw [if_neg (noEqual _ (before token rfl))]
      exact .of_eq rfl

/-- An assigned value is read behind its target and the equal sign. -/
theorem rereads_assigned
    (isOver : target.Over vocabulary)
    (targetRereads : ExpressionRereads final target)
    (rereads : ExpressionRereads final value) :
    StatementRereads final (.assigned target value) := by
  intro room rest before
  have equal := before_cons (show Token.equal.kind ∈ haltingKinds by decide) (value.tokens ++ rest)
  have first := targetRereads.value equal room
  have second := rereads.value (before.of_subset (by decide)) room
  rw [Statement.tokens, List.append_assoc, read_statement_simple isOver, Rule.read_simple]
  refine (first.weaken fun fits => ⟨(Nat.max_le.mp fits.1).1, fits.2.1⟩).andThen_ok ?_
  simp only [Token.bare_kind, if_true]
  exact (second.weaken fun fits => ⟨(Nat.max_le.mp fits.1).2, fits.2.2⟩).andThen_ok (.of_eq rfl)

/-- A statement goes on the statements of a block. -/
theorem statement_tokens_go_on
    {node : Statement}
    (isOver : node.Over vocabulary) :
    ∃ first more, node.tokens = first :: more ∧ first.kind ≠ .newline ∧
      endsStatements first = false := by
  obtain ⟨first, more, starts, listed, -⟩ := statement_tokens_start isOver
  have noEnd : ∀ kind ∈ statementKinds, kind ≠ .newline ∧ kind ≠ .closeKeyword ∧
      kind ≠ .braceClose := by
    decide
  obtain ⟨noNewline, noClose, noBrace⟩ := noEnd _ listed
  exact ⟨first, more, starts, noNewline, by simp [endsStatements, noClose, noBrace]⟩

/-- Behind a statement of a block there is a line break. -/
theorem before_allTokens (others : List Statement) (rest : List Token) :
    Before endingKinds (Statement.allTokens others ++ .newline :: .closing :: rest) := by
  cases others with
  | nil => exact before_cons (by decide) _
  | cons second others => exact before_cons (by decide) _

/-- No statements are read as no statements. -/
theorem statementsReread_nil : StatementsReread final [] := by
  intro room known rest
  refine .of_eq ?_
  rw [Statement.allTokens, List.nil_append, skipNewlines_newline,
    skipNewlines_other (show Token.closing.kind ≠ .newline from nofun),
    Rule.read_statements_cons, if_pos (show endsStatements .closing = true from rfl),
    Statement.regroupAll, List.append_nil]

/-- A further statement is read behind a line break. -/
theorem statementsReread_cons
    {first : Statement}
    {others : List Statement}
    (isOver : first.Over vocabulary)
    (firstRereads : StatementRereads final first)
    (othersReread : StatementsReread final others) :
    StatementsReread final (first :: others) := by
  intro room known rest
  obtain ⟨start, more, starts, noNewline, goesOn⟩ := statement_tokens_go_on isOver
  have before := before_allTokens others rest
  have statement := firstRereads room _ before
  have remaining := othersReread room (first.regroup :: known) rest
  rw [Statement.allTokens, List.cons_append, List.cons_append, List.append_assoc,
    skipNewlines_newline]
  rw [starts, List.cons_append] at statement ⊢
  rw [skipNewlines_other noNewline, Rule.read_statements_cons, goesOn, if_neg Bool.false_ne_true]
  refine (statement.weaken fun fits => ⟨(Nat.max_le.mp fits.1).1, fits.2.1⟩).andThen_ok ?_
  rw [List.reverse_cons, List.append_assoc] at remaining
  exact remaining.weaken fun fits => ⟨(Nat.max_le.mp fits.1).2, fits.2.2⟩

/-- A block is read from its word to its closing word. -/
theorem rereads_block
    {nodes : List Statement}
    (rereads : StatementsReread final nodes)
    (span : Span) :
    BlockRereads final (.of nodes span) := by
  intro room rest
  have inner := rereads room [] rest
  rw [Block.tokens, List.cons_append, List.cons_append, List.append_assoc, Rule.read_block,
    read_expected final room rfl, Parsed.andThen_ok, Rule.read_blockRest]
  refine Reads.andThen_ok inner ?_
  rw [read_expected final room rfl]
  exact .of_eq rfl

/-- The body of a loop is read like any other block, since it stands between the words. -/
theorem read_loopBlock_tokens
    (isOver : body.Over vocabulary)
    (room : Nat)
    (rest : List Token) :
    Rule.loopBlock.read final room (body.tokens ++ rest) =
      Rule.block.read final room (body.tokens ++ rest) := by
  cases body with
  | missing =>
      exact isOver.elim
  | of nodes span =>
      rw [Block.tokens, List.cons_append, List.cons_append, Rule.read_loopBlock_cons,
        if_neg nofun, if_pos (Token.bare_kind _ _), Rule.read_block,
        read_expected final room rfl, Parsed.andThen_ok]

/-- A condition is read between its parentheses. -/
theorem ExpressionRereads.condition
    (rereads : ExpressionRereads final test)
    (room : Nat)
    (rest : List Token) :
    Reads (ValueFits room test)
      (Rule.condition.read final room (.parenOpen :: (test.tokens ++ .parenClose :: rest)))
      (.ok (test.regroup, rest)) := by
  have inner := rereads.value
    (before_cons (show Token.parenClose.kind ∈ haltingKinds by decide) rest) room
  rw [Rule.read_condition, read_expected final room rfl, Parsed.andThen_ok]
  refine inner.andThen_ok ?_
  rw [read_expected final room rfl]
  exact .of_eq rfl

/-- A `while` loop is read as its condition and its body. -/
theorem rereads_whileLoop
    (testRereads : ExpressionRereads final test)
    (isOver : body.Over vocabulary)
    (rereads : BlockRereads final body)
    (first : Position) :
    StatementRereads final (.whileLoop test body first) := by
  intro room rest _
  have condition := testRereads.condition room (body.tokens ++ rest)
  have inner := rereads room rest
  rw [← read_loopBlock_tokens isOver] at inner
  rw [Statement.tokens, List.append_assoc, List.cons_append, List.cons_append,
    Rule.read_statement_cons, if_neg nofun, if_neg nofun, if_neg nofun,
    if_pos (Token.bare_kind _ _), Rule.read_whileRest]
  refine (condition.weaken fun fits => ⟨(Nat.max_le.mp fits.1).1, fits.2.1⟩).andThen_ok ?_
  exact (inner.weaken fun fits => ⟨(Nat.max_le.mp fits.1).2, fits.2.2⟩).andThen_ok (.of_eq rfl)

/-- A conditional is read with its second block or without, as it was written. -/
theorem rereads_conditional
    {consequent alternative : Block}
    (testRereads : ExpressionRereads final test)
    (rereads : BlockRereads final consequent)
    (otherRereads : alternative = .missing ∨ BlockRereads final alternative)
    (first : Position) :
    StatementRereads final (.conditional test consequent alternative first) := by
  intro room rest before
  cases alternative with
  | missing =>
      have condition := testRereads.condition room (consequent.tokens ++ rest)
      have body := rereads room rest
      rw [Statement.tokens, List.append_nil, List.append_assoc, List.cons_append, List.cons_append,
        Rule.read_statement_cons, if_neg (by rintro ⟨⟩), if_neg (by rintro ⟨⟩),
        if_neg (by rintro ⟨⟩), if_neg (by rintro ⟨⟩), if_pos (Token.bare_kind _ _),
        Rule.read_ifRest]
      refine (condition.weaken fun fits => ⟨(Nat.max_le.mp fits.1).1, fits.2.1⟩).andThen_ok ?_
      refine (body.weaken fun fits =>
        ⟨(Nat.max_le.mp (Nat.max_le.mp fits.1).2).1, fits.2.2.1⟩).andThen_ok ?_
      cases rest with
      | nil =>
          exact .of_eq rfl
      | cons token rest =>
          have noElse : ∀ kind ∈ endingKinds, kind ≠ .elseKeyword := by
            decide
          simp only
          rw [if_neg (noElse _ (before token rfl))]
          exact .of_eq rfl
  | of nodes span =>
      have alternativeRereads := otherRereads.resolve_left (by rintro ⟨⟩)
      have condition := testRereads.condition room (consequent.tokens ++
        .bare .elseKeyword "sinon" :: ((Block.of nodes span).tokens ++ rest))
      have body := rereads room
        (.bare .elseKeyword "sinon" :: ((Block.of nodes span).tokens ++ rest))
      have other := alternativeRereads room rest
      rw [Statement.tokens_alternative, List.append_assoc, List.append_assoc, List.cons_append,
        List.cons_append, List.cons_append, Rule.read_statement_cons, if_neg (by rintro ⟨⟩),
        if_neg (by rintro ⟨⟩), if_neg (by rintro ⟨⟩), if_neg (by rintro ⟨⟩),
        if_pos (Token.bare_kind _ _), Rule.read_ifRest]
      refine (condition.weaken fun fits => ⟨(Nat.max_le.mp fits.1).1, fits.2.1⟩).andThen_ok ?_
      refine (body.weaken fun fits =>
        ⟨(Nat.max_le.mp (Nat.max_le.mp fits.1).2).1, fits.2.2.1⟩).andThen_ok ?_
      simp only [Token.bare_kind, if_true]
      exact (other.weaken fun fits =>
        ⟨(Nat.max_le.mp (Nat.max_le.mp fits.1).2).2, fits.2.2.2⟩).andThen_ok (.of_eq rfl)

/-- A clause that starts with an expression is read as such. -/
theorem read_clause_simple
    (isOver : value.Over vocabulary)
    {closing : TokenKind}
    (isClosing : closing ∈ endingKinds)
    (room : Nat)
    (rest : List Token) :
    (Rule.clause closing).read final room (value.tokens ++ rest) =
      Rule.simple.read final room (value.tokens ++ rest) := by
  obtain ⟨first, more, starts, listed, -⟩ := tokens_start isOver
  have others : ∀ kind ∈ startingKinds, kind ∉ endingKinds ∧ kind ≠ .variableKeyword := by
    decide
  obtain ⟨noEnd, noVariable⟩ := others _ listed
  have noClosing : first.kind ≠ closing := fun same => noEnd (same ▸ isClosing)
  rw [starts, List.cons_append, Rule.read_clause_cons, if_neg noClosing, if_neg noVariable]

/-- A clause in the head of a loop is read like a statement. -/
theorem read_clause_tokens
    {node : Statement}
    (isClause : node.isClause = true)
    (isOver : node.Over vocabulary)
    {closing : TokenKind}
    (isClosing : closing ∈ endingKinds)
    (room : Nat)
    (rest : List Token) :
    (Rule.clause closing).read final room (node.tokens ++ rest) =
      Rule.statement.read final room (node.tokens ++ rest) := by
  cases node with
  | declared name value first =>
      have noClosing : (Token.bare .variableKeyword "variable").kind ≠ closing := by
        rintro rfl
        exact absurd isClosing (by decide)
      rw [Statement.tokens, List.cons_append, Rule.read_clause_cons, if_neg noClosing,
        if_pos (Token.bare_kind _ _), Rule.read_statement_cons, if_neg nofun,
        if_pos (Token.bare_kind _ _)]
  | assigned target value =>
      rw [Statement.tokens, List.append_assoc, read_clause_simple isOver.1 isClosing,
        read_statement_simple isOver.1]
  | evaluated value =>
      rw [Statement.tokens, read_clause_simple isOver isClosing, read_statement_simple isOver]
  | _ =>
      cases isClause

/-- A clause that may be left out. -/
theorem rereads_clause
    {node : Statement}
    (allowed : node = .missing ∨
      node.isClause = true ∧ node.Over vocabulary ∧ StatementRereads final node)
    (closing : Expectation)
    (isClosing : closing.kind ∈ endingKinds)
    (literal : String)
    (room : Nat)
    (rest : List Token) :
    Reads (StatementFits room node)
      ((Rule.clause closing.kind).read final room
        (node.tokens ++ .bare closing.kind literal :: rest))
      (.ok (node.regroup, .bare closing.kind literal :: rest)) := by
  rcases allowed with rfl | ⟨isClause, isOver, rereads⟩
  · refine .of_eq ?_
    rw [Statement.tokens, List.nil_append, Rule.read_clause_cons, if_pos (Token.bare_kind _ _)]
    rfl
  · rw [read_clause_tokens isClause isOver isClosing]
    exact rereads room _ (before_cons isClosing rest)

/-- The test of a loop that may be left out. -/
theorem rereads_optionalTest
    (allowed : test = .missing ∨ test.Over vocabulary ∧ ExpressionRereads final test)
    (room : Nat)
    (rest : List Token) :
    Reads ((if test.isPresent then test.nesting + 1 else 0) ≤ room ∧
        test.Everywhere (·.constructsSelf = false))
      (Rule.optionalTest.read final room (test.tokens ++ .semicolon :: rest))
      (.ok (test.regroup, .semicolon :: rest)) := by
  rcases allowed with rfl | ⟨isOver, rereads⟩
  · exact .of_eq (Rule.read_optionalTest final room _)
  · have inner := rereads.value
      (before_cons (show Token.semicolon.kind ∈ haltingKinds by decide) rest) room
    rw [Rule.read_optionalTest, if_neg (current_tokens_ne isOver (by decide) final _),
      Expression.isPresent_of_over isOver]
    exact inner

/-- A `for` loop is read with the clauses it has, between semicolons. -/
theorem rereads_forLoop
    {initial increment : Statement}
    (initialAllowed : initial = .missing ∨
      initial.isClause = true ∧ initial.Over vocabulary ∧ StatementRereads final initial)
    (testAllowed : test = .missing ∨ test.Over vocabulary ∧ ExpressionRereads final test)
    (incrementAllowed : increment = .missing ∨
      increment.isClause = true ∧ increment.Over vocabulary ∧ StatementRereads final increment)
    (isOver : body.Over vocabulary)
    (rereads : BlockRereads final body)
    (first : Position) :
    StatementRereads final (.forLoop initial test increment body first) := by
  intro room rest _
  have inner := rereads room rest
  rw [← read_loopBlock_tokens isOver] at inner
  have third := rereads_clause incrementAllowed .parenClose (by decide) ")" room
    (body.tokens ++ rest)
  have second := rereads_optionalTest testAllowed room
    (increment.tokens ++ .parenClose :: (body.tokens ++ rest))
  have opening := rereads_clause initialAllowed .semicolon (by decide) ";" room
    (test.tokens ++ .semicolon :: (increment.tokens ++ .parenClose :: (body.tokens ++ rest)))
  simp only [Statement.tokens, List.append_assoc, List.cons_append]
  rw [Rule.read_statement_cons, if_neg nofun, if_neg nofun, if_pos (Token.bare_kind _ _),
    Rule.read_forRest, read_expected final room rfl, Parsed.andThen_ok]
  refine (opening.weaken fun fits =>
    ⟨(Nat.max_le.mp (Nat.max_le.mp fits.1).1).1, fits.2.1⟩).andThen_ok ?_
  rw [read_expected final room rfl, Parsed.andThen_ok]
  refine (second.weaken fun fits =>
    ⟨(Nat.max_le.mp (Nat.max_le.mp fits.1).1).2, fits.2.2.1⟩).andThen_ok ?_
  rw [read_expected final room rfl, Parsed.andThen_ok]
  refine (third.weaken fun fits =>
    ⟨(Nat.max_le.mp (Nat.max_le.mp fits.1).2).1, fits.2.2.2.1⟩).andThen_ok ?_
  rw [read_expected final room rfl, Parsed.andThen_ok]
  exact (inner.weaken fun fits =>
    ⟨(Nat.max_le.mp (Nat.max_le.mp fits.1).2).2, fits.2.2.2.2⟩).andThen_ok (.of_eq rfl)

end Statements

/-! ## All trees -/

section Induction

variable {vocabulary : Vocabulary}

mutual

/-- The grammar reads the tokens of an expression as its text says. -/
theorem expression_rereads (lexical : vocabulary.IsLexical) :
    ∀ {value : Expression}, value.Over vocabulary → ExpressionRereads final value
  | .bool value span, _ => by
      have isLeaf : leaf? (.bare .boolean (if value then "vrai" else "faux")) =
          some (.bool value .zero) := by
        cases value with
        | true => rfl
        | false => rfl
      exact rereads_leaf rfl isLeaf fun _ => rfl
  | .number literal value span, known => by
      have isLeaf : leaf? (.bare .number literal) = some (.number literal value .zero) := by
        rw [(lexical.number known).2]
        rfl
      exact rereads_leaf rfl isLeaf fun _ => rfl
  | .string value span, _ => by
      have isLeaf : leaf? (.bare .string value) = some (.string value .zero) :=
        rfl
      exact rereads_leaf rfl isLeaf fun _ => rfl
  | .array values span, allOver => rereads_array allOver (items_reread lexical allOver) span
  | .identifier name, _ => rereads_identifier name
  | .invocation callee arguments last, ⟨calleeOver, allOver⟩ =>
      rereads_invocation (expression_rereads lexical calleeOver) allOver
        (items_reread lexical allOver) last
  | .member target name arrow, ⟨targetOver, _⟩ =>
      rereads_member (expression_rereads lexical targetOver) name arrow
  | .index target position last, ⟨targetOver, positionOver⟩ =>
      rereads_index (expression_rereads lexical targetOver)
        (expression_rereads lexical positionOver) last
  | .binary operator left right, ⟨listed, leftOver, rightOver⟩ =>
      rereads_binary (lexical.operator listed) (expression_rereads lexical leftOver)
        (expression_rereads lexical rightOver)
  | .closure parameters body first, ⟨_, bodyOver⟩ =>
      rereads_closure (block_rereads lexical bodyOver) parameters first
  | .construction callee arguments span, ⟨isClass, allOver⟩ =>
      rereads_construction isClass allOver (items_reread lexical allOver) span
  | .rawCode code span, known => rereads_rawCode (lexical.code known) span

/-- All items over a lexical vocabulary are read as what their texts stand for. -/
theorem items_reread (lexical : vocabulary.IsLexical) :
    ∀ {values : List Expression}, Expression.AllOver vocabulary values → ItemsReread final values
  | [], _ => itemsReread_nil
  | _ :: _, ⟨firstOver, othersOver⟩ =>
      itemsReread_cons (expression_rereads lexical firstOver) (items_reread lexical othersOver)

theorem block_rereads (lexical : vocabulary.IsLexical) :
    ∀ {block : Block}, block.Over vocabulary → BlockRereads final block
  | .of _ span, allOver => rereads_block (statements_reread lexical allOver) span

theorem statement_rereads (lexical : vocabulary.IsLexical) :
    ∀ {node : Statement}, node.Over vocabulary → StatementRereads final node
  | .returned value first, valueOver =>
      rereads_returned (expression_rereads lexical valueOver) first
  | .declared name value first, ⟨_, valueOver⟩ =>
      rereads_declared (expression_rereads lexical valueOver) name first
  | .assigned target value, ⟨targetOver, valueOver⟩ =>
      rereads_assigned targetOver (expression_rereads lexical targetOver)
        (expression_rereads lexical valueOver)
  | .evaluated value, valueOver =>
      rereads_evaluated valueOver (expression_rereads lexical valueOver)
  | .conditional test consequent alternative first, ⟨testOver, bodyOver, otherOver⟩ => by
      refine rereads_conditional (expression_rereads lexical testOver)
        (block_rereads lexical bodyOver) ?_ first
      exact otherOver.imp_right fun isOver => block_rereads lexical isOver
  | .whileLoop test body first, ⟨testOver, bodyOver⟩ =>
      rereads_whileLoop (expression_rereads lexical testOver) bodyOver
        (block_rereads lexical bodyOver) first
  | .forLoop initial test increment body first,
      ⟨initialOver, testOver, incrementOver, bodyOver⟩ => by
      refine rereads_forLoop ?_ ?_ ?_ bodyOver (block_rereads lexical bodyOver) first
      · exact initialOver.imp_right fun ⟨isClause, isOver⟩ =>
          ⟨isClause, isOver, statement_rereads lexical isOver⟩
      · exact testOver.imp_right fun isOver => ⟨isOver, expression_rereads lexical isOver⟩
      · exact incrementOver.imp_right fun ⟨isClause, isOver⟩ =>
          ⟨isClause, isOver, statement_rereads lexical isOver⟩

theorem statements_reread (lexical : vocabulary.IsLexical) :
    ∀ {nodes : List Statement}, Statement.AllOver vocabulary nodes → StatementsReread final nodes
  | [], _ => statementsReread_nil
  | _ :: _, ⟨firstOver, othersOver⟩ =>
      statementsReread_cons firstOver (statement_rereads lexical firstOver)
        (statements_reread lexical othersOver)

end

end Induction

end Trees

end FrenchNim.Grammar
