import FrenchNim.Grammar.Program

namespace FrenchNim.Grammar

/-!
# The rules of the grammar as data

Every rule of the grammar carries the proof that it leaves fewer tokens. This
module forgets these proofs: a rule is a value of `Rule`, what it makes of a
token list is a plain pair of a result and the remaining tokens, and each rule
has one equation that says which rules it calls. All later statements about the
grammar are proved from these equations, by one induction over all rules.
-/

/-- What a rule makes of a token list: a result with the tokens behind it, or an error. -/
abbrev Parsed (α : Type) := Except GrammarError (α × List Token)

/-- The result and the remaining tokens of a rule that reads at least one token. -/
abbrev progressPair {tokens : List Token} (progress : Progress α tokens) : α × List Token :=
  (progress.value, progress.rest)

/-- The result and the remaining tokens of a rule that may read nothing. -/
abbrev advancePair {tokens : List Token} (advance : Advance α tokens) : α × List Token :=
  (advance.value, advance.rest)

/-- Forget everything about a successful reading but what the view shows. -/
def seen (view : γ → α × List Token) : Except GrammarError γ → Parsed α
  | .ok found => .ok (view found)
  | .error error => .error error

namespace Parsed

/-- Go on with the result and the remaining tokens, unless there is an error. -/
def andThen (first : Parsed α) (next : α → List Token → Parsed β) : Parsed β :=
  match first with
  | .ok (value, rest) => next value rest
  | .error error => .error error

/-- Behind a reading that found a value, the chain goes on with that value. -/
@[simp] theorem andThen_ok
    (value : α)
    (rest : List Token)
    (next : α → List Token → Parsed β) :
    andThen (.ok (value, rest)) next = next value rest :=
  rfl

/-- An error ends the chain. -/
@[simp] theorem andThen_error
    (error : GrammarError)
    (next : α → List Token → Parsed β) :
    andThen (.error error) next = .error error :=
  rfl

/-- Chains of rules can be grouped either way. -/
theorem andThen_assoc
    (first : Parsed α)
    (second : α → List Token → Parsed β)
    (third : β → List Token → Parsed γ) :
    (first.andThen second).andThen third =
      first.andThen fun value rest => (second value rest).andThen third := by
  rcases first with error | ⟨value, rest⟩
  · rfl
  · rfl

end Parsed

/-- The views of a sequence of two readings compose. -/
theorem seen_bind
    (view : γ → α × List Token)
    {lastView : δ → β × List Token}
    (first : Except GrammarError γ)
    {second : γ → Except GrammarError δ}
    {next : α → List Token → Parsed β}
    (agree : ∀ found,
      seen lastView (second found) = next (view found).1 (view found).2) :
    seen lastView (first >>= second) = (seen view first).andThen next := by
  cases first with
  | error error =>
      rfl
  | ok found =>
      exact agree found

/-- Changing a reading without changing what is seen of it changes nothing. -/
theorem seen_return
    (view : γ → α × List Token)
    {lastView : δ → α × List Token}
    (reading : Except GrammarError γ)
    {change : γ → δ}
    (agree : ∀ found, lastView (change found) = view found) :
    seen lastView (reading >>= fun found => pure (change found)) = seen view reading := by
  cases reading with
  | error error =>
      rfl
  | ok found =>
      exact congrArg Except.ok (agree found)

/-- A view that succeeds comes from a reading that succeeds. -/
theorem seen_eq_ok
    {view : γ → α × List Token}
    {reading : Except GrammarError γ}
    {value : α}
    {rest : List Token}
    (found : seen view reading = .ok (value, rest)) :
    ∃ whole, reading = .ok whole ∧ view whole = (value, rest) := by
  cases reading with
  | error error =>
      cases found
  | ok whole =>
      exact ⟨whole, rfl, Except.ok.inj found⟩

/-- A rule of the grammar with what it is told besides the tokens. -/
inductive Rule : Type → Type where
  | expect (expectation : Expectation) : Rule Token
  | name (expectation : Expectation) : Rule Identifier
  | moreParameters (read : List Identifier) : Rule (List Identifier)
  | parameters : Rule (List Identifier)
  | className (callee : Expression) : Rule Expression
  | rawCode (start : Token) : Rule Expression
  | expression : Rule Expression
  | moreTerms (left : Expression) : Rule Expression
  | comparison : Rule Expression
  | moreComparisons (left : Expression) : Rule Expression
  | chain : Rule Expression
  | moreLinks (target : Expression) : Rule Expression
  | items (closing : Expectation) : Rule (List Expression × Token)
  | moreItems (read : List Expression) : Rule (List Expression)
  | primary : Rule Expression
  | procedure : Rule (List Identifier × Block)
  | block : Rule Block
  | loopBlock : Rule Block
  | blockRest (opening : Token) (closing : Expectation) : Rule Block
  | statements (read : List Statement) : Rule (List Statement)
  | statement : Rule Statement
  | simple : Rule Statement
  | variableRest (start : Token) : Rule Statement
  | condition : Rule Expression
  | ifRest (start : Token) : Rule Statement
  | whileRest (start : Token) : Rule Statement
  | clause (closing : TokenKind) : Rule Statement
  | optionalTest : Rule Expression
  | forRest (start : Token) : Rule Statement
  | importedFrom : Rule Token
  | importRest (start : Token) : Rule Declaration
  | members (constructor? : Option Constructor) (methods : List Method) :
      Rule (Option Constructor × List Method)
  | classRest (start : Token) : Rule Declaration
  | typeRest (start : Token) : Rule Declaration
  | constantRest (start : Token) : Rule Declaration
  | functionRest (start : Token) : Rule Declaration
  | declaration : Rule Declaration

namespace Rule

/-- What a rule makes of a token list. -/
def read (final : Token) (room : Nat) (tokens : List Token) : Rule α → Parsed α
  | .expect expectation => seen progressPair (Grammar.expect final expectation tokens)
  | .name expectation => seen progressPair (expectName final expectation tokens)
  | .moreParameters read => seen progressPair (Grammar.moreParameters final read tokens)
  | .parameters => seen progressPair (Grammar.parameters final tokens)
  | .className callee => seen advancePair (Grammar.className final callee tokens)
  | .rawCode start => seen progressPair (Grammar.rawCode final start tokens)
  | .expression => seen progressPair (Grammar.expression final room tokens)
  | .moreTerms left => seen advancePair (Grammar.moreTerms final room left tokens)
  | .comparison => seen progressPair (Grammar.comparison final room tokens)
  | .moreComparisons left => seen advancePair (Grammar.moreComparisons final room left tokens)
  | .chain => seen progressPair (Grammar.chain final room tokens)
  | .moreLinks target => seen advancePair (Grammar.moreLinks final room target tokens)
  | .items closing => seen progressPair (Grammar.items final room closing tokens)
  | .moreItems read => seen progressPair (Grammar.moreItems final room read tokens)
  | .primary => seen progressPair (Grammar.primary final room tokens)
  | .procedure => seen progressPair (Grammar.procedure final room tokens)
  | .block => seen progressPair (Grammar.block final room tokens)
  | .loopBlock => seen progressPair (Grammar.loopBlock final room tokens)
  | .blockRest opening closing =>
      seen progressPair (Grammar.blockRest final room opening closing tokens)
  | .statements read => seen advancePair (Grammar.statements final room read tokens)
  | .statement => seen progressPair (Grammar.statement final room tokens)
  | .simple => seen progressPair (Grammar.simple final room tokens)
  | .variableRest start => seen progressPair (Grammar.variableRest final room start tokens)
  | .condition => seen progressPair (Grammar.condition final room tokens)
  | .ifRest start => seen progressPair (Grammar.ifRest final room start tokens)
  | .whileRest start => seen progressPair (Grammar.whileRest final room start tokens)
  | .clause closing => seen advancePair (Grammar.clause final room closing tokens)
  | .optionalTest => seen advancePair (Grammar.optionalTest final room tokens)
  | .forRest start => seen progressPair (Grammar.forRest final room start tokens)
  | .importedFrom => seen progressPair (Grammar.importedFrom final tokens)
  | .importRest start => seen progressPair (Grammar.importRest final start tokens)
  | .members constructor? methods =>
      seen advancePair (Grammar.members final room constructor? methods tokens)
  | .classRest start => seen progressPair (Grammar.classRest final room start tokens)
  | .typeRest start => seen progressPair (Grammar.typeRest final start tokens)
  | .constantRest start => seen progressPair (Grammar.constantRest final room start tokens)
  | .functionRest start => seen progressPair (Grammar.functionRest final room start tokens)
  | .declaration => seen progressPair (Grammar.declaration final room tokens)

/-! ## What each rule calls -/

section Equations

variable (final : Token) (room : Nat)

-- The table of rules is opened here once, and not again by each of the proofs below.
attribute [local simp] read

/-- Without a token left, the one that was expected is missed at the end of the code. -/
@[simp] theorem read_expect_nil (expectation : Expectation) :
    (expect expectation).read final room [] = .error (.expected expectation final) :=
  rfl

/-- An expected token is read if it is the next one, and is otherwise missed there. -/
theorem read_expect_cons
    (expectation : Expectation)
    (token : Token)
    (behind : List Token) :
    (expect expectation).read final room (token :: behind) =
      if token.kind = expectation.kind then .ok (token, behind)
      else .error (.expected expectation token) := by
  simp only [read, Grammar.expect]
  split
  · rfl
  · rfl

/-- A name is an expected identifier. -/
theorem read_name (expectation : Expectation) (tokens : List Token) :
    (name expectation).read final room tokens =
      ((expect expectation).read final room tokens).andThen fun token rest =>
        .ok (identifierOf token, rest) :=
  seen_bind progressPair _ fun _ => rfl

/-- The parameters go on as long as a comma stands behind the last name. -/
theorem read_moreParameters (known : List Identifier) (tokens : List Token) :
    (moreParameters known).read final room tokens =
      ((name .parameterName).read final room tokens).andThen fun parameter rest =>
        match rest with
        | [] => .ok ((parameter :: known).reverse, [])
        | comma :: behind =>
            if comma.kind = .comma then
              (moreParameters (parameter :: known)).read final room behind
            else
              .ok ((parameter :: known).reverse, comma :: behind) := by
  simp only [read]
  rw [Grammar.moreParameters]
  refine seen_bind progressPair _ fun found => ?_
  obtain ⟨parameter, rest, shorter⟩ := found
  cases rest with
  | nil =>
      rfl
  | cons comma behind =>
      simp only
      split
      · exact seen_return progressPair _ fun _ => rfl
      · rfl

/-- The parameter list of a procedure stands in parentheses and may be empty. -/
theorem read_parameters (tokens : List Token) :
    parameters.read final room tokens =
      ((expect .parenOpen).read final room tokens).andThen fun _ inner =>
        if (current final inner).kind = .parenClose then
          ((expect .parenClose).read final room inner).andThen fun _ rest => .ok ([], rest)
        else
          ((moreParameters []).read final room inner).andThen fun names behind =>
            ((expect .parenClose).read final room behind).andThen fun _ rest =>
              .ok (names, rest) := by
  refine seen_bind progressPair _ fun found => ?_
  obtain ⟨_, inner, opened⟩ := found
  simp only
  by_cases closed : (current final inner).kind = .parenClose
  · rw [if_pos closed, if_pos closed]
    exact seen_bind progressPair _ fun _ => rfl
  · rw [if_neg closed, if_neg closed]
    refine seen_bind progressPair _ fun _ => ?_
    exact seen_bind progressPair _ fun _ => rfl

/-- The name of a class ends with the tokens. -/
@[simp] theorem read_className_nil (callee : Expression) :
    (className callee).read final room [] = .ok (callee, []) := by
  simp only [read]
  rw [Grammar.className]
  rfl

/-- The name of a class goes on behind a dot, with the property that follows. -/
theorem read_className_cons (callee : Expression) (dot : Token) (behind : List Token) :
    (className callee).read final room (dot :: behind) =
      if dot.kind = .dot then
        ((name .propertyName).read final room behind).andThen fun property rest =>
          (className (.member callee property false)).read final room rest
      else
        .ok (callee, dot :: behind) := by
  simp only [read]
  rw [Grammar.className]
  split
  · refine seen_bind progressPair _ fun _ => ?_
    exact seen_return advancePair _ fun _ => rfl
  · rfl

/-- Embedded code is captured behind the word and the parenthesis that open it. -/
theorem read_rawCode (start : Token) (tokens : List Token) :
    (rawCode start).read final room tokens =
      ((expect .nimWord).read final room tokens).andThen fun _ behind =>
        ((expect .parenOpen).read final room behind).andThen fun opening inner =>
          let captured := RawCode.capture opening inner
          .ok (.rawCode captured.code ⟨start.span.first, captured.last.span.last⟩,
            captured.rest) := by
  refine seen_bind progressPair _ fun _ => ?_
  exact seen_bind progressPair _ fun _ => rfl

/-- No room is left for an expression: it is nested too deeply where it begins. -/
@[simp] theorem read_expression_zero (tokens : List Token) :
    expression.read final 0 tokens = .error (.tooDeep (current final tokens).span.first) := by
  simp only [read]
  rw [Grammar.expression]
  rfl

/-- An expression is a sum of comparisons, read with one level less of room. -/
theorem read_expression_succ (tokens : List Token) :
    expression.read final (room + 1) tokens =
      (comparison.read final room tokens).andThen fun left behind =>
        (moreTerms left).read final room behind := by
  simp only [read]
  rw [Grammar.expression]
  refine seen_bind progressPair _ fun _ => ?_
  exact seen_return advancePair _ fun _ => rfl

/-- A sum ends with the tokens. -/
@[simp] theorem read_moreTerms_nil (left : Expression) :
    (moreTerms left).read final room [] = .ok (left, []) := by
  simp only [read]
  rw [Grammar.moreTerms]
  rfl

/-- A sum goes on with each additive operator and the comparison behind it, to the left. -/
theorem read_moreTerms_cons (left : Expression) (operator : Token) (operands : List Token) :
    (moreTerms left).read final room (operator :: operands) =
      if operator.kind.isAdditive then
        (comparison.read final room operands).andThen fun right behind =>
          (moreTerms (.binary operator.literal left right)).read final room behind
      else
        .ok (left, operator :: operands) := by
  simp only [read]
  rw [Grammar.moreTerms]
  split
  · refine seen_bind progressPair _ fun _ => ?_
    exact seen_return advancePair _ fun _ => rfl
  · rfl

/-- A comparison is a row of chains. -/
theorem read_comparison (tokens : List Token) :
    comparison.read final room tokens =
      (chain.read final room tokens).andThen fun left behind =>
        (moreComparisons left).read final room behind := by
  simp only [read]
  rw [Grammar.comparison]
  refine seen_bind progressPair _ fun _ => ?_
  exact seen_return advancePair _ fun _ => rfl

/-- A row of comparisons ends with the tokens. -/
@[simp] theorem read_moreComparisons_nil (left : Expression) :
    (moreComparisons left).read final room [] = .ok (left, []) := by
  simp only [read]
  rw [Grammar.moreComparisons]
  rfl

/-- A row of comparisons goes on with each such operator and the chain behind it. -/
theorem read_moreComparisons_cons
    (left : Expression)
    (operator : Token)
    (operands : List Token) :
    (moreComparisons left).read final room (operator :: operands) =
      if operator.kind.isComparison then
        (chain.read final room operands).andThen fun right behind =>
          (moreComparisons (.binary operator.literal left right)).read final room behind
      else
        .ok (left, operator :: operands) := by
  simp only [read]
  rw [Grammar.moreComparisons]
  split
  · refine seen_bind progressPair _ fun _ => ?_
    exact seen_return advancePair _ fun _ => rfl
  · rfl

/-- A chain is a primary expression and the links behind it. -/
theorem read_chain (tokens : List Token) :
    chain.read final room tokens =
      (primary.read final room tokens).andThen fun head behind =>
        (moreLinks head).read final room behind := by
  simp only [read]
  rw [Grammar.chain]
  refine seen_bind progressPair _ fun _ => ?_
  exact seen_return advancePair _ fun _ => rfl

/-- A chain ends with the tokens. -/
@[simp] theorem read_moreLinks_nil (target : Expression) :
    (moreLinks target).read final room [] = .ok (target, []) := by
  simp only [read]
  rw [Grammar.moreLinks]
  rfl

/-- The links of a chain are properties, calls and indices. -/
theorem read_moreLinks_cons (target : Expression) (link : Token) (inner : List Token) :
    (moreLinks target).read final room (link :: inner) =
      if link.kind = .dot ∨ link.kind = .arrow then
        ((name .propertyName).read final room inner).andThen fun property behind =>
          (moreLinks (.member target property (link.kind = .arrow))).read final room behind
      else if link.kind = .parenOpen then
        ((items .parenClose).read final room inner).andThen fun found behind =>
          (moreLinks (.invocation target found.1 found.2.span.last)).read final room behind
      else if link.kind = .bracketOpen then
        (expression.read final room inner).andThen fun position behind =>
          ((expect .bracketClose).read final room behind).andThen fun closing after =>
            (moreLinks (.index target position closing.span.last)).read final room after
      else
        .ok (target, link :: inner) := by
  simp only [read]
  rw [Grammar.moreLinks]
  split
  · next isDot =>
      rw [if_pos (.inl isDot)]
      refine seen_bind progressPair _ fun _ => ?_
      exact seen_return advancePair _ fun _ => rfl
  · next isArrow =>
      rw [if_pos (.inr isArrow)]
      refine seen_bind progressPair _ fun _ => ?_
      exact seen_return advancePair _ fun _ => rfl
  · next isCall =>
      rw [if_neg (by simp [isCall]), if_pos isCall]
      refine seen_bind progressPair _ fun _ => ?_
      exact seen_return advancePair _ fun _ => rfl
  · next isIndex =>
      rw [if_neg (by simp [isIndex]), if_neg (by simp [isIndex]), if_pos isIndex]
      refine seen_bind progressPair _ fun _ => ?_
      refine seen_bind progressPair _ fun _ => ?_
      exact seen_return advancePair _ fun _ => rfl
  · next noDot noArrow noCall noIndex =>
      rw [if_neg (not_or.mpr ⟨noDot, noArrow⟩), if_neg noCall, if_neg noIndex]
      rfl

/-- The items of a call or of a list stand before their closing sign and may be none. -/
theorem read_items (closing : Expectation) (tokens : List Token) :
    (items closing).read final room tokens =
      if (current final tokens).kind = closing.kind then
        ((expect closing).read final room tokens).andThen fun token rest =>
          .ok (([], token), rest)
      else
        ((moreItems []).read final room tokens).andThen fun values behind =>
          ((expect closing).read final room behind).andThen fun token rest =>
            .ok ((values, token), rest) := by
  simp only [read]
  rw [Grammar.items]
  by_cases closed : (current final tokens).kind = closing.kind
  · rw [if_pos closed, if_pos closed]
    exact seen_bind progressPair _ fun _ => rfl
  · rw [if_neg closed, if_neg closed]
    refine seen_bind progressPair _ fun _ => ?_
    exact seen_bind progressPair _ fun _ => rfl

/-- The items go on as long as a comma stands behind the last one. -/
theorem read_moreItems (known : List Expression) (tokens : List Token) :
    (moreItems known).read final room tokens =
      (expression.read final room tokens).andThen fun value behind =>
        match behind with
        | [] => .ok ((value :: known).reverse, [])
        | comma :: after =>
            if comma.kind = .comma then
              (moreItems (value :: known)).read final room after
            else
              .ok ((value :: known).reverse, comma :: after) := by
  simp only [read]
  rw [Grammar.moreItems]
  refine seen_bind progressPair _ fun found => ?_
  obtain ⟨value, behind, shorter⟩ := found
  cases behind with
  | nil =>
      rfl
  | cons comma after =>
      simp only
      split
      · exact seen_return progressPair _ fun _ => rfl
      · rfl

/-- No primary expression begins at the end of the code. -/
@[simp] theorem read_primary_nil :
    primary.read final room [] = .error (.unexpected final) := by
  simp only [read]
  rw [Grammar.primary]
  rfl

/-- A token that is a leaf of its own is a whole primary expression. -/
theorem read_primary_leaf
    {token : Token}
    {leaf : Expression}
    (isLeaf : leaf? token = some leaf)
    (behind : List Token) :
    primary.read final room (token :: behind) = .ok (leaf, behind) := by
  simp only [read]
  rw [Grammar.primary]
  simp only [isLeaf]
  rfl

/-- Every other primary expression is known by the token it begins with. -/
theorem read_primary_cons
    {token : Token}
    (noLeaf : leaf? token = none)
    (behind : List Token) :
    primary.read final room (token :: behind) =
      if token.kind = .newKeyword then
        ((name .className).read final room behind).andThen fun class' after =>
          ((className (.identifier class')).read final room after).andThen fun callee inner =>
            ((expect .parenOpen).read final room inner).andThen fun _ inside =>
              ((items .parenClose).read final room inside).andThen fun found rest =>
                .ok (.construction callee found.1
                  ⟨token.span.first, found.2.span.last⟩, rest)
      else if token.kind = .functionKeyword then
        (procedure.read final room behind).andThen fun found rest =>
          .ok (.closure found.1 found.2 token.span.first, rest)
      else if token.kind = .atSign then
        (rawCode token).read final room behind
      else if token.kind = .bracketOpen then
        ((items .bracketClose).read final room behind).andThen fun found rest =>
          .ok (.array found.1 ⟨token.span.first, found.2.span.last⟩, rest)
      else if token.kind = .parenOpen then
        (expression.read final room behind).andThen fun inner after =>
          ((expect .parenClose).read final room after).andThen fun _ rest =>
            .ok (inner, rest)
      else
        .error (.unexpected token) := by
  simp only [read]
  rw [Grammar.primary]
  simp only [noLeaf]
  split
  · next isNew =>
      rw [if_pos isNew]
      refine seen_bind progressPair _ fun _ => ?_
      refine seen_bind advancePair _ fun _ => ?_
      refine seen_bind progressPair _ fun _ => ?_
      exact seen_bind progressPair _ fun _ => rfl
  · next isFunction =>
      rw [if_neg (by simp [isFunction]), if_pos isFunction]
      exact seen_bind progressPair _ fun _ => rfl
  · next isRaw =>
      rw [if_neg (by simp [isRaw]), if_neg (by simp [isRaw]), if_pos isRaw]
      exact seen_return progressPair _ fun _ => rfl
  · next isArray =>
      rw [if_neg (by simp [isArray]), if_neg (by simp [isArray]), if_neg (by simp [isArray]),
        if_pos isArray]
      exact seen_bind progressPair _ fun _ => rfl
  · next isParen =>
      rw [if_neg (by simp [isParen]), if_neg (by simp [isParen]), if_neg (by simp [isParen]),
        if_neg (by simp [isParen]), if_pos isParen]
      refine seen_bind progressPair _ fun _ => ?_
      exact seen_bind progressPair _ fun _ => rfl
  · next noNew noFunction noRaw noArray noParen =>
      rw [if_neg noNew, if_neg noFunction, if_neg noRaw, if_neg noArray, if_neg noParen]
      rfl

/-- A procedure is a list of parameters and a block. -/
theorem read_procedure (tokens : List Token) :
    procedure.read final room tokens =
      (parameters.read final room tokens).andThen fun names behind =>
        (block.read final room behind).andThen fun body rest => .ok ((names, body), rest) := by
  simp only [read]
  rw [Grammar.procedure]
  refine seen_bind progressPair _ fun _ => ?_
  exact seen_bind progressPair _ fun _ => rfl

/-- A block stands between the two words that open and close it. -/
theorem read_block (tokens : List Token) :
    block.read final room tokens =
      ((expect .openWord).read final room tokens).andThen fun opening inner =>
        (blockRest opening .closeWord).read final room inner := by
  simp only [read]
  rw [Grammar.block]
  refine seen_bind progressPair _ fun _ => ?_
  exact seen_return progressPair _ fun _ => rfl

/-- The body of a loop is missed at the end of the code. -/
@[simp] theorem read_loopBlock_nil :
    loopBlock.read final room [] = .error (.expected .loopOpen final) := by
  simp only [read]
  rw [Grammar.loopBlock]
  rfl

/-- The body of a loop stands between braces or between the words of a block. -/
theorem read_loopBlock_cons (opening : Token) (inner : List Token) :
    loopBlock.read final room (opening :: inner) =
      if opening.kind = .braceOpen then
        (blockRest opening .braceClose).read final room inner
      else if opening.kind = .openKeyword then
        (blockRest opening .closeWord).read final room inner
      else
        .error (.expected .loopOpen opening) := by
  simp only [read]
  rw [Grammar.loopBlock]
  split
  · exact seen_return progressPair _ fun _ => rfl
  · split
    · exact seen_return progressPair _ fun _ => rfl
    · rfl

/-- Behind its opening, a block is its statements and the expected closing. -/
theorem read_blockRest (opening : Token) (closing : Expectation) (tokens : List Token) :
    (blockRest opening closing).read final room tokens =
      ((statements []).read final room (skipNewlines tokens)).andThen fun body behind =>
        ((expect closing).read final room behind).andThen fun token rest =>
          .ok (.of body ⟨opening.span.first, token.span.last⟩, rest) := by
  simp only [read]
  rw [Grammar.blockRest]
  refine seen_bind advancePair _ fun _ => ?_
  exact seen_bind progressPair _ fun _ => rfl

/-- The statements end with the tokens. -/
@[simp] theorem read_statements_nil (known : List Statement) :
    (statements known).read final room [] = .ok (known.reverse, []) := by
  simp only [read]
  rw [Grammar.statements]
  rfl

/-- The statements go on until a token that ends them, over the line breaks between them. -/
theorem read_statements_cons (known : List Statement) (token : Token) (behind : List Token) :
    (statements known).read final room (token :: behind) =
      if endsStatements token then
        .ok (known.reverse, token :: behind)
      else
        (statement.read final room (token :: behind)).andThen fun next after =>
          (statements (next :: known)).read final room (skipNewlines after) := by
  simp only [read]
  rw [Grammar.statements]
  split
  · rfl
  · refine seen_bind progressPair _ fun _ => ?_
    exact seen_return advancePair _ fun _ => rfl

/-- Without a token left, a statement can only be a simple one. -/
@[simp] theorem read_statement_nil :
    statement.read final room [] = simple.read final room [] := by
  simp only [read]
  rw [Grammar.statement]

/-- A statement is known by the keyword it begins with, and is simple without one. -/
theorem read_statement_cons (token : Token) (behind : List Token) :
    statement.read final room (token :: behind) =
      if token.kind = .returnKeyword then
        (expression.read final room behind).andThen fun value rest =>
          .ok (.returned value token.span.first, rest)
      else if token.kind = .variableKeyword then
        (variableRest token).read final room behind
      else if token.kind = .forKeyword then
        (forRest token).read final room behind
      else if token.kind = .whileKeyword then
        (whileRest token).read final room behind
      else if token.kind = .ifKeyword then
        (ifRest token).read final room behind
      else
        simple.read final room (token :: behind) := by
  simp only [read]
  rw [Grammar.statement]
  split
  · next isReturn =>
      rw [if_pos isReturn]
      exact seen_bind progressPair _ fun _ => rfl
  · next isVariable =>
      rw [if_neg (by simp [isVariable]), if_pos isVariable]
      exact seen_return progressPair _ fun _ => rfl
  · next isFor =>
      rw [if_neg (by simp [isFor]), if_neg (by simp [isFor]), if_pos isFor]
      exact seen_return progressPair _ fun _ => rfl
  · next isWhile =>
      rw [if_neg (by simp [isWhile]), if_neg (by simp [isWhile]), if_neg (by simp [isWhile]),
        if_pos isWhile]
      exact seen_return progressPair _ fun _ => rfl
  · next isIf =>
      rw [if_neg (by simp [isIf]), if_neg (by simp [isIf]), if_neg (by simp [isIf]),
        if_neg (by simp [isIf]), if_pos isIf]
      exact seen_return progressPair _ fun _ => rfl
  · next noReturn noVariable noFor noWhile noIf =>
      rw [if_neg noReturn, if_neg noVariable, if_neg noFor, if_neg noWhile, if_neg noIf]

/-- A simple statement is an expression, or an assignment when an equal sign follows. -/
theorem read_simple (tokens : List Token) :
    simple.read final room tokens =
      (expression.read final room tokens).andThen fun target behind =>
        match behind with
        | [] => .ok (.evaluated target, [])
        | equal :: after =>
            if equal.kind = .equal then
              (expression.read final room after).andThen fun value rest =>
                .ok (.assigned target value, rest)
            else
              .ok (.evaluated target, equal :: after) := by
  simp only [read]
  rw [Grammar.simple]
  refine seen_bind progressPair _ fun found => ?_
  obtain ⟨target, behind, shorter⟩ := found
  cases behind with
  | nil =>
      rfl
  | cons equal after =>
      simp only
      split
      · exact seen_bind progressPair _ fun _ => rfl
      · rfl

/-- A variable is declared by its name and its value. -/
theorem read_variableRest (start : Token) (tokens : List Token) :
    (variableRest start).read final room tokens =
      ((name .variableName).read final room tokens).andThen fun identifier behind =>
        ((expect .equalWord).read final room behind).andThen fun _ after =>
          (expression.read final room after).andThen fun value rest =>
            .ok (.declared identifier value start.span.first, rest) := by
  simp only [read]
  rw [Grammar.variableRest]
  refine seen_bind progressPair _ fun _ => ?_
  refine seen_bind progressPair _ fun _ => ?_
  exact seen_bind progressPair _ fun _ => rfl

/-- A condition stands in parentheses. -/
theorem read_condition (tokens : List Token) :
    condition.read final room tokens =
      ((expect .parenOpen).read final room tokens).andThen fun _ inner =>
        (expression.read final room inner).andThen fun test behind =>
          ((expect .parenClose).read final room behind).andThen fun _ rest =>
            .ok (test, rest) := by
  simp only [read]
  rw [Grammar.condition]
  refine seen_bind progressPair _ fun _ => ?_
  refine seen_bind progressPair _ fun _ => ?_
  exact seen_bind progressPair _ fun _ => rfl

/-- A conditional is a condition, a block, and a second block behind the other keyword. -/
theorem read_ifRest (start : Token) (tokens : List Token) :
    (ifRest start).read final room tokens =
      (condition.read final room tokens).andThen fun test behind =>
        (block.read final room behind).andThen fun consequent after =>
          match after with
          | [] => .ok (.conditional test consequent .missing start.span.first, [])
          | word :: inner =>
              if word.kind = .elseKeyword then
                (block.read final room inner).andThen fun alternative rest =>
                  .ok (.conditional test consequent alternative start.span.first, rest)
              else
                .ok (.conditional test consequent .missing start.span.first,
                  word :: inner) := by
  simp only [read]
  rw [Grammar.ifRest]
  refine seen_bind progressPair _ fun _ => ?_
  refine seen_bind progressPair _ fun found => ?_
  obtain ⟨consequent, after, shorter⟩ := found
  cases after with
  | nil =>
      rfl
  | cons word inner =>
      simp only
      split
      · exact seen_bind progressPair _ fun _ => rfl
      · rfl

/-- A `while` loop is a condition and a body. -/
theorem read_whileRest (start : Token) (tokens : List Token) :
    (whileRest start).read final room tokens =
      (condition.read final room tokens).andThen fun test behind =>
        (loopBlock.read final room behind).andThen fun body rest =>
          .ok (.whileLoop test body start.span.first, rest) := by
  simp only [read]
  rw [Grammar.whileRest]
  refine seen_bind progressPair _ fun _ => ?_
  exact seen_bind progressPair _ fun _ => rfl

/-- Without a token left, a clause of a `for` loop can only be a simple statement. -/
@[simp] theorem read_clause_nil (closing : TokenKind) :
    (clause closing).read final room [] = simple.read final room [] := by
  simp only [read]
  rw [Grammar.clause]
  exact seen_return progressPair _ fun _ => rfl

/-- A clause of a `for` loop is missing, a declaration or a simple statement. -/
theorem read_clause_cons (closing : TokenKind) (token : Token) (behind : List Token) :
    (clause closing).read final room (token :: behind) =
      if token.kind = closing then
        .ok (.missing, token :: behind)
      else if token.kind = .variableKeyword then
        (variableRest token).read final room behind
      else
        simple.read final room (token :: behind) := by
  simp only [read]
  rw [Grammar.clause]
  split
  · rfl
  · split
    · exact seen_return progressPair _ fun _ => rfl
    · exact seen_return progressPair _ fun _ => rfl

/-- The test of a `for` loop may be missing. -/
theorem read_optionalTest (tokens : List Token) :
    optionalTest.read final room tokens =
      if (current final tokens).kind = .semicolon then
        .ok (.missing, tokens)
      else
        expression.read final room tokens := by
  simp only [read]
  rw [Grammar.optionalTest]
  by_cases ended : (current final tokens).kind = .semicolon
  · rw [if_pos ended, if_pos ended]
    rfl
  · rw [if_neg ended, if_neg ended]
    exact seen_return progressPair _ fun _ => rfl

/-- A `for` loop is its three clauses in parentheses and a body. -/
theorem read_forRest (start : Token) (tokens : List Token) :
    (forRest start).read final room tokens =
      ((expect .parenOpen).read final room tokens).andThen fun _ inner =>
        ((clause .semicolon).read final room inner).andThen fun initial behindInitial =>
          ((expect .semicolon).read final room behindInitial).andThen fun _ beforeTest =>
            (optionalTest.read final room beforeTest).andThen fun test behindTest =>
              ((expect .semicolon).read final room behindTest).andThen fun _ beforeIncrement =>
                ((clause .parenClose).read final room beforeIncrement).andThen
                  fun increment behindIncrement =>
                    ((expect .parenClose).read final room behindIncrement).andThen
                      fun _ beforeBody =>
                        (loopBlock.read final room beforeBody).andThen fun body rest =>
                          .ok (.forLoop initial test increment body start.span.first, rest) := by
  simp only [read]
  rw [Grammar.forRest]
  refine seen_bind progressPair _ fun _ => ?_
  refine seen_bind advancePair _ fun _ => ?_
  refine seen_bind progressPair _ fun _ => ?_
  refine seen_bind advancePair _ fun _ => ?_
  refine seen_bind progressPair _ fun _ => ?_
  refine seen_bind advancePair _ fun _ => ?_
  refine seen_bind progressPair _ fun _ => ?_
  exact seen_bind progressPair _ fun _ => rfl

/-- The path of an import stands behind its word. -/
theorem read_importedFrom (tokens : List Token) :
    importedFrom.read final room tokens =
      ((expect .fromWord).read final room tokens).andThen fun _ behind =>
        (expect .importedPath).read final room behind := by
  refine seen_bind progressPair _ fun _ => ?_
  exact seen_return progressPair _ fun _ => rfl

/-- An import names its module, perhaps a second name for it, and a path. -/
theorem read_importRest (start : Token) (tokens : List Token) :
    (importRest start).read final room tokens =
      ((name .moduleName).read final room tokens).andThen fun module' behind =>
        if (current final behind).kind = .asKeyword then
          ((name .aliasName).read final room (behind.drop 1)).andThen fun newName after =>
            (importedFrom.read final room after).andThen fun path rest =>
              .ok (importing start module' (some newName) path, rest)
        else
          (importedFrom.read final room behind).andThen fun path rest =>
            .ok (importing start module' none path, rest) := by
  refine seen_bind progressPair _ fun found => ?_
  obtain ⟨module', behind, first⟩ := found
  simp only
  by_cases renamed : (current final behind).kind = .asKeyword
  · rw [if_pos renamed, if_pos renamed]
    refine seen_bind progressPair _ fun _ => ?_
    exact seen_bind progressPair _ fun _ => rfl
  · rw [if_neg renamed, if_neg renamed]
    exact seen_bind progressPair _ fun _ => rfl

/-- The members of a class end with the tokens. -/
@[simp] theorem read_members_nil (constructor? : Option Constructor) (methods : List Method) :
    (members constructor? methods).read final room [] =
      .ok ((constructor?, methods.reverse), []) := by
  simp only [read]
  rw [Grammar.members]
  rfl

/-- A class keeps its last constructor and its methods, and passes over everything else. -/
theorem read_members_cons
    (constructor? : Option Constructor)
    (methods : List Method)
    (token : Token)
    (behind : List Token) :
    (members constructor? methods).read final room (token :: behind) =
      if token.kind = .closeKeyword then
        .ok ((constructor?, methods.reverse), token :: behind)
      else if token.kind = .constructorKeyword then
        (procedure.read final room behind).andThen fun found after =>
          (members (some ⟨found.1, found.2, token.span.first⟩) methods).read final room after
      else if token.kind = .identifier then
        (procedure.read final room behind).andThen fun found after =>
          (members constructor? (⟨identifierOf token, found.1, found.2⟩ :: methods)).read
            final room after
      else
        (members constructor? methods).read final room behind := by
  simp only [read]
  rw [Grammar.members]
  split
  · next isClose =>
      rw [if_pos isClose]
      rfl
  · next isConstructor =>
      rw [if_neg (by simp [isConstructor]), if_pos isConstructor]
      refine seen_bind progressPair _ fun _ => ?_
      exact seen_return advancePair _ fun _ => rfl
  · next isMethod =>
      rw [if_neg (by simp [isMethod]), if_neg (by simp [isMethod]), if_pos isMethod]
      refine seen_bind progressPair _ fun _ => ?_
      exact seen_return advancePair _ fun _ => rfl
  · next noClose noConstructor noMethod =>
      rw [if_neg noClose, if_neg noConstructor, if_neg noMethod]
      exact seen_return advancePair _ fun _ => rfl

/-- A class is its name and its members between the words of a block. -/
theorem read_classRest (start : Token) (tokens : List Token) :
    (classRest start).read final room tokens =
      ((name .className).read final room tokens).andThen fun class' behind =>
        ((expect .openWord).read final room behind).andThen fun _ inner =>
          ((members none []).read final room inner).andThen fun found after =>
            ((expect .closeWord).read final room after).andThen fun closing rest =>
              .ok (.classType class' found.1 found.2
                ⟨start.span.first, closing.span.last⟩, rest) := by
  refine seen_bind progressPair _ fun _ => ?_
  refine seen_bind progressPair _ fun _ => ?_
  refine seen_bind advancePair _ fun _ => ?_
  exact seen_bind progressPair _ fun _ => rfl

/-- A type is its name and the word that says it is external. -/
theorem read_typeRest (start : Token) (tokens : List Token) :
    (typeRest start).read final room tokens =
      ((name .typeName).read final room tokens).andThen fun type' behind =>
        ((expect .equalWord).read final room behind).andThen fun equal after =>
          .ok (advancePair (externalWord start equal type' after)) := by
  refine seen_bind progressPair _ fun _ => ?_
  exact seen_bind progressPair _ fun _ => rfl

/-- A constant is its name and its value. -/
theorem read_constantRest (start : Token) (tokens : List Token) :
    (constantRest start).read final room tokens =
      ((name .constantName).read final room tokens).andThen fun identifier behind =>
        ((expect .equalWord).read final room behind).andThen fun _ after =>
          (expression.read final room after).andThen fun value rest =>
            .ok (.constant identifier value start.span.first, rest) := by
  refine seen_bind progressPair _ fun _ => ?_
  refine seen_bind progressPair _ fun _ => ?_
  exact seen_bind progressPair _ fun _ => rfl

/-- A function is its name and its procedure. -/
theorem read_functionRest (start : Token) (tokens : List Token) :
    (functionRest start).read final room tokens =
      ((name .functionName).read final room tokens).andThen fun identifier behind =>
        (procedure.read final room behind).andThen fun found rest =>
          .ok (.function identifier found.1 found.2 start.span.first, rest) := by
  refine seen_bind progressPair _ fun _ => ?_
  exact seen_bind progressPair _ fun _ => rfl

/-- Without a token left, a declaration can only be a simple statement. -/
theorem read_declaration_nil :
    declaration.read final room [] =
      (simple.read final room []).andThen fun body rest => .ok (.statement body, rest) :=
  seen_bind progressPair _ fun _ => rfl

/-- A declaration is known by its keyword, and is a statement without one. -/
theorem read_declaration_cons (token : Token) (behind : List Token) :
    declaration.read final room (token :: behind) =
      if token.kind = .importKeyword then
        (importRest token).read final room behind
      else if token.kind = .classKeyword then
        (classRest token).read final room behind
      else if token.kind = .typeKeyword then
        (typeRest token).read final room behind
      else if token.kind = .constantKeyword then
        (constantRest token).read final room behind
      else if token.kind = .functionKeyword then
        (functionRest token).read final room behind
      else if token.kind = .returnKeyword then
        (simple.read final room (token :: behind)).andThen fun body rest =>
          .ok (.statement body, rest)
      else
        (statement.read final room (token :: behind)).andThen fun body rest =>
          .ok (.statement body, rest) := by
  simp only [read, Grammar.declaration]
  split
  · next isImport =>
      rw [if_pos isImport]
      exact seen_return progressPair _ fun _ => rfl
  · next isClass =>
      rw [if_neg (by simp [isClass]), if_pos isClass]
      exact seen_return progressPair _ fun _ => rfl
  · next isType =>
      rw [if_neg (by simp [isType]), if_neg (by simp [isType]), if_pos isType]
      exact seen_return progressPair _ fun _ => rfl
  · next isConstant =>
      rw [if_neg (by simp [isConstant]), if_neg (by simp [isConstant]),
        if_neg (by simp [isConstant]), if_pos isConstant]
      exact seen_return progressPair _ fun _ => rfl
  · next isFunction =>
      rw [if_neg (by simp [isFunction]), if_neg (by simp [isFunction]),
        if_neg (by simp [isFunction]), if_neg (by simp [isFunction]), if_pos isFunction]
      exact seen_return progressPair _ fun _ => rfl
  · next isReturn =>
      rw [if_neg (by simp [isReturn]), if_neg (by simp [isReturn]), if_neg (by simp [isReturn]),
        if_neg (by simp [isReturn]), if_neg (by simp [isReturn]), if_pos isReturn]
      exact seen_bind progressPair _ fun _ => rfl
  · next noImport noClass noType noConstant noFunction noReturn =>
      rw [if_neg noImport, if_neg noClass, if_neg noType, if_neg noConstant,
        if_neg noFunction, if_neg noReturn]
      exact seen_bind progressPair _ fun _ => rfl

end Equations

end Rule

end FrenchNim.Grammar
