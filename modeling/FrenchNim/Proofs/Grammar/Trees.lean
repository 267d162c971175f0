import FrenchNim.Proofs.Grammar.Induction
import FrenchNim.Proofs.Syntax.Vocabulary

namespace FrenchNim

/-!
# The trees of the grammar

Whatever the grammar reads is a tree without gaps, and the words of the tree are
the spellings of the tokens it was read from. The statement is one induction over
all rules; a rule that goes on with an unfinished tree is told that this tree has
the property already.
-/

namespace Vocabulary

/-- A token whose spelling belongs to the vocabulary. -/
structure Admits (vocabulary : Vocabulary) (token : Token) : Prop where
  name : token.kind = .identifier → vocabulary.name token.literal
  number : token.kind = .number →
    vocabulary.number token.literal (Number.ofLiteral token.literal)
  operator : token.kind.isAdditive ∨ token.kind.isComparison →
    vocabulary.operator token.literal

/-- Tokens whose spellings belong to the vocabulary. -/
def AdmitsAll (vocabulary : Vocabulary) (tokens : List Token) : Prop :=
  ∀ token ∈ tokens, vocabulary.Admits token

/-- The words a tree may hold without a token that spells them. -/
structure IsOpen (vocabulary : Vocabulary) : Prop where
  self : vocabulary.name selfName
  code : ∀ text, vocabulary.code (trimText text)

variable {vocabulary : Vocabulary}

/-- The first of admitted tokens is admitted. -/
theorem AdmitsAll.head
    {token : Token}
    {rest : List Token}
    (admitted : vocabulary.AdmitsAll (token :: rest)) :
    vocabulary.Admits token :=
  admitted token (by simp)

/-- The tokens behind the first one are admitted. -/
theorem AdmitsAll.tail
    {token : Token}
    {rest : List Token}
    (admitted : vocabulary.AdmitsAll (token :: rest)) :
    vocabulary.AdmitsAll rest :=
  fun later member => admitted later (by simp [member])

/-- Tokens taken from admitted ones are admitted. -/
theorem AdmitsAll.sublist
    {tokens rest : List Token}
    (admitted : vocabulary.AdmitsAll tokens)
    (part : rest.Sublist tokens) :
    vocabulary.AdmitsAll rest :=
  fun token member => admitted token (part.subset member)

/-- A tree over the vocabulary of all words may hold any word. -/
theorem everything_isOpen : everything.IsOpen :=
  ⟨trivial, fun _ => trivial⟩

/-- The vocabulary of all words admits every token. -/
theorem everything_admitsAll (tokens : List Token) : everything.AdmitsAll tokens :=
  fun _ _ => ⟨fun _ => trivial, fun _ => trivial, fun _ => trivial⟩

/-- A further name of the vocabulary joins the others. -/
theorem Names.cons
    {parameter : Identifier}
    {known : List Identifier}
    (first : vocabulary.name parameter.name)
    (rest : vocabulary.Names known) :
    vocabulary.Names (parameter :: known) := by
  intro other member
  rcases List.mem_cons.mp member with rfl | inRest
  · exact first
  · exact rest other inRest

end Vocabulary

namespace Grammar

namespace Rule

variable (vocabulary : Vocabulary)

/-- What a rule has to know about the unfinished tree it goes on with. -/
def Given : Rule α → Prop
  | name expectation => expectation.kind = .identifier
  | moreParameters known => vocabulary.Names known
  | className callee => callee.IsClassName vocabulary
  | moreTerms left | moreComparisons left | moreLinks left => left.Over vocabulary
  | moreItems known => ∀ value ∈ known, value.Over vocabulary
  | statements known => ∀ node ∈ known, node.Over vocabulary
  | members constructor? methods =>
      (∀ node ∈ constructor?, node.Over vocabulary) ∧ ∀ node ∈ methods, node.Over vocabulary
  | _ => True

/-- What holds of the result of a rule. -/
def Made : Rule α → α → Prop
  | expect expectation => fun token =>
      token.kind = expectation.kind ∧ vocabulary.Admits token
  | name _ => fun identifier => vocabulary.name identifier.name
  | moreParameters _ | parameters => vocabulary.Names
  | className _ => Expression.IsClassName vocabulary
  | rawCode _ | expression | moreTerms _ | comparison | moreComparisons _ | chain
  | moreLinks _ | primary | condition => Expression.Over vocabulary
  | items _ => fun found => ∀ value ∈ found.1, value.Over vocabulary
  | moreItems _ => fun values => ∀ value ∈ values, value.Over vocabulary
  | procedure => fun found => vocabulary.Names found.1 ∧ found.2.Over vocabulary
  | block | loopBlock | blockRest _ _ => Block.Over vocabulary
  | statements _ => fun nodes => ∀ node ∈ nodes, node.Over vocabulary
  | statement => Statement.Over vocabulary
  | ifRest _ | whileRest _ | forRest _ => fun node =>
      node.isReturn = false ∧ node.Over vocabulary
  | simple | variableRest _ => fun node => node.isClause ∧ node.Over vocabulary
  | clause _ => fun node => node = .missing ∨ node.isClause ∧ node.Over vocabulary
  | optionalTest => fun test => test = .missing ∨ test.Over vocabulary
  | importedFrom => fun _ => True
  | members _ _ => fun found =>
      (∀ node ∈ found.1, node.Over vocabulary) ∧ ∀ node ∈ found.2, node.Over vocabulary
  | importRest _ | classRest _ | typeRest _ | constantRest _ | functionRest _
  | declaration => Declaration.Over vocabulary

end Rule

/-- A result has a property and the tokens behind it belong to the vocabulary. -/
def Yields (vocabulary : Vocabulary) (made : α → Prop) : Parsed α → Prop
  | .ok (value, rest) => made value ∧ vocabulary.AdmitsAll rest
  | .error _ => True

namespace Yields

variable {vocabulary : Vocabulary} {made : α → Prop} {lastMade : β → Prop}

/-- Properties of results are passed on along a sequence of rules. -/
theorem andThen
    {first : Parsed α}
    {next : α → List Token → Parsed β}
    (yields : Yields vocabulary made first)
    (continued : ∀ value rest, first = .ok (value, rest) → made value →
      vocabulary.AdmitsAll rest → Yields vocabulary lastMade (next value rest)) :
    Yields vocabulary lastMade (first.andThen next) := by
  rcases first with error | ⟨value, rest⟩
  · exact trivial
  · exact continued value rest rfl yields.1 yields.2

/-- A result may be replaced by one that is made from it. -/
theorem made_from
    {parsed : Parsed α}
    {change : α → β}
    (yields : Yields vocabulary made parsed)
    (changed : ∀ value, made value → lastMade (change value)) :
    Yields vocabulary lastMade
      (parsed.andThen fun value rest => .ok (change value, rest)) :=
  yields.andThen fun value _ _ known admitted => ⟨changed value known, admitted⟩

/-- What is known of a result may be weakened. -/
theorem weaken
    {parsed : Parsed α}
    {weaker : α → Prop}
    (yields : Yields vocabulary made parsed)
    (weakened : ∀ value, made value → weaker value) :
    Yields vocabulary weaker parsed := by
  rcases parsed with error | ⟨value, rest⟩
  · exact trivial
  · exact ⟨weakened value yields.1, yields.2⟩

end Yields

/-! ## Every rule makes trees over the vocabulary of its tokens -/

/-- A rule on a token list makes what it is meant to make. -/
def MakesTrees
    (vocabulary : Vocabulary)
    (final : Token)
    (rule : Rule α)
    (room : Nat)
    (tokens : List Token) : Prop :=
  rule.Given vocabulary → vocabulary.AdmitsAll tokens →
    Yields vocabulary (rule.Made vocabulary) (rule.read final room tokens)

section MakesTrees

variable {vocabulary : Vocabulary} {final : Token} {room : Nat} {tokens : List Token}

/-- Reading one token makes a token of the vocabulary. -/
theorem makesTrees_expect (expectation : Expectation) :
    MakesTrees vocabulary final (.expect expectation) room tokens := by
  intro _ admitted
  cases tokens with
  | nil =>
      exact trivial
  | cons token behind =>
      rw [Rule.read_expect_cons]
      split
      · next fits =>
          exact ⟨⟨fits, admitted.head⟩, admitted.tail⟩
      · exact trivial

/-- Reading a name makes a name of the vocabulary. -/
theorem makesTrees_name (expectation : Expectation) :
    MakesTrees vocabulary final (.name expectation) room tokens := by
  intro isName admitted
  rw [Rule.read_name]
  refine (makesTrees_expect expectation trivial admitted).made_from ?_
  intro token known
  exact known.2.name (known.1.trans isName)

/-- A token that is an expression by itself makes one over its spelling. -/
theorem leaf?_over
    (isOpen : vocabulary.IsOpen)
    {token : Token}
    {leaf : Expression}
    (admitted : vocabulary.Admits token)
    (isLeaf : leaf? token = some leaf) :
    leaf.Over vocabulary := by
  unfold leaf? at isLeaf
  split at isLeaf
  · cases isLeaf
    exact isOpen.self
  · cases isLeaf
    exact trivial
  · next isName =>
      cases isLeaf
      exact admitted.name isName
  · next isNumber =>
      cases isLeaf
      exact admitted.number isNumber
  · cases isLeaf
    exact trivial
  · cases isLeaf

/-- Everything below a rule makes what it is meant to make. -/
abbrev TreesBelow
    (vocabulary : Vocabulary)
    (final : Token)
    (rule : Rule α)
    (tokens : List Token) : Prop :=
  rule.Below (fun inner room later => MakesTrees vocabulary final inner room later) tokens

/-- Each further parameter is a name of the vocabulary. -/
theorem makesTrees_moreParameters
    (known : List Identifier)
    (below : TreesBelow vocabulary final (.moreParameters known) tokens) :
    MakesTrees vocabulary final (.moreParameters known) room tokens := by
  intro given admitted
  rw [Rule.read_moreParameters]
  refine (makesTrees_name .parameterName rfl admitted).andThen ?_
  intro parameter rest found named admitted
  have names := Vocabulary.Names.cons named given
  cases rest with
  | nil =>
      exact ⟨by simpa [Rule.Made, Vocabulary.Names, or_comm] using names, admitted⟩
  | cons comma behind =>
      have fewer := Rule.read_shorter rfl found
      simp only
      split
      · exact below.shorter (.moreParameters (parameter :: known)) room behind
          (Nat.lt_of_succ_lt fewer) names admitted.tail
      · exact ⟨by simpa [Rule.Made, Vocabulary.Names, or_comm] using names, admitted⟩

/-- A parameter list holds names of the vocabulary only. -/
theorem makesTrees_parameters
    (below : TreesBelow vocabulary final .parameters tokens) :
    MakesTrees vocabulary final .parameters room tokens := by
  intro _ admitted
  rw [Rule.read_parameters]
  refine (makesTrees_expect .parenOpen trivial admitted).andThen ?_
  intro _ inner found _ admitted
  split
  · refine (makesTrees_expect .parenClose trivial admitted).made_from ?_
    intro _ _ _ member
    simp at member
  · refine (below.shorter (.moreParameters []) room inner (Rule.read_shorter rfl found)
      (by simp [Rule.Given, Vocabulary.Names]) admitted).andThen ?_
    intro names behind _ known admitted
    exact (makesTrees_expect .parenClose trivial admitted).made_from fun _ _ => known

/-- Each further link makes the name of a class again. -/
theorem makesTrees_className
    (callee : Expression)
    (below : TreesBelow vocabulary final (.className callee) tokens) :
    MakesTrees vocabulary final (.className callee) room tokens := by
  intro given admitted
  cases tokens with
  | nil =>
      rw [Rule.read_className_nil]
      exact ⟨given, admitted⟩
  | cons dot behind =>
      rw [Rule.read_className_cons]
      split
      · refine (makesTrees_name .propertyName rfl admitted.tail).andThen ?_
        intro property rest found named admitted
        have fewer := Rule.read_shorter rfl found
        exact below.shorter (.className (.member callee property false)) room rest
          (Nat.lt_succ_of_lt fewer) ⟨given, named, rfl⟩ admitted
      · exact ⟨given, admitted⟩

/-- Embedded code is admitted whatever it is, since no single token spells it. -/
theorem makesTrees_rawCode
    (isOpen : vocabulary.IsOpen)
    (start : Token) :
    MakesTrees vocabulary final (.rawCode start) room tokens := by
  intro _ admitted
  rw [Rule.read_rawCode]
  refine (makesTrees_expect .nimWord trivial admitted).andThen ?_
  intro _ behind _ _ admitted
  refine (makesTrees_expect .parenOpen trivial admitted).andThen ?_
  intro opening inner _ _ admitted
  exact ⟨isOpen.code _, admitted.sublist (collect_rest_suffix 0 false "" opening inner).sublist⟩

/-- The operands of a sum are trees, and so is the sum. -/
theorem makesTrees_expression
    (below : TreesBelow vocabulary final .expression tokens) :
    MakesTrees vocabulary final .expression room tokens := by
  intro _ admitted
  cases room with
  | zero =>
      rw [Rule.read_expression_zero]
      exact trivial
  | succ room =>
      rw [Rule.read_expression_succ]
      refine (below.same .comparison room (by decide) trivial admitted).andThen ?_
      intro left behind found known admitted
      exact below.shorter (.moreTerms left) room behind (Rule.read_shorter rfl found)
        known admitted

/-- A further term makes a binary expression with an admitted operator. -/
theorem makesTrees_moreTerms
    (left : Expression)
    (below : TreesBelow vocabulary final (.moreTerms left) tokens) :
    MakesTrees vocabulary final (.moreTerms left) room tokens := by
  intro given admitted
  cases tokens with
  | nil =>
      rw [Rule.read_moreTerms_nil]
      exact ⟨given, admitted⟩
  | cons operator operands =>
      rw [Rule.read_moreTerms_cons]
      split
      · next isOperator =>
          refine (below.behind .comparison room trivial admitted.tail).andThen ?_
          intro right behind found known later
          have fewer := Rule.read_shorter rfl found
          exact below.shorter (.moreTerms (.binary operator.literal left right)) room behind
            (Nat.lt_succ_of_lt fewer)
            ⟨admitted.head.operator (.inl isOperator), given, known⟩ later
      · exact ⟨given, admitted⟩

/-- The operands of a row of comparisons are trees, and so is the row. -/
theorem makesTrees_comparison
    (below : TreesBelow vocabulary final .comparison tokens) :
    MakesTrees vocabulary final .comparison room tokens := by
  intro _ admitted
  rw [Rule.read_comparison]
  refine (below.same .chain room (by decide) trivial admitted).andThen ?_
  intro left behind found known admitted
  exact below.shorter (.moreComparisons left) room behind (Rule.read_shorter rfl found)
    known admitted

/-- A further comparison makes a binary expression with an admitted operator. -/
theorem makesTrees_moreComparisons
    (left : Expression)
    (below : TreesBelow vocabulary final (.moreComparisons left) tokens) :
    MakesTrees vocabulary final (.moreComparisons left) room tokens := by
  intro given admitted
  cases tokens with
  | nil =>
      rw [Rule.read_moreComparisons_nil]
      exact ⟨given, admitted⟩
  | cons operator operands =>
      rw [Rule.read_moreComparisons_cons]
      split
      · next isOperator =>
          refine (below.behind .chain room trivial admitted.tail).andThen ?_
          intro right behind found known later
          have fewer := Rule.read_shorter rfl found
          exact below.shorter (.moreComparisons (.binary operator.literal left right)) room
            behind (Nat.lt_succ_of_lt fewer)
            ⟨admitted.head.operator (.inr isOperator), given, known⟩ later
      · exact ⟨given, admitted⟩

/-- A chain is a tree if what it begins with is one. -/
theorem makesTrees_chain
    (below : TreesBelow vocabulary final .chain tokens) :
    MakesTrees vocabulary final .chain room tokens := by
  intro _ admitted
  rw [Rule.read_chain]
  refine (below.same .primary room (by decide) trivial admitted).andThen ?_
  intro head behind found known admitted
  exact below.shorter (.moreLinks head) room behind (Rule.read_shorter rfl found)
    known admitted

/-- Each link makes a tree of its target and of what the link holds. -/
theorem makesTrees_moreLinks
    (target : Expression)
    (below : TreesBelow vocabulary final (.moreLinks target) tokens) :
    MakesTrees vocabulary final (.moreLinks target) room tokens := by
  intro given admitted
  cases tokens with
  | nil =>
      rw [Rule.read_moreLinks_nil]
      exact ⟨given, admitted⟩
  | cons link inner =>
      rw [Rule.read_moreLinks_cons]
      split
      · refine (makesTrees_name .propertyName rfl admitted.tail).andThen ?_
        intro property behind found named later
        have fewer := Rule.read_shorter rfl found
        exact below.shorter (.moreLinks _) room behind (Nat.lt_succ_of_lt fewer)
          ⟨given, named⟩ later
      · split
        · refine (below.behind (.items .parenClose) room trivial admitted.tail).andThen ?_
          intro arguments behind found known later
          have fewer := Rule.read_shorter rfl found
          exact below.shorter (.moreLinks _) room behind (Nat.lt_succ_of_lt fewer)
            ⟨given, Expression.allOver_iff.mpr known⟩ later
        · split
          · refine (below.behind .expression room trivial admitted.tail).andThen ?_
            intro position behind found known later
            refine (makesTrees_expect .bracketClose trivial later).andThen ?_
            intro closing after closed _ later
            have fewer := Rule.read_shorter rfl found
            have fewest := Rule.read_shorter rfl closed
            exact below.shorter (.moreLinks _) room after
              (Nat.lt_succ_of_lt (Nat.lt_trans fewest fewer)) ⟨given, known⟩ later
          · exact ⟨given, admitted⟩

/-- The items of a call or of a list are trees. -/
theorem makesTrees_items
    (closing : Expectation)
    (below : TreesBelow vocabulary final (.items closing) tokens) :
    MakesTrees vocabulary final (.items closing) room tokens := by
  intro _ admitted
  rw [Rule.read_items]
  split
  · refine (makesTrees_expect closing trivial admitted).made_from ?_
    intro _ _ _ member
    simp at member
  · refine (below.same (.moreItems []) room (by simp [Rule.level])
      (by simp [Rule.Given]) admitted).andThen ?_
    intro values behind _ known admitted
    exact (makesTrees_expect closing trivial admitted).made_from fun _ _ => known

/-- Each further item is a tree. -/
theorem makesTrees_moreItems
    (known : List Expression)
    (below : TreesBelow vocabulary final (.moreItems known) tokens) :
    MakesTrees vocabulary final (.moreItems known) room tokens := by
  intro given admitted
  rw [Rule.read_moreItems]
  refine (below.same .expression room (by simp [Rule.level]) trivial admitted).andThen ?_
  intro value behind found isOver admitted
  have values : ∀ other ∈ value :: known, other.Over vocabulary :=
    List.forall_mem_cons.mpr ⟨isOver, given⟩
  cases behind with
  | nil =>
      exact ⟨fun other member => values other (List.mem_reverse.mp member), admitted⟩
  | cons comma after =>
      have fewer := Rule.read_shorter rfl found
      simp only
      split
      · exact below.shorter (.moreItems (value :: known)) room after
          (Nat.lt_of_succ_lt fewer) values admitted.tail
      · exact ⟨fun other member => values other (List.mem_reverse.mp member), admitted⟩

/-- A primary expression is a tree, whichever token it begins with. -/
theorem makesTrees_primary
    (isOpen : vocabulary.IsOpen)
    (below : TreesBelow vocabulary final .primary tokens) :
    MakesTrees vocabulary final .primary room tokens := by
  intro _ admitted
  cases tokens with
  | nil =>
      rw [Rule.read_primary_nil]
      exact trivial
  | cons token behind =>
      cases isLeaf : leaf? token with
      | some leaf =>
          rw [Rule.read_primary_leaf final room isLeaf]
          exact ⟨leaf?_over isOpen admitted.head isLeaf, admitted.tail⟩
      | none =>
          rw [Rule.read_primary_cons final room isLeaf]
          repeat' split
          · refine (makesTrees_name .className rfl admitted.tail).andThen ?_
            intro class' after found named admitted
            have first := Rule.read_shorter rfl found
            refine (below.shorter (.className (.identifier class')) room after
              (Nat.lt_succ_of_lt first) named admitted).andThen ?_
            intro callee inner found known admitted
            have second := Rule.read_notLonger _ found
            refine (makesTrees_expect .parenOpen trivial admitted).andThen ?_
            intro _ inside found _ admitted
            have third := Rule.read_shorter rfl found
            refine (below.shorter (.items .parenClose) room inside
              (by simp only [List.length_cons]; omega) trivial admitted).made_from ?_
            intro _ arguments
            exact ⟨known, Expression.allOver_iff.mpr arguments⟩
          · exact (below.behind .procedure room trivial admitted.tail).made_from
              fun _ known => known
          · exact below.behind (.rawCode token) room trivial admitted.tail
          · exact (below.behind (.items .bracketClose) room trivial admitted.tail).made_from
              fun _ known => Expression.allOver_iff.mpr known
          · refine (below.behind .expression room trivial admitted.tail).andThen ?_
            intro inner after _ known admitted
            exact (makesTrees_expect .parenClose trivial admitted).made_from fun _ _ => known
          · exact trivial

/-- A procedure holds names of the vocabulary and a block without gaps. -/
theorem makesTrees_procedure
    (below : TreesBelow vocabulary final .procedure tokens) :
    MakesTrees vocabulary final .procedure room tokens := by
  intro _ admitted
  rw [Rule.read_procedure]
  refine (below.same .parameters room (by decide) trivial admitted).andThen ?_
  intro names behind found named admitted
  refine (below.shorter .block room behind (Rule.read_shorter rfl found) trivial
    admitted).made_from ?_
  intro _ known
  exact ⟨named, known⟩

/-- A block has no gaps. -/
theorem makesTrees_block
    (below : TreesBelow vocabulary final .block tokens) :
    MakesTrees vocabulary final .block room tokens := by
  intro _ admitted
  rw [Rule.read_block]
  refine (makesTrees_expect .openWord trivial admitted).andThen ?_
  intro opening inner found _ admitted
  exact below.shorter (.blockRest opening .closeWord) room inner
    (Rule.read_shorter rfl found) trivial admitted

/-- The body of a loop has no gaps, between braces as well as between words. -/
theorem makesTrees_loopBlock
    (below : TreesBelow vocabulary final .loopBlock tokens) :
    MakesTrees vocabulary final .loopBlock room tokens := by
  intro _ admitted
  cases tokens with
  | nil =>
      rw [Rule.read_loopBlock_nil]
      exact trivial
  | cons opening inner =>
      rw [Rule.read_loopBlock_cons]
      repeat' split
      · exact below.behind (.blockRest opening .braceClose) room trivial admitted.tail
      · exact below.behind (.blockRest opening .closeWord) room trivial admitted.tail
      · exact trivial

/-- The statements between the two ends of a block have no gaps. -/
theorem makesTrees_blockRest
    (opening : Token)
    (closing : Expectation)
    (below : TreesBelow vocabulary final (.blockRest opening closing) tokens) :
    MakesTrees vocabulary final (.blockRest opening closing) room tokens := by
  intro _ admitted
  rw [Rule.read_blockRest]
  refine (below.tighter (.statements []) room (skipNewlines tokens) (by simp [Rule.level])
    (length_skipNewlines_le tokens) (by simp [Rule.Given])
    (admitted.sublist (skipNewlines_suffix tokens).sublist)).andThen ?_
  intro body behind _ known admitted
  refine (makesTrees_expect closing trivial admitted).made_from ?_
  intro _ _
  exact Statement.allOver_iff.mpr known

/-- Each further statement is a tree. -/
theorem makesTrees_statements
    (known : List Statement)
    (below : TreesBelow vocabulary final (.statements known) tokens) :
    MakesTrees vocabulary final (.statements known) room tokens := by
  intro given admitted
  cases tokens with
  | nil =>
      rw [Rule.read_statements_nil]
      exact ⟨fun node member => given node (List.mem_reverse.mp member), admitted⟩
  | cons token behind =>
      rw [Rule.read_statements_cons]
      split
      · exact ⟨fun node member => given node (List.mem_reverse.mp member), admitted⟩
      · refine (below.same .statement room (by simp [Rule.level]) trivial admitted).andThen ?_
        intro next after found isOver admitted
        have fewer := Rule.read_shorter rfl found
        have skipped := length_skipNewlines_le after
        exact below.shorter (.statements (next :: known)) room (skipNewlines after)
          (Nat.lt_of_le_of_lt skipped fewer) (List.forall_mem_cons.mpr ⟨isOver, given⟩)
          (admitted.sublist (skipNewlines_suffix after).sublist)

/-- A statement is a tree, whichever keyword it begins with. -/
theorem makesTrees_statement
    (below : TreesBelow vocabulary final .statement tokens) :
    MakesTrees vocabulary final .statement room tokens := by
  intro _ admitted
  cases tokens with
  | nil =>
      rw [Rule.read_statement_nil]
      exact (below.same .simple room (by decide) trivial admitted).weaken fun _ => And.right
  | cons token behind =>
      rw [Rule.read_statement_cons]
      repeat' split
      · exact (below.behind .expression room trivial admitted.tail).made_from
          fun _ known => known
      · exact (below.behind (.variableRest token) room trivial admitted.tail).weaken
          fun _ => And.right
      · exact (below.behind (.forRest token) room trivial admitted.tail).weaken
          fun _ => And.right
      · exact (below.behind (.whileRest token) room trivial admitted.tail).weaken
          fun _ => And.right
      · exact (below.behind (.ifRest token) room trivial admitted.tail).weaken
          fun _ => And.right
      · exact (below.same .simple room (by decide) trivial admitted).weaken fun _ => And.right

/-- An expression statement and an assignment are trees that may be a clause of a loop. -/
theorem makesTrees_simple
    (below : TreesBelow vocabulary final .simple tokens) :
    MakesTrees vocabulary final .simple room tokens := by
  intro _ admitted
  rw [Rule.read_simple]
  refine (below.same .expression room (by decide) trivial admitted).andThen ?_
  intro target behind found known admitted
  cases behind with
  | nil =>
      exact ⟨⟨rfl, known⟩, admitted⟩
  | cons equal after =>
      have fewer := Rule.read_shorter rfl found
      simp only
      split
      · refine (below.shorter .expression room after (Nat.lt_of_succ_lt fewer) trivial
          admitted.tail).made_from ?_
        intro _ value
        exact ⟨rfl, known, value⟩
      · exact ⟨⟨rfl, known⟩, admitted⟩

/-- A declared variable is a tree that may be a clause of a loop. -/
theorem makesTrees_variableRest
    (start : Token)
    (below : TreesBelow vocabulary final (.variableRest start) tokens) :
    MakesTrees vocabulary final (.variableRest start) room tokens := by
  intro _ admitted
  rw [Rule.read_variableRest]
  refine (makesTrees_name .variableName rfl admitted).andThen ?_
  intro identifier behind found named admitted
  have first := Rule.read_shorter rfl found
  refine (makesTrees_expect .equalWord trivial admitted).andThen ?_
  intro _ after found _ admitted
  have second := Rule.read_shorter rfl found
  refine (below.shorter .expression room after (Nat.lt_trans second first) trivial
    admitted).made_from ?_
  intro _ value
  exact ⟨rfl, named, value⟩

/-- A condition is a tree. -/
theorem makesTrees_condition
    (below : TreesBelow vocabulary final .condition tokens) :
    MakesTrees vocabulary final .condition room tokens := by
  intro _ admitted
  rw [Rule.read_condition]
  refine (makesTrees_expect .parenOpen trivial admitted).andThen ?_
  intro _ inner found _ admitted
  refine (below.shorter .expression room inner (Rule.read_shorter rfl found) trivial
    admitted).andThen ?_
  intro test behind _ known admitted
  exact (makesTrees_expect .parenClose trivial admitted).made_from fun _ _ => known

/-- A conditional is a tree, with its second block or without. -/
theorem makesTrees_ifRest
    (start : Token)
    (below : TreesBelow vocabulary final (.ifRest start) tokens) :
    MakesTrees vocabulary final (.ifRest start) room tokens := by
  intro _ admitted
  rw [Rule.read_ifRest]
  refine (below.same .condition room (by simp [Rule.level]) trivial admitted).andThen ?_
  intro test behind found known admitted
  have first := Rule.read_shorter rfl found
  refine (below.shorter .block room behind first trivial admitted).andThen ?_
  intro consequent after found body admitted
  have second := Rule.read_shorter rfl found
  cases after with
  | nil =>
      exact ⟨⟨rfl, known, body, .inl rfl⟩, admitted⟩
  | cons word inner =>
      simp only
      split
      · refine (below.shorter .block room inner
          (by simp only [List.length_cons] at second; omega) trivial
          admitted.tail).made_from ?_
        intro _ alternative
        exact ⟨rfl, known, body, .inr alternative⟩
      · exact ⟨⟨rfl, known, body, .inl rfl⟩, admitted⟩

/-- A `while` loop is a tree. -/
theorem makesTrees_whileRest
    (start : Token)
    (below : TreesBelow vocabulary final (.whileRest start) tokens) :
    MakesTrees vocabulary final (.whileRest start) room tokens := by
  intro _ admitted
  rw [Rule.read_whileRest]
  refine (below.same .condition room (by simp [Rule.level]) trivial admitted).andThen ?_
  intro test behind found known admitted
  refine (below.shorter .loopBlock room behind (Rule.read_shorter rfl found) trivial
    admitted).made_from ?_
  intro _ body
  exact ⟨rfl, known, body⟩

/-- A clause of a `for` loop is missing or a tree. -/
theorem makesTrees_clause
    (closing : TokenKind)
    (below : TreesBelow vocabulary final (.clause closing) tokens) :
    MakesTrees vocabulary final (.clause closing) room tokens := by
  intro _ admitted
  cases tokens with
  | nil =>
      rw [Rule.read_clause_nil]
      exact (below.same .simple room (by simp [Rule.level]) trivial admitted).weaken
        fun _ => Or.inr
  | cons token behind =>
      rw [Rule.read_clause_cons]
      repeat' split
      · exact ⟨.inl rfl, admitted⟩
      · exact (below.behind (.variableRest token) room trivial admitted.tail).weaken
          fun _ => Or.inr
      · exact (below.same .simple room (by simp [Rule.level]) trivial admitted).weaken
          fun _ => Or.inr

/-- The test of a `for` loop is missing or a tree. -/
theorem makesTrees_optionalTest
    (below : TreesBelow vocabulary final .optionalTest tokens) :
    MakesTrees vocabulary final .optionalTest room tokens := by
  intro _ admitted
  rw [Rule.read_optionalTest]
  split
  · exact ⟨.inl rfl, admitted⟩
  · exact (below.same .expression room (by decide) trivial admitted).weaken fun _ => Or.inr

/-- A `for` loop is a tree, whichever of its clauses are missing. -/
theorem makesTrees_forRest
    (start : Token)
    (below : TreesBelow vocabulary final (.forRest start) tokens) :
    MakesTrees vocabulary final (.forRest start) room tokens := by
  intro _ admitted
  rw [Rule.read_forRest]
  refine (makesTrees_expect .parenOpen trivial admitted).andThen ?_
  intro _ inner found _ admitted
  have opened := Rule.read_shorter rfl found
  refine (below.shorter (.clause .semicolon) room inner opened trivial admitted).andThen ?_
  intro initial behindInitial found initialKnown admitted
  have first := Rule.read_notLonger _ found
  refine (makesTrees_expect .semicolon trivial admitted).andThen ?_
  intro _ beforeTest found _ admitted
  have second := Rule.read_shorter rfl found
  refine (below.shorter .optionalTest room beforeTest (by omega) trivial
    admitted).andThen ?_
  intro test behindTest found testKnown admitted
  have third := Rule.read_notLonger _ found
  refine (makesTrees_expect .semicolon trivial admitted).andThen ?_
  intro _ beforeIncrement found _ admitted
  have fourth := Rule.read_shorter rfl found
  refine (below.shorter (.clause .parenClose) room beforeIncrement (by omega) trivial
    admitted).andThen ?_
  intro increment behindIncrement found incrementKnown admitted
  have fifth := Rule.read_notLonger _ found
  refine (makesTrees_expect .parenClose trivial admitted).andThen ?_
  intro _ beforeBody found _ admitted
  have sixth := Rule.read_shorter rfl found
  refine (below.shorter .loopBlock room beforeBody (by omega) trivial admitted).made_from ?_
  intro _ body
  exact ⟨rfl, initialKnown, testKnown, incrementKnown, body⟩

/-- The path of an import holds no words of the vocabulary. -/
theorem makesTrees_importedFrom :
    MakesTrees vocabulary final .importedFrom room tokens := by
  intro _ admitted
  rw [Rule.read_importedFrom]
  refine (makesTrees_expect .fromWord trivial admitted).andThen ?_
  intro _ behind _ _ admitted
  exact (makesTrees_expect .importedPath trivial admitted).weaken fun _ _ => trivial

/-- An import names its module and perhaps an alias by words of the vocabulary. -/
theorem makesTrees_importRest (start : Token) :
    MakesTrees vocabulary final (.importRest start) room tokens := by
  intro _ admitted
  rw [Rule.read_importRest]
  refine (makesTrees_name .moduleName rfl admitted).andThen ?_
  intro module' behind _ named admitted
  split
  · refine (makesTrees_name .aliasName rfl
      (admitted.sublist (List.drop_sublist 1 behind))).andThen ?_
    intro newName after _ renamed admitted
    refine (makesTrees_importedFrom trivial admitted).made_from ?_
    intro _ _
    exact ⟨named, fun _ member => by cases member; exact renamed⟩
  · refine (makesTrees_importedFrom trivial admitted).made_from ?_
    intro _ _
    exact ⟨named, fun _ member => by cases member⟩

/-- The members of a class are trees, and junk between them leaves no trace. -/
theorem makesTrees_members
    (constructor? : Option Constructor)
    (methods : List Method)
    (below : TreesBelow vocabulary final (.members constructor? methods) tokens) :
    MakesTrees vocabulary final (.members constructor? methods) room tokens := by
  intro given admitted
  have finished : (Rule.members constructor? methods).Made vocabulary
      (constructor?, methods.reverse) :=
    ⟨given.1, fun node member => given.2 node (List.mem_reverse.mp member)⟩
  cases tokens with
  | nil =>
      rw [Rule.read_members_nil]
      exact ⟨finished, admitted⟩
  | cons token behind =>
      rw [Rule.read_members_cons]
      split
      · exact ⟨finished, admitted⟩
      · split
        · refine (below.behind .procedure room trivial admitted.tail).andThen ?_
          intro parts after found known later
          have fewer := Rule.read_shorter rfl found
          refine below.shorter (.members _ methods) room after (Nat.lt_succ_of_lt fewer)
            ⟨?_, given.2⟩ later
          intro _ member
          cases member
          exact known
        · split
          · next isMethod =>
              refine (below.behind .procedure room trivial admitted.tail).andThen ?_
              intro parts after found known later
              have fewer := Rule.read_shorter rfl found
              exact below.shorter (.members constructor? (_ :: methods)) room after
                (Nat.lt_succ_of_lt fewer)
                ⟨given.1, List.forall_mem_cons.mpr
                  ⟨⟨admitted.head.name isMethod, known⟩, given.2⟩⟩ later
          · exact below.behind (.members constructor? methods) room given admitted.tail

/-- A class is a tree. -/
theorem makesTrees_classRest
    (start : Token)
    (below : TreesBelow vocabulary final (.classRest start) tokens) :
    MakesTrees vocabulary final (.classRest start) room tokens := by
  intro _ admitted
  rw [Rule.read_classRest]
  refine (makesTrees_name .className rfl admitted).andThen ?_
  intro class' behind found named admitted
  have first := Rule.read_shorter rfl found
  refine (makesTrees_expect .openWord trivial admitted).andThen ?_
  intro _ inner found _ admitted
  have second := Rule.read_shorter rfl found
  refine (below.shorter (.members none []) room inner (Nat.lt_trans second first)
    (by simp [Rule.Given]) admitted).andThen ?_
  intro _ after _ known admitted
  refine (makesTrees_expect .closeWord trivial admitted).made_from ?_
  intro _ _
  exact ⟨named, known⟩

/-- A type is a tree, external or not. -/
theorem makesTrees_typeRest (start : Token) :
    MakesTrees vocabulary final (.typeRest start) room tokens := by
  intro _ admitted
  rw [Rule.read_typeRest]
  refine (makesTrees_name .typeName rfl admitted).andThen ?_
  intro type' behind _ named admitted
  refine (makesTrees_expect .equalWord trivial admitted).andThen ?_
  intro equal after _ _ admitted
  cases after with
  | nil =>
      exact ⟨named, admitted⟩
  | cons word rest =>
      simp only [externalWord]
      split
      · exact ⟨named, admitted.tail⟩
      · exact ⟨named, admitted⟩

/-- A constant is a tree. -/
theorem makesTrees_constantRest
    (start : Token)
    (below : TreesBelow vocabulary final (.constantRest start) tokens) :
    MakesTrees vocabulary final (.constantRest start) room tokens := by
  intro _ admitted
  rw [Rule.read_constantRest]
  refine (makesTrees_name .constantName rfl admitted).andThen ?_
  intro identifier behind found named admitted
  have first := Rule.read_shorter rfl found
  refine (makesTrees_expect .equalWord trivial admitted).andThen ?_
  intro _ after found _ admitted
  have second := Rule.read_shorter rfl found
  refine (below.shorter .expression room after (Nat.lt_trans second first) trivial
    admitted).made_from ?_
  intro _ value
  exact ⟨named, value⟩

/-- A function is a tree. -/
theorem makesTrees_functionRest
    (start : Token)
    (below : TreesBelow vocabulary final (.functionRest start) tokens) :
    MakesTrees vocabulary final (.functionRest start) room tokens := by
  intro _ admitted
  rw [Rule.read_functionRest]
  refine (makesTrees_name .functionName rfl admitted).andThen ?_
  intro identifier behind found named admitted
  refine (below.shorter .procedure room behind (Rule.read_shorter rfl found) trivial
    admitted).made_from ?_
  intro _ known
  exact ⟨named, known⟩

/-- A clause does not return. -/
theorem isReturn_of_isClause {node : Statement} (clause : node.isClause) :
    node.isReturn = false := by
  cases node <;> first | rfl | exact Bool.noConfusion clause

/-- A statement that does not start with the word for returning does not return. -/
theorem makesTrees_topStatement
    {token : Token}
    {behind : List Token}
    (noReturn : token.kind ≠ .returnKeyword)
    (below : TreesBelow vocabulary final .declaration (token :: behind))
    (admitted : vocabulary.AdmitsAll (token :: behind)) :
    Yields vocabulary (fun node => node.isReturn = false ∧ node.Over vocabulary)
      (Rule.statement.read final room (token :: behind)) := by
  rw [Rule.read_statement_cons, if_neg noReturn]
  repeat' split
  · exact (below.behind (.variableRest token) room trivial admitted.tail).weaken
      fun _ known => ⟨isReturn_of_isClause known.1, known.2⟩
  · exact below.behind (.forRest token) room trivial admitted.tail
  · exact below.behind (.whileRest token) room trivial admitted.tail
  · exact below.behind (.ifRest token) room trivial admitted.tail
  · exact (below.same .simple room (by decide) trivial admitted).weaken
      fun _ known => ⟨isReturn_of_isClause known.1, known.2⟩

/-- A declaration is a tree, whichever keyword it begins with. -/
theorem makesTrees_declaration
    (below : TreesBelow vocabulary final .declaration tokens) :
    MakesTrees vocabulary final .declaration room tokens := by
  intro _ admitted
  cases tokens with
  | nil =>
      rw [Rule.read_declaration_nil]
      refine (below.same .simple room (by decide) trivial admitted).made_from ?_
      intro _ known
      exact ⟨isReturn_of_isClause known.1, known.2⟩
  | cons token behind =>
      rw [Rule.read_declaration_cons]
      repeat' split
      · exact below.behind (.importRest token) room trivial admitted.tail
      · exact below.behind (.classRest token) room trivial admitted.tail
      · exact below.behind (.typeRest token) room trivial admitted.tail
      · exact below.behind (.constantRest token) room trivial admitted.tail
      · exact below.behind (.functionRest token) room trivial admitted.tail
      · refine (below.same .simple room (by decide) trivial admitted).made_from ?_
        intro _ known
        exact ⟨isReturn_of_isClause known.1, known.2⟩
      · next noReturn =>
          exact (makesTrees_topStatement noReturn below admitted).made_from
            fun _ known => known

/-- Every rule makes a tree without gaps over the vocabulary of its tokens. -/
theorem makesTrees
    (isOpen : vocabulary.IsOpen)
    (rule : Rule α)
    (room : Nat)
    (tokens : List Token) :
    MakesTrees vocabulary final rule room tokens := by
  refine Rule.induction (motive := fun inner room later =>
    MakesTrees vocabulary final inner room later) ?_ rule room tokens
  intro _ rule room tokens below
  cases rule with
  | expect expectation => exact makesTrees_expect expectation
  | name expectation => exact makesTrees_name expectation
  | moreParameters known => exact makesTrees_moreParameters known below
  | parameters => exact makesTrees_parameters below
  | className callee => exact makesTrees_className callee below
  | rawCode start => exact makesTrees_rawCode isOpen start
  | expression => exact makesTrees_expression below
  | moreTerms left => exact makesTrees_moreTerms left below
  | comparison => exact makesTrees_comparison below
  | moreComparisons left => exact makesTrees_moreComparisons left below
  | chain => exact makesTrees_chain below
  | moreLinks target => exact makesTrees_moreLinks target below
  | items closing => exact makesTrees_items closing below
  | moreItems known => exact makesTrees_moreItems known below
  | primary => exact makesTrees_primary isOpen below
  | procedure => exact makesTrees_procedure below
  | block => exact makesTrees_block below
  | loopBlock => exact makesTrees_loopBlock below
  | blockRest opening closing => exact makesTrees_blockRest opening closing below
  | statements known => exact makesTrees_statements known below
  | statement => exact makesTrees_statement below
  | simple => exact makesTrees_simple below
  | variableRest start => exact makesTrees_variableRest start below
  | condition => exact makesTrees_condition below
  | ifRest start => exact makesTrees_ifRest start below
  | whileRest start => exact makesTrees_whileRest start below
  | clause closing => exact makesTrees_clause closing below
  | optionalTest => exact makesTrees_optionalTest below
  | forRest start => exact makesTrees_forRest start below
  | importedFrom => exact makesTrees_importedFrom
  | importRest start => exact makesTrees_importRest start
  | members constructor? methods => exact makesTrees_members constructor? methods below
  | classRest start => exact makesTrees_classRest start below
  | typeRest start => exact makesTrees_typeRest start
  | constantRest start => exact makesTrees_constantRest start below
  | functionRest start => exact makesTrees_functionRest start below
  | declaration => exact makesTrees_declaration below

end MakesTrees

/-- The declarations of a program are over the vocabulary of its tokens. -/
theorem declarations_over
    {vocabulary : Vocabulary}
    (isOpen : vocabulary.IsOpen)
    (final : Token)
    (room : Nat)
    (known : List Declaration)
    (tokens : List Token) :
    vocabulary.AdmitsAll tokens →
      (∀ declaration ∈ known, declaration.Over vocabulary) →
      ∀ all, declarations final room known tokens = .ok all →
        ∀ declaration ∈ all, declaration.Over vocabulary := by
  induction known, tokens using declarations_induction final room with
  | finished known =>
      intro _ given all found
      rw [declarations_nil] at found
      cases found
      exact fun declaration member => given declaration (List.mem_reverse.mp member)
  | step known token behind inductionHypothesis =>
      intro admitted given all found
      have made : Yields vocabulary (Declaration.Over vocabulary)
          (Rule.declaration.read final room (token :: behind)) :=
        makesTrees isOpen .declaration room (token :: behind) trivial admitted
      rw [declarations_cons] at found
      cases reading : Rule.declaration.read final room (token :: behind) with
      | error error =>
          rw [reading] at found
          cases found
      | ok parsed =>
          obtain ⟨next, rest⟩ := parsed
          rw [reading] at found made
          exact inductionHypothesis next rest reading
            (made.2.sublist (skipNewlines_suffix rest).sublist)
            (List.forall_mem_cons.mpr ⟨made.1, given⟩) all found

/-- A parsed program has no gaps, and its words are spellings of its tokens. -/
theorem programWithin_over
    {vocabulary : Vocabulary}
    (isOpen : vocabulary.IsOpen)
    {room : Nat}
    {tokens : List Token}
    {program : Program}
    (admitted : vocabulary.AdmitsAll tokens)
    (found : programWithin room tokens = .ok program) :
    program.Over vocabulary := by
  have proper : vocabulary.AdmitsAll (skipNewlines (properTokens tokens)) :=
    admitted.sublist
      ((skipNewlines_suffix _).sublist.trans (List.takeWhile_sublist _))
  unfold programWithin at found
  cases reading :
      declarations (finalToken tokens) room [] (skipNewlines (properTokens tokens)) with
  | error error =>
      rw [reading] at found
      cases found
  | ok all =>
      rw [reading] at found
      cases found
      exact declarations_over isOpen _ room [] _ proper (by simp) all reading

end Grammar

end FrenchNim
