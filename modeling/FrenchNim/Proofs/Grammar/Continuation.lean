import Mathlib.Data.List.TakeWhile
import FrenchNim.Proofs.Grammar.Induction
import FrenchNim.Proofs.Syntax.Relocation

namespace FrenchNim

/-!
# Reading a token list in another place and with more tokens behind it

The grammar never looks at positions and never looks back. So a rule that is
given moved tokens makes a moved tree, and a rule that is done before the end of
its tokens makes the same of them if more tokens follow. The two facts are one
statement about all rules. A rule that runs into the end of the input is the
exception: nothing is known of it if tokens are added.
-/

/-- The error is that the input has ended. -/
def GrammarError.isAtEnd : GrammarError → Bool
  | .unfit error => error.gotKind = .endOfInput
  | .tooDeep _ => false

namespace Grammar

/-- A rule has used up all tokens, or it stops because there are no more. -/
def Parsed.AtEnd (parsed : Parsed α) : Prop :=
  match parsed with
  | .ok (_, rest) => rest = []
  | .error error => error.isAtEnd = true

/-- The last token, if there is any, is a line break. -/
def EndsLine (tokens : List Token) : Prop :=
  ∀ last ∈ tokens.getLast?, last.kind = .newline

/-- The last tokens of a list end where the list ends. -/
theorem EndsLine.suffix
    {tokens rest : List Token}
    (ends : EndsLine tokens)
    (behind : rest <:+ tokens) :
    EndsLine rest := by
  obtain ⟨front, rfl⟩ := behind
  intro last isLast
  refine ends last ?_
  rw [List.getLast?_append, Option.mem_def.mp isLast]
  rfl

/--
A token list is moved and other tokens are put behind it. The token that ends
the input is replaced too.
-/
structure Extension where
  move : Position → Position
  final : Token
  tail : List Token
  newFinal : Token
  isEnd : final.kind = .endOfInput

namespace Extension

variable (extension : Extension)

/-- Nothing is added: the tokens and their end are only moved. -/
def Exact : Prop :=
  extension.tail = [] ∧ extension.newFinal = extension.final.relocate extension.move

/-- The moved tokens with the other tokens behind them. -/
def extend (tokens : List Token) : List Token :=
  tokens.map (·.relocate extension.move) ++ extension.tail

/-- Tokens from which a rule may start: there are some, up to a line break, if more are added. -/
def Open (tokens : List Token) : Prop :=
  extension.Exact ∨ tokens ≠ [] ∧ EndsLine tokens

/-- The second outcome is the first one moved and extended, unless the first is at the end. -/
def Follows (moved : α → α) (parsed later : Parsed α) : Prop :=
  match parsed with
  | .ok (value, rest) =>
      ¬extension.Exact ∧ rest = [] ∨
        extension.Open rest ∧ later = .ok (moved value, extension.extend rest)
  | .error error =>
      ¬extension.Exact ∧ error.isAtEnd = true ∨ later = .error (error.relocate extension.move)

variable {extension}

@[simp] theorem extend_cons (token : Token) (tokens : List Token) :
    extension.extend (token :: tokens) =
      token.relocate extension.move :: extension.extend tokens :=
  rfl

/-- A rule may start without tokens only if none are added. -/
theorem Open.exact (isOpen : extension.Open []) : extension.Exact :=
  isOpen.resolve_right fun ⟨present, _⟩ => present rfl

/-- If none are added, there are none behind the end. -/
theorem Exact.extend_nil (exact : extension.Exact) : extension.extend [] = [] := by
  simp [extend, exact.1]

/-- A token that is no line break has tokens behind it. -/
theorem Open.behind
    {token : Token}
    {tokens : List Token}
    (isOpen : extension.Open (token :: tokens))
    (noBreak : token.kind ≠ .newline) :
    extension.Open tokens := by
  rcases isOpen with exact | ⟨-, ends⟩
  · exact .inl exact
  · refine .inr ⟨?_, ends.suffix (List.suffix_cons _ _)⟩
    rintro rfl
    exact noBreak (ends token rfl)

theorem Open.behindKind
    {token : Token}
    {tokens : List Token}
    {kind : TokenKind}
    (isOpen : extension.Open (token :: tokens))
    (isKind : token.kind = kind)
    (noBreak : kind ≠ .newline) :
    extension.Open tokens :=
  isOpen.behind (isKind ▸ noBreak)

/-- What is left of a token list is open, or it is at its end. -/
theorem Open.suffix
    {tokens rest : List Token}
    (isOpen : extension.Open tokens)
    (behind : rest <:+ tokens) :
    ¬extension.Exact ∧ rest = [] ∨ extension.Open rest := by
  by_cases exact : extension.Exact
  · exact .inr (.inl exact)
  · rcases isOpen with isExact | ⟨-, ends⟩
    · exact (exact isExact).elim
    · by_cases empty : rest = []
      · exact .inl ⟨exact, empty⟩
      · exact .inr (.inr ⟨empty, ends.suffix behind⟩)

/-- The token a rule looks at is moved. -/
theorem Open.current
    {tokens : List Token}
    (isOpen : extension.Open tokens) :
    current extension.newFinal (extension.extend tokens) =
      (current extension.final tokens).relocate extension.move := by
  cases tokens with
  | nil =>
      rw [isOpen.exact.extend_nil]
      exact isOpen.exact.2
  | cons token behind =>
      rfl

/-- Line breaks are skipped in the moved tokens too, unless there is nothing else. -/
theorem extend_skipNewlines
    {tokens : List Token}
    (isOpen : extension.Open (skipNewlines tokens)) :
    skipNewlines (extension.extend tokens) = extension.extend (skipNewlines tokens) := by
  induction tokens with
  | nil =>
      have exact : extension.Exact := Open.exact isOpen
      rw [exact.extend_nil]
      exact exact.extend_nil.symm
  | cons token behind inductionHypothesis =>
      unfold skipNewlines at *
      rw [extend_cons, List.dropWhile_cons, List.dropWhile_cons]
      rw [List.dropWhile_cons] at isOpen
      by_cases isBreak : token.kind = .newline
      · simp only [isBreak, decide_true, if_true, Token.relocate_kind] at isOpen ⊢
        exact inductionHypothesis isOpen
      · simp only [isBreak, decide_false, Token.relocate_kind]
        rfl

namespace Follows

variable {moved : α → α} {lastMoved : β → β}

/-- Nothing is claimed of a rule that is at the end of its tokens. -/
theorem of_atEnd
    {parsed later : Parsed α}
    (extended : ¬extension.Exact)
    (atEnd : parsed.AtEnd) :
    extension.Follows moved parsed later := by
  rcases parsed with error | ⟨value, rest⟩
  · exact .inl ⟨extended, atEnd⟩
  · exact .inl ⟨extended, atEnd⟩

/-- A success follows another one whose value is moved. -/
theorem ok
    {value newValue : α}
    {rest : List Token}
    (isOpen : extension.Open rest)
    (agree : moved value = newValue) :
    extension.Follows moved (.ok (value, rest)) (.ok (newValue, extension.extend rest)) :=
  .inr ⟨isOpen, by rw [agree]⟩

theorem ok_nil
    {value newValue : α}
    (isOpen : extension.Open [])
    (agree : moved value = newValue) :
    extension.Follows moved (.ok (value, [])) (.ok (newValue, [])) :=
  .inr ⟨isOpen, by rw [agree, isOpen.exact.extend_nil]⟩

/-- Sequences of rules follow each other if their parts do. -/
theorem andThen
    {first second : Parsed α}
    {next later : α → List Token → Parsed β}
    (follows : extension.Follows moved first second)
    (atEnd : ∀ value, (next value []).AtEnd)
    (continued : ∀ value rest, first = .ok (value, rest) → extension.Open rest →
      extension.Follows lastMoved (next value rest)
        (later (moved value) (extension.extend rest))) :
    extension.Follows lastMoved (first.andThen next) (second.andThen later) := by
  rcases first with error | ⟨value, rest⟩
  · rcases follows with atEnd | rfl
    · exact .inl atEnd
    · exact .inr rfl
  · rcases follows with ⟨extended, rfl⟩ | ⟨isOpen, rfl⟩
    · exact of_atEnd extended (atEnd value)
    · exact continued value rest rfl isOpen

/-- Results may be changed in the same way on both sides. -/
theorem made_from
    {first second : Parsed α}
    {make remake : α → β}
    (follows : extension.Follows moved first second)
    (agree : ∀ value, lastMoved (make value) = remake (moved value)) :
    extension.Follows lastMoved
      (first.andThen fun value rest => .ok (make value, rest))
      (second.andThen fun value rest => .ok (remake value, rest)) := by
  refine follows.andThen (fun _ => rfl) ?_
  intro value rest _ isOpen
  exact ok isOpen (agree value)

/-- Both sides take the same branch. -/
theorem ite
    {condition : Prop}
    [Decidable condition]
    {first second firstLater secondLater : Parsed α}
    (yes : condition → extension.Follows moved first firstLater)
    (no : ¬condition → extension.Follows moved second secondLater) :
    extension.Follows moved
      (if condition then first else second)
      (if condition then firstLater else secondLater) := by
  by_cases holds : condition
  · rw [if_pos holds, if_pos holds]
    exact yes holds
  · rw [if_neg holds, if_neg holds]
    exact no holds

end Follows

end Extension

namespace Rule

/-- The rule that goes on with the moved part of an unfinished tree. -/
def relocate (move : Position → Position) : Rule α → Rule α
  | expect expectation => expect expectation
  | name expectation => name expectation
  | moreParameters read => moreParameters (read.map (·.relocate move))
  | parameters => parameters
  | className callee => className (callee.relocate move)
  | rawCode start => rawCode (start.relocate move)
  | expression => expression
  | moreTerms left => moreTerms (left.relocate move)
  | comparison => comparison
  | moreComparisons left => moreComparisons (left.relocate move)
  | chain => chain
  | moreLinks target => moreLinks (target.relocate move)
  | items closing => items closing
  | moreItems read => moreItems (read.map (·.relocate move))
  | primary => primary
  | procedure => procedure
  | block => block
  | loopBlock => loopBlock
  | blockRest opening closing => blockRest (opening.relocate move) closing
  | statements read => statements (read.map (·.relocate move))
  | statement => statement
  | simple => simple
  | variableRest start => variableRest (start.relocate move)
  | condition => condition
  | ifRest start => ifRest (start.relocate move)
  | whileRest start => whileRest (start.relocate move)
  | clause closing => clause closing
  | optionalTest => optionalTest
  | forRest start => forRest (start.relocate move)
  | importedFrom => importedFrom
  | importRest start => importRest (start.relocate move)
  | members constructor? methods =>
      members (constructor?.map (·.relocate move)) (methods.map (·.relocate move))
  | classRest start => classRest (start.relocate move)
  | typeRest start => typeRest (start.relocate move)
  | constantRest start => constantRest (start.relocate move)
  | functionRest start => functionRest (start.relocate move)
  | declaration => declaration

/-- Move what a rule makes. -/
def moved (move : Position → Position) : Rule α → α → α
  | expect _ | importedFrom => fun token => token.relocate move
  | name _ => fun identifier => identifier.relocate move
  | moreParameters _ | parameters => fun names => names.map (·.relocate move)
  | className _ | rawCode _ | expression | moreTerms _ | comparison | moreComparisons _ | chain
  | moreLinks _ | primary | condition | optionalTest => fun value => value.relocate move
  | items _ => fun found => (found.1.map (·.relocate move), found.2.relocate move)
  | moreItems _ => fun values => values.map (·.relocate move)
  | procedure => fun found => (found.1.map (·.relocate move), found.2.relocate move)
  | block | loopBlock | blockRest _ _ => fun body => body.relocate move
  | statements _ => fun nodes => nodes.map (·.relocate move)
  | statement | simple | variableRest _ | ifRest _ | whileRest _ | clause _ | forRest _ =>
      fun node => node.relocate move
  | members _ _ => fun found =>
      (found.1.map (·.relocate move), found.2.map (·.relocate move))
  | importRest _ | classRest _ | typeRest _ | constantRest _ | functionRest _ | declaration =>
      fun node => node.relocate move

end Rule

/-- A rule makes the same of a moved and extended token list. -/
def FollowsItself (extension : Extension) (rule : Rule α) (room : Nat) (tokens : List Token) :
    Prop :=
  extension.Open tokens →
    extension.Follows (rule.moved extension.move)
      (rule.read extension.final room tokens)
      ((rule.relocate extension.move).read extension.newFinal room (extension.extend tokens))

section FollowsItself

variable {extension : Extension} {room : Nat} {tokens : List Token}

attribute [local simp] Rule.level Rule.relocate Rule.moved Expectation.kind

/-- Everything below a rule makes the same of moved and extended tokens. -/
abbrev FollowsBelow (extension : Extension) (rule : Rule α) (tokens : List Token) : Prop :=
  rule.Below (fun inner room later => FollowsItself extension inner room later) tokens

/-- A missing token is missing because the input has ended. -/
theorem expect_atEnd
    (expectation : Expectation)
    (next : Token → List Token → Parsed α) :
    (((Rule.expect expectation).read extension.final room []).andThen next).AtEnd := by
  simp [Parsed.AtEnd, GrammarError.isAtEnd, GrammarError.expected, extension.isEnd]

/-- No rule asks for a line break. -/
theorem expectation_kind_ne_newline (expectation : Expectation) :
    expectation.kind ≠ .newline := by
  cases expectation <;> simp

/-- The next token is the same one, moved. -/
theorem followsItself_expect (expectation : Expectation) :
    FollowsItself extension (.expect expectation) room tokens := by
  intro isOpen
  cases tokens with
  | nil =>
      obtain ⟨-, final⟩ := isOpen.exact
      rw [isOpen.exact.extend_nil, Rule.relocate, Rule.read_expect_nil, Rule.read_expect_nil,
        final]
      exact .inr rfl
  | cons token behind =>
      rw [Extension.extend_cons, Rule.relocate, Rule.read_expect_cons, Rule.read_expect_cons]
      refine .ite (fun fits => .ok (isOpen.behind ?_) rfl) (fun _ => .inr rfl)
      rw [fits]
      exact expectation_kind_ne_newline expectation

/-- A token of the expected kind has tokens behind it. -/
theorem open_of_expect
    {expectation : Expectation}
    {token : Token}
    {rest : List Token}
    (isOpen : extension.Open tokens)
    (found : (Rule.expect expectation).read extension.final room tokens = .ok (token, rest)) :
    extension.Open rest := by
  cases tokens with
  | nil =>
      cases found
  | cons first behind =>
      rw [Rule.read_expect_cons] at found
      split at found
      · next fits =>
          cases found
          refine isOpen.behind ?_
          rw [fits]
          exact expectation_kind_ne_newline expectation
      · cases found

/-- What follows an expected token is never at the end. -/
theorem follows_expect
    {lastMoved : β → β}
    {next later : Token → List Token → Parsed β}
    (expectation : Expectation)
    (isOpen : extension.Open tokens)
    (continued : ∀ token rest,
      (Rule.expect expectation).read extension.final room tokens = .ok (token, rest) →
      extension.Open rest →
      extension.Follows lastMoved (next token rest)
        (later (token.relocate extension.move) (extension.extend rest))) :
    extension.Follows lastMoved
      (((Rule.expect expectation).read extension.final room tokens).andThen next)
      (((Rule.expect expectation).read extension.newFinal room
        (extension.extend tokens)).andThen later) := by
  have follows : extension.Follows _
      ((Rule.expect expectation).read extension.final room tokens) _ :=
    followsItself_expect expectation isOpen
  cases found : (Rule.expect expectation).read extension.final room tokens with
  | error error =>
      rw [found] at follows
      rcases follows with atEnd | same
      · exact .inl atEnd
      · rw [Rule.relocate] at same
        rw [same]
        exact .inr rfl
  | ok parsed =>
      obtain ⟨token, rest⟩ := parsed
      have isOpenBehind := open_of_expect isOpen found
      rw [found] at follows
      rcases follows with ⟨extended, rfl⟩ | ⟨-, same⟩
      · exact (extended isOpenBehind.exact).elim
      · rw [Rule.relocate] at same
        rw [same]
        exact continued token rest found isOpenBehind

/-- What follows an expected name is never at the end. -/
theorem follows_name
    {lastMoved : β → β}
    {next later : Identifier → List Token → Parsed β}
    (expectation : Expectation)
    (isOpen : extension.Open tokens)
    (continued : ∀ identifier rest, rest.length < tokens.length → extension.Open rest →
      extension.Follows lastMoved (next identifier rest)
        (later (identifier.relocate extension.move) (extension.extend rest))) :
    extension.Follows lastMoved
      (((Rule.name expectation).read extension.final room tokens).andThen next)
      (((Rule.name expectation).read extension.newFinal room
        (extension.extend tokens)).andThen later) := by
  rw [Rule.read_name, Rule.read_name, Parsed.andThen_assoc, Parsed.andThen_assoc]
  refine follows_expect expectation isOpen ?_
  intro token rest found isOpen
  exact continued (identifierOf token) rest (Rule.read_shorter rfl found) isOpen

/-- A name is moved with its token. -/
theorem followsItself_name (expectation : Expectation) :
    FollowsItself extension (.name expectation) room tokens := by
  intro isOpen
  rw [Rule.relocate, Rule.read_name, Rule.read_name]
  exact (followsItself_expect expectation isOpen).made_from fun _ => rfl

/-- Whether a comma follows is seen before any added token. -/
theorem followsItself_moreParameters
    (known : List Identifier)
    (below : FollowsBelow extension (.moreParameters known) tokens) :
    FollowsItself extension (.moreParameters known) room tokens := by
  intro isOpen
  rw [Rule.relocate, Rule.read_moreParameters, Rule.read_moreParameters]
  refine follows_name .parameterName isOpen ?_
  intro parameter rest fewer isOpen
  cases rest with
  | nil =>
      rw [isOpen.exact.extend_nil]
      exact .ok_nil isOpen (by simp)
  | cons comma behind =>
      refine .ite (fun isComma => ?_) (fun _ => .ok isOpen (by simp))
      exact below.shorter (.moreParameters (parameter :: known)) room behind
        (Nat.lt_of_succ_lt fewer) (isOpen.behindKind isComma (by decide))

/-- A parameter list is read up to its parenthesis. -/
theorem followsItself_parameters
    (below : FollowsBelow extension .parameters tokens) :
    FollowsItself extension .parameters room tokens := by
  intro isOpen
  rw [Rule.relocate, Rule.read_parameters, Rule.read_parameters]
  refine follows_expect .parenOpen isOpen ?_
  intro _ inner found isOpen
  rw [isOpen.current]
  refine .ite (fun _ => ?_) (fun _ => ?_)
  · exact (followsItself_expect .parenClose isOpen).made_from fun _ => rfl
  · refine (below.shorter (.moreParameters []) room inner (Rule.read_shorter rfl found)
      isOpen).andThen (fun _ => expect_atEnd _ _) ?_
    intro names behind _ isOpen
    exact (followsItself_expect .parenClose isOpen).made_from fun _ => rfl

/-- The name of a class goes on behind a dot, moved or not. -/
theorem followsItself_className
    (callee : Expression)
    (below : FollowsBelow extension (.className callee) tokens) :
    FollowsItself extension (.className callee) room tokens := by
  intro isOpen
  cases tokens with
  | nil =>
      rw [isOpen.exact.extend_nil, Rule.relocate, Rule.read_className_nil,
        Rule.read_className_nil]
      exact .ok_nil isOpen rfl
  | cons dot behind =>
      rw [Extension.extend_cons, Rule.relocate, Rule.read_className_cons,
        Rule.read_className_cons]
      refine .ite (fun isDot => ?_) (fun _ => .ok isOpen rfl)
      refine follows_name .propertyName (isOpen.behindKind isDot (by decide)) ?_
      intro property rest fewer isOpen
      exact below.shorter (.className (.member callee property false)) room rest
        (Nat.lt_succ_of_lt fewer) isOpen

/-- Embedded code that is closed before the end is the same in the extended tokens. -/
theorem collect_extend
    (nesting : Nat)
    (wanted : Bool)
    (code : String)
    (last : Token)
    (tokens : List Token)
    (isOpen : extension.Open (RawCode.collect nesting wanted code last tokens).rest) :
    RawCode.collect nesting wanted code (last.relocate extension.move)
        (extension.extend tokens) =
      ⟨(RawCode.collect nesting wanted code last tokens).code,
        (RawCode.collect nesting wanted code last tokens).last.relocate extension.move,
        extension.extend (RawCode.collect nesting wanted code last tokens).rest⟩ := by
  fun_induction RawCode.collect nesting wanted code last tokens with
  | case1 nesting wanted code last =>
      rw [isOpen.exact.extend_nil]
      rfl
  | case2 nesting wanted code last token rest written isParen inductionHypothesis =>
      rw [Extension.extend_cons, RawCode.collect.eq_def]
      simp only [Token.relocate_kind, isParen]
      exact inductionHypothesis isOpen
  | case3 wanted code last token rest isParen =>
      rw [Extension.extend_cons, RawCode.collect.eq_def]
      simp only [Token.relocate_kind, isParen]
  | case4 wanted code last token rest written isParen nesting inductionHypothesis =>
      rw [Extension.extend_cons, RawCode.collect.eq_def]
      simp only [Token.relocate_kind, isParen]
      exact inductionHypothesis isOpen
  | case5 nesting wanted code last token rest written noOpen noClose inductionHypothesis =>
      rw [Extension.extend_cons, RawCode.collect.eq_def]
      simp only [Token.relocate_kind]
      exact inductionHypothesis isOpen

/-- Embedded code is captured up to its parenthesis, and otherwise runs into the end. -/
theorem followsItself_rawCode (start : Token) :
    FollowsItself extension (.rawCode start) room tokens := by
  intro isOpen
  rw [Rule.relocate, Rule.read_rawCode, Rule.read_rawCode]
  refine follows_expect .nimWord isOpen ?_
  intro _ behind _ isOpen
  refine follows_expect .parenOpen isOpen ?_
  intro opening inner _ isOpen
  rcases isOpen.suffix (collect_rest_suffix 0 false "" opening inner) with
    ⟨extended, atEnd⟩ | isOpen
  · exact .of_atEnd extended atEnd
  · simp only [RawCode.capture, collect_extend 0 false "" opening inner isOpen]
    exact .ok isOpen rfl

/-- The room for nested expressions does not depend on positions. -/
theorem followsItself_expression
    (below : FollowsBelow extension .expression tokens) :
    FollowsItself extension .expression room tokens := by
  intro isOpen
  rw [Rule.relocate]
  cases room with
  | zero =>
      rw [Rule.read_expression_zero, Rule.read_expression_zero, isOpen.current]
      exact .inr rfl
  | succ room =>
      rw [Rule.read_expression_succ, Rule.read_expression_succ]
      refine (below.same .comparison room (by decide) isOpen).andThen
        (fun _ => by simp [Parsed.AtEnd]) ?_
      intro left behind found isOpen
      exact below.shorter (.moreTerms left) room behind (Rule.read_shorter rfl found) isOpen

/-- A sum goes on behind an additive operator, moved or not. -/
theorem followsItself_moreTerms
    (left : Expression)
    (below : FollowsBelow extension (.moreTerms left) tokens) :
    FollowsItself extension (.moreTerms left) room tokens := by
  intro isOpen
  rw [Rule.relocate]
  cases tokens with
  | nil =>
      rw [isOpen.exact.extend_nil, Rule.read_moreTerms_nil, Rule.read_moreTerms_nil]
      exact .ok_nil isOpen rfl
  | cons operator operands =>
      rw [Extension.extend_cons, Rule.read_moreTerms_cons, Rule.read_moreTerms_cons]
      refine .ite (fun isAdditive => ?_) (fun _ => .ok isOpen rfl)
      have isOpen := isOpen.behind (by rintro isBreak; rw [isBreak] at isAdditive; cases isAdditive)
      refine (below.behind .comparison room isOpen).andThen (fun _ => by simp [Parsed.AtEnd]) ?_
      intro right behind found isOpen
      have fewer := Rule.read_shorter rfl found
      exact below.shorter (.moreTerms (.binary operator.literal left right)) room behind
        (Nat.lt_succ_of_lt fewer) isOpen

/-- A row of comparisons follows itself if its parts do. -/
theorem followsItself_comparison
    (below : FollowsBelow extension .comparison tokens) :
    FollowsItself extension .comparison room tokens := by
  intro isOpen
  rw [Rule.relocate, Rule.read_comparison, Rule.read_comparison]
  refine (below.same .chain room (by decide) isOpen).andThen (fun _ => by simp [Parsed.AtEnd]) ?_
  intro left behind found isOpen
  exact below.shorter (.moreComparisons left) room behind (Rule.read_shorter rfl found) isOpen

/-- A row of comparisons goes on behind such an operator, moved or not. -/
theorem followsItself_moreComparisons
    (left : Expression)
    (below : FollowsBelow extension (.moreComparisons left) tokens) :
    FollowsItself extension (.moreComparisons left) room tokens := by
  intro isOpen
  rw [Rule.relocate]
  cases tokens with
  | nil =>
      rw [isOpen.exact.extend_nil, Rule.read_moreComparisons_nil, Rule.read_moreComparisons_nil]
      exact .ok_nil isOpen rfl
  | cons operator operands =>
      rw [Extension.extend_cons, Rule.read_moreComparisons_cons, Rule.read_moreComparisons_cons]
      refine .ite (fun isComparison => ?_) (fun _ => .ok isOpen rfl)
      have isOpen := isOpen.behind (by
        rintro isBreak
        rw [isBreak] at isComparison
        cases isComparison)
      refine (below.behind .chain room isOpen).andThen (fun _ => by simp [Parsed.AtEnd]) ?_
      intro right behind found isOpen
      have fewer := Rule.read_shorter rfl found
      exact below.shorter (.moreComparisons (.binary operator.literal left right)) room behind
        (Nat.lt_succ_of_lt fewer) isOpen

/-- A chain follows itself if its parts do. -/
theorem followsItself_chain
    (below : FollowsBelow extension .chain tokens) :
    FollowsItself extension .chain room tokens := by
  intro isOpen
  rw [Rule.relocate, Rule.read_chain, Rule.read_chain]
  refine (below.same .primary room (by decide) isOpen).andThen (fun _ => by simp [Parsed.AtEnd]) ?_
  intro head behind found isOpen
  exact below.shorter (.moreLinks head) room behind (Rule.read_shorter rfl found) isOpen

/-- Which link comes next is told by the kind of its sign. -/
theorem followsItself_moreLinks
    (target : Expression)
    (below : FollowsBelow extension (.moreLinks target) tokens) :
    FollowsItself extension (.moreLinks target) room tokens := by
  intro isOpen
  rw [Rule.relocate]
  cases tokens with
  | nil =>
      rw [isOpen.exact.extend_nil, Rule.read_moreLinks_nil, Rule.read_moreLinks_nil]
      exact .ok_nil isOpen rfl
  | cons link inner =>
      rw [Extension.extend_cons, Rule.read_moreLinks_cons, Rule.read_moreLinks_cons]
      refine .ite (fun isMember => ?_) (fun _ => ?_)
      · have isOpen := isOpen.behind (by rcases isMember with isDot | isArrow <;> simp [*])
        refine follows_name .propertyName isOpen ?_
        intro property behind fewer isOpen
        exact below.shorter (.moreLinks (.member target property (link.kind = .arrow))) room
          behind (Nat.lt_succ_of_lt fewer) isOpen
      refine .ite (fun isCall => ?_) (fun _ => ?_)
      · refine (below.behind (.items .parenClose) room
          (isOpen.behindKind isCall (by decide))).andThen (fun _ => by simp [Parsed.AtEnd]) ?_
        intro arguments behind found isOpen
        have fewer := Rule.read_shorter rfl found
        have follows := below.shorter
          (.moreLinks (.invocation target arguments.1 arguments.2.span.last)) room behind
          (Nat.lt_succ_of_lt fewer) isOpen
        simpa [Expression.relocate] using follows
      refine .ite (fun isIndex => ?_) (fun _ => .ok isOpen rfl)
      refine (below.behind .expression room
        (isOpen.behindKind isIndex (by decide))).andThen (fun _ => expect_atEnd _ _) ?_
      intro position behind found isOpen
      have fewer := Rule.read_shorter rfl found
      refine follows_expect .bracketClose isOpen ?_
      intro closing after found isOpen
      have fewer' := Rule.read_shorter rfl found
      exact below.shorter (.moreLinks (.index target position closing.span.last)) room after
        (by simp only [List.length_cons]; omega) isOpen

/-- The items are read up to their closing sign. -/
theorem followsItself_items
    (closing : Expectation)
    (below : FollowsBelow extension (.items closing) tokens) :
    FollowsItself extension (.items closing) room tokens := by
  intro isOpen
  rw [Rule.relocate, Rule.read_items, Rule.read_items, isOpen.current]
  refine .ite (fun _ => ?_) (fun _ => ?_)
  · exact (followsItself_expect closing isOpen).made_from fun _ => rfl
  · refine (below.same (.moreItems []) room (by simp) isOpen).andThen
      (fun _ => expect_atEnd _ _) ?_
    intro values behind _ isOpen
    exact (followsItself_expect closing isOpen).made_from fun _ => rfl

/-- Whether a comma follows the items is seen before any added token. -/
theorem followsItself_moreItems
    (known : List Expression)
    (below : FollowsBelow extension (.moreItems known) tokens) :
    FollowsItself extension (.moreItems known) room tokens := by
  intro isOpen
  rw [Rule.relocate, Rule.read_moreItems, Rule.read_moreItems]
  refine (below.same .expression room (by simp) isOpen).andThen (fun _ => rfl) ?_
  intro value behind found isOpen
  have fewer := Rule.read_shorter rfl found
  cases behind with
  | nil =>
      rw [isOpen.exact.extend_nil]
      exact .ok_nil isOpen (by simp)
  | cons comma after =>
      refine .ite (fun isComma => ?_) (fun _ => .ok isOpen (by simp))
      exact below.shorter (.moreItems (value :: known)) room after
        (Nat.lt_of_succ_lt fewer) (isOpen.behindKind isComma (by decide))

/-- A token that is an expression by itself is one in any place. -/
theorem leaf?_relocate (move : Position → Position) (token : Token) :
    leaf? (token.relocate move) = (leaf? token).map (·.relocate move) := by
  unfold leaf?
  rw [Token.relocate_kind]
  split
  all_goals rfl

/-- A line break is no expression. -/
theorem kind_ne_newline_of_leaf?
    {token : Token}
    {leaf : Expression}
    (isLeaf : leaf? token = some leaf) :
    token.kind ≠ .newline := by
  intro isBreak
  rw [leaf?, isBreak] at isLeaf
  cases isLeaf

/-- Which primary expression comes next is told by the kind of its first token. -/
theorem followsItself_primary
    (below : FollowsBelow extension .primary tokens) :
    FollowsItself extension .primary room tokens := by
  intro isOpen
  rw [Rule.relocate]
  cases tokens with
  | nil =>
      obtain ⟨-, final⟩ := isOpen.exact
      rw [isOpen.exact.extend_nil, Rule.read_primary_nil, Rule.read_primary_nil, final]
      exact .inr rfl
  | cons token behind =>
      have leafLater := leaf?_relocate extension.move token
      rw [Extension.extend_cons]
      cases isLeaf : leaf? token with
      | some leaf =>
          rw [isLeaf] at leafLater
          rw [Rule.read_primary_leaf _ _ isLeaf, Rule.read_primary_leaf _ _ leafLater]
          exact .ok (isOpen.behind (kind_ne_newline_of_leaf? isLeaf)) rfl
      | none =>
          rw [isLeaf] at leafLater
          rw [Rule.read_primary_cons _ _ isLeaf, Rule.read_primary_cons _ _ leafLater]
          refine .ite (fun isNew => ?_) (fun _ => ?_)
          · refine follows_name .className (isOpen.behindKind isNew (by decide)) ?_
            intro class' after fewer isOpen
            refine (below.shorter (.className (.identifier class')) room after
              (Nat.lt_succ_of_lt fewer) isOpen).andThen (fun _ => expect_atEnd _ _) ?_
            intro callee inner found isOpen
            have notLonger := Rule.read_notLonger _ found
            refine follows_expect .parenOpen isOpen ?_
            intro _ inside found isOpen
            have fewer' := Rule.read_shorter rfl found
            refine (below.shorter (.items .parenClose) room inside
              (by simp only [List.length_cons]; omega) isOpen).made_from ?_
            intro found
            simp [Expression.relocate, Span.relocate]
          refine .ite (fun isFunction => ?_) (fun _ => ?_)
          · exact (below.behind .procedure room
              (isOpen.behindKind isFunction (by decide))).made_from fun _ => rfl
          refine .ite (fun isRaw => ?_) (fun _ => ?_)
          · exact followsItself_rawCode token (isOpen.behindKind isRaw (by decide))
          refine .ite (fun isArray => ?_) (fun _ => ?_)
          · refine (below.behind (.items .bracketClose) room
              (isOpen.behindKind isArray (by decide))).made_from ?_
            intro found
            simp [Expression.relocate, Span.relocate]
          refine .ite (fun isParen => ?_) (fun _ => .inr rfl)
          refine (below.behind .expression room
            (isOpen.behindKind isParen (by decide))).andThen (fun _ => expect_atEnd _ _) ?_
          intro inner after found isOpen
          exact (followsItself_expect .parenClose isOpen).made_from fun _ => rfl

/-- A missing block is missing because the input has ended. -/
theorem block_atEnd (next : Block → List Token → Parsed α) :
    ((Rule.block.read extension.final room []).andThen next).AtEnd := by
  rw [Rule.read_block, Parsed.andThen_assoc]
  exact expect_atEnd _ _

/-- The body of a loop is missing because the input has ended. -/
theorem loopBlock_atEnd (next : Block → List Token → Parsed α) :
    ((Rule.loopBlock.read extension.final room []).andThen next).AtEnd := by
  simp [Parsed.AtEnd, GrammarError.isAtEnd, GrammarError.expected, extension.isEnd]

/-- A procedure follows itself if its parts do. -/
theorem followsItself_procedure
    (below : FollowsBelow extension .procedure tokens) :
    FollowsItself extension .procedure room tokens := by
  intro isOpen
  rw [Rule.relocate, Rule.read_procedure, Rule.read_procedure]
  refine (below.same .parameters room (by decide) isOpen).andThen (fun _ => block_atEnd _) ?_
  intro names behind found isOpen
  exact (below.shorter .block room behind (Rule.read_shorter rfl found) isOpen).made_from
    fun _ => rfl

/-- A block is read from its word on. -/
theorem followsItself_block
    (below : FollowsBelow extension .block tokens) :
    FollowsItself extension .block room tokens := by
  intro isOpen
  rw [Rule.relocate, Rule.read_block, Rule.read_block]
  refine follows_expect .openWord isOpen ?_
  intro opening inner found isOpen
  exact below.shorter (.blockRest opening .closeWord) room inner (Rule.read_shorter rfl found)
    isOpen

/-- The body of a loop is read from its brace or its word on. -/
theorem followsItself_loopBlock
    (below : FollowsBelow extension .loopBlock tokens) :
    FollowsItself extension .loopBlock room tokens := by
  intro isOpen
  rw [Rule.relocate]
  cases tokens with
  | nil =>
      obtain ⟨-, final⟩ := isOpen.exact
      rw [isOpen.exact.extend_nil, Rule.read_loopBlock_nil, Rule.read_loopBlock_nil, final]
      exact .inr rfl
  | cons opening inner =>
      rw [Extension.extend_cons, Rule.read_loopBlock_cons, Rule.read_loopBlock_cons]
      refine .ite (fun isBrace => ?_) (fun _ => ?_)
      · exact below.behind (.blockRest opening .braceClose) room
          (isOpen.behindKind isBrace (by decide))
      refine .ite (fun isOpening => ?_) (fun _ => .inr rfl)
      exact below.behind (.blockRest opening .closeWord) room
        (isOpen.behindKind isOpening (by decide))

/-- The statements of a block are read up to its closing, over the same line breaks. -/
theorem followsItself_blockRest
    (opening : Token)
    (closing : Expectation)
    (below : FollowsBelow extension (.blockRest opening closing) tokens) :
    FollowsItself extension (.blockRest opening closing) room tokens := by
  intro isOpen
  rw [Rule.relocate, Rule.read_blockRest, Rule.read_blockRest]
  rcases isOpen.suffix (skipNewlines_suffix tokens) with ⟨extended, atEnd⟩ | isOpen
  · refine .of_atEnd extended ?_
    rw [atEnd, Rule.read_statements_nil, Parsed.andThen_ok]
    exact expect_atEnd _ _
  · rw [Extension.extend_skipNewlines isOpen]
    refine (below.tighter (.statements []) room (skipNewlines tokens) (by simp)
      (length_skipNewlines_le tokens) isOpen).andThen (fun _ => expect_atEnd _ _) ?_
    intro body behind _ isOpen
    refine (followsItself_expect closing isOpen).made_from ?_
    intro token
    simp [Block.relocate, Span.relocate]

/-- The statements go on until a token that ends them, moved or not. -/
theorem followsItself_statements
    (known : List Statement)
    (below : FollowsBelow extension (.statements known) tokens) :
    FollowsItself extension (.statements known) room tokens := by
  intro isOpen
  rw [Rule.relocate]
  cases tokens with
  | nil =>
      rw [isOpen.exact.extend_nil, Rule.read_statements_nil, Rule.read_statements_nil]
      exact .ok_nil isOpen (by simp)
  | cons token behind =>
      rw [Extension.extend_cons, Rule.read_statements_cons, Rule.read_statements_cons]
      refine .ite (fun _ => .ok isOpen (by simp)) (fun _ => ?_)
      refine (below.same .statement room (by simp) isOpen).andThen
        (fun _ => by simp [Parsed.AtEnd, skipNewlines]) ?_
      intro next after found isOpen
      have fewer := Rule.read_shorter rfl found
      have skipped := length_skipNewlines_le after
      rcases isOpen.suffix (skipNewlines_suffix after) with ⟨extended, atEnd⟩ | isOpen
      · refine .of_atEnd extended ?_
        rw [atEnd, Rule.read_statements_nil]
        rfl
      · rw [Extension.extend_skipNewlines isOpen]
        exact below.shorter (.statements (next :: known)) room (skipNewlines after) (by omega)
          isOpen

/-- Which statement comes next is told by the kind of its first token. -/
theorem followsItself_statement
    (below : FollowsBelow extension .statement tokens) :
    FollowsItself extension .statement room tokens := by
  intro isOpen
  rw [Rule.relocate]
  cases tokens with
  | nil =>
      have follows := below.same .simple room (by decide) isOpen
      rw [isOpen.exact.extend_nil] at follows ⊢
      rw [Rule.read_statement_nil, Rule.read_statement_nil]
      exact follows
  | cons token behind =>
      rw [Extension.extend_cons, Rule.read_statement_cons, Rule.read_statement_cons]
      refine .ite (fun isReturn => ?_) (fun _ => ?_)
      · exact (below.behind .expression room
          (isOpen.behindKind isReturn (by decide))).made_from fun _ => rfl
      refine .ite (fun isVariable => ?_) (fun _ => ?_)
      · exact below.behind (.variableRest token) room
          (isOpen.behindKind isVariable (by decide))
      refine .ite (fun isFor => ?_) (fun _ => ?_)
      · exact below.behind (.forRest token) room (isOpen.behindKind isFor (by decide))
      refine .ite (fun isWhile => ?_) (fun _ => ?_)
      · exact below.behind (.whileRest token) room (isOpen.behindKind isWhile (by decide))
      refine .ite (fun isIf => ?_) (fun _ => ?_)
      · exact below.behind (.ifRest token) room (isOpen.behindKind isIf (by decide))
      exact below.same .simple room (by decide) isOpen

/-- Whether a statement is an assignment is seen before any added token. -/
theorem followsItself_simple
    (below : FollowsBelow extension .simple tokens) :
    FollowsItself extension .simple room tokens := by
  intro isOpen
  rw [Rule.relocate, Rule.read_simple, Rule.read_simple]
  refine (below.same .expression room (by decide) isOpen).andThen (fun _ => rfl) ?_
  intro target behind found isOpen
  have fewer := Rule.read_shorter rfl found
  cases behind with
  | nil =>
      rw [isOpen.exact.extend_nil]
      exact .ok_nil isOpen rfl
  | cons equal after =>
      refine .ite (fun isEqual => ?_) (fun _ => .ok isOpen rfl)
      exact (below.shorter .expression room after (Nat.lt_of_succ_lt fewer)
        (isOpen.behindKind isEqual (by decide))).made_from fun _ => rfl

/-- The declaration of a variable follows itself if its parts do. -/
theorem followsItself_variableRest
    (start : Token)
    (below : FollowsBelow extension (.variableRest start) tokens) :
    FollowsItself extension (.variableRest start) room tokens := by
  intro isOpen
  rw [Rule.relocate, Rule.read_variableRest, Rule.read_variableRest]
  refine follows_name .variableName isOpen ?_
  intro identifier behind fewer isOpen
  refine follows_expect .equalWord isOpen ?_
  intro _ after found isOpen
  have fewer' := Rule.read_shorter rfl found
  exact (below.shorter .expression room after (by omega) isOpen).made_from fun _ => rfl

/-- A condition is read up to its parenthesis. -/
theorem followsItself_condition
    (below : FollowsBelow extension .condition tokens) :
    FollowsItself extension .condition room tokens := by
  intro isOpen
  rw [Rule.relocate, Rule.read_condition, Rule.read_condition]
  refine follows_expect .parenOpen isOpen ?_
  intro _ inner found isOpen
  refine (below.shorter .expression room inner (Rule.read_shorter rfl found) isOpen).andThen
    (fun _ => expect_atEnd _ _) ?_
  intro test behind _ isOpen
  exact (followsItself_expect .parenClose isOpen).made_from fun _ => rfl

/-- Whether a second block follows is seen before any added token. -/
theorem followsItself_ifRest
    (start : Token)
    (below : FollowsBelow extension (.ifRest start) tokens) :
    FollowsItself extension (.ifRest start) room tokens := by
  intro isOpen
  rw [Rule.relocate, Rule.read_ifRest, Rule.read_ifRest]
  refine (below.same .condition room (by simp) isOpen).andThen
    (fun _ => block_atEnd _) ?_
  intro test behind found isOpen
  have fewer := Rule.read_shorter rfl found
  refine (below.shorter .block room behind fewer isOpen).andThen (fun _ => rfl) ?_
  intro consequent after found isOpen
  have fewer' := Rule.read_shorter rfl found
  cases after with
  | nil =>
      rw [isOpen.exact.extend_nil]
      exact .ok_nil isOpen rfl
  | cons word inner =>
      refine .ite (fun isElse => ?_) (fun _ => .ok isOpen rfl)
      simp only [List.length_cons] at fewer'
      exact (below.shorter .block room inner (by omega)
        (isOpen.behindKind isElse (by decide))).made_from fun _ => rfl

/-- A `while` loop follows itself if its parts do. -/
theorem followsItself_whileRest
    (start : Token)
    (below : FollowsBelow extension (.whileRest start) tokens) :
    FollowsItself extension (.whileRest start) room tokens := by
  intro isOpen
  rw [Rule.relocate, Rule.read_whileRest, Rule.read_whileRest]
  refine (below.same .condition room (by simp) isOpen).andThen
    (fun _ => loopBlock_atEnd _) ?_
  intro test behind found isOpen
  exact (below.shorter .loopBlock room behind (Rule.read_shorter rfl found) isOpen).made_from
    fun _ => rfl

/-- Whether a clause is missing is told by the kind of the token that closes it. -/
theorem followsItself_clause
    (closing : TokenKind)
    (below : FollowsBelow extension (.clause closing) tokens) :
    FollowsItself extension (.clause closing) room tokens := by
  intro isOpen
  rw [Rule.relocate]
  cases tokens with
  | nil =>
      have follows := below.same .simple room (by simp) isOpen
      rw [isOpen.exact.extend_nil] at follows ⊢
      rw [Rule.read_clause_nil, Rule.read_clause_nil]
      exact follows
  | cons token behind =>
      rw [Extension.extend_cons, Rule.read_clause_cons, Rule.read_clause_cons]
      refine .ite (fun _ => .ok isOpen rfl) (fun _ => ?_)
      refine .ite (fun isVariable => ?_) (fun _ => ?_)
      · exact below.behind (.variableRest token) room
          (isOpen.behindKind isVariable (by decide))
      exact below.same .simple room (by simp) isOpen

/-- Whether the test is missing is told by the kind of the next token. -/
theorem followsItself_optionalTest
    (below : FollowsBelow extension .optionalTest tokens) :
    FollowsItself extension .optionalTest room tokens := by
  intro isOpen
  rw [Rule.relocate, Rule.read_optionalTest, Rule.read_optionalTest, isOpen.current]
  refine .ite (fun _ => .ok isOpen rfl) (fun _ => ?_)
  exact below.same .expression room (by decide) isOpen

/-- A `for` loop follows itself if its clauses and its body do. -/
theorem followsItself_forRest
    (start : Token)
    (below : FollowsBelow extension (.forRest start) tokens) :
    FollowsItself extension (.forRest start) room tokens := by
  intro isOpen
  rw [Rule.relocate, Rule.read_forRest, Rule.read_forRest]
  refine follows_expect .parenOpen isOpen ?_
  intro _ inner found isOpen
  have opened := Rule.read_shorter rfl found
  refine (below.shorter (.clause .semicolon) room inner opened isOpen).andThen
    (fun _ => expect_atEnd _ _) ?_
  intro initial behindInitial found isOpen
  have first := Rule.read_notLonger _ found
  refine follows_expect .semicolon isOpen ?_
  intro _ beforeTest found isOpen
  have second := Rule.read_shorter rfl found
  refine (below.shorter .optionalTest room beforeTest (by omega) isOpen).andThen
    (fun _ => expect_atEnd _ _) ?_
  intro test behindTest found isOpen
  have third := Rule.read_notLonger _ found
  refine follows_expect .semicolon isOpen ?_
  intro _ beforeIncrement found isOpen
  have fourth := Rule.read_shorter rfl found
  refine (below.shorter (.clause .parenClose) room beforeIncrement (by omega) isOpen).andThen
    (fun _ => expect_atEnd _ _) ?_
  intro increment behindIncrement found isOpen
  have fifth := Rule.read_notLonger _ found
  refine follows_expect .parenClose isOpen ?_
  intro _ beforeBody found isOpen
  have sixth := Rule.read_shorter rfl found
  exact (below.shorter .loopBlock room beforeBody (by omega) isOpen).made_from fun _ => rfl

/-- The path of an import is moved with its token. -/
theorem followsItself_importedFrom :
    FollowsItself extension .importedFrom room tokens := by
  intro isOpen
  rw [Rule.relocate, Rule.read_importedFrom, Rule.read_importedFrom]
  refine follows_expect .fromWord isOpen ?_
  intro _ behind _ isOpen
  exact followsItself_expect .importedPath isOpen

/-- Whether an import has a second name is told by the kind of the next token. -/
theorem followsItself_importRest (start : Token) :
    FollowsItself extension (.importRest start) room tokens := by
  intro isOpen
  rw [Rule.relocate, Rule.read_importRest, Rule.read_importRest]
  refine follows_name .moduleName isOpen ?_
  intro module' behind _ isOpen
  rw [isOpen.current]
  refine .ite (fun isAs => ?_) (fun _ => ?_)
  · cases behind with
    | nil =>
        have isEnd := extension.isEnd
        rw [current, List.headD_nil, isEnd] at isAs
        cases isAs
    | cons word after =>
        refine follows_name .aliasName (isOpen.behindKind isAs (by decide)) ?_
        intro newName rest _ isOpen
        exact (followsItself_importedFrom isOpen).made_from fun _ => rfl
  · exact (followsItself_importedFrom isOpen).made_from fun _ => rfl

/-- The members of a class are read up to its closing word. -/
theorem followsItself_members
    (constructor? : Option Constructor)
    (methods : List Method)
    (below : FollowsBelow extension (.members constructor? methods) tokens) :
    FollowsItself extension (.members constructor? methods) room tokens := by
  intro isOpen
  rw [Rule.relocate]
  cases tokens with
  | nil =>
      rw [isOpen.exact.extend_nil, Rule.read_members_nil, Rule.read_members_nil]
      exact .ok_nil isOpen (by simp)
  | cons token behind =>
      rw [Extension.extend_cons, Rule.read_members_cons, Rule.read_members_cons]
      refine .ite (fun _ => .ok isOpen (by simp)) (fun _ => ?_)
      refine .ite (fun isConstructor => ?_) (fun _ => ?_)
      · refine (below.behind .procedure room
          (isOpen.behindKind isConstructor (by decide))).andThen
            (fun _ => by simp [Parsed.AtEnd]) ?_
        intro found after reading isOpen
        have fewer := Rule.read_shorter rfl reading
        exact below.shorter (.members (some ⟨found.1, found.2, token.span.first⟩) methods) room
          after (Nat.lt_succ_of_lt fewer) isOpen
      refine .ite (fun isMethod => ?_) (fun _ => ?_)
      · refine (below.behind .procedure room
          (isOpen.behindKind isMethod (by decide))).andThen
            (fun _ => by simp [Parsed.AtEnd]) ?_
        intro found after reading isOpen
        have fewer := Rule.read_shorter rfl reading
        exact below.shorter
          (.members constructor? (⟨identifierOf token, found.1, found.2⟩ :: methods)) room after
          (Nat.lt_succ_of_lt fewer) isOpen
      -- A skipped token may be the last line break.
      rcases isOpen.suffix (List.suffix_cons token behind) with ⟨extended, rfl⟩ | isOpen
      · refine .of_atEnd extended ?_
        rw [Rule.read_members_nil]
        rfl
      · exact below.behind (.members constructor? methods) room isOpen

/-- A class is read up to its closing word. -/
theorem followsItself_classRest
    (start : Token)
    (below : FollowsBelow extension (.classRest start) tokens) :
    FollowsItself extension (.classRest start) room tokens := by
  intro isOpen
  rw [Rule.relocate, Rule.read_classRest, Rule.read_classRest]
  refine follows_name .className isOpen ?_
  intro class' behind fewer isOpen
  refine follows_expect .openWord isOpen ?_
  intro _ inner found isOpen
  have fewer' := Rule.read_shorter rfl found
  refine (below.shorter (.members none []) room inner (by omega) isOpen).andThen
    (fun _ => expect_atEnd _ _) ?_
  intro found after _ isOpen
  exact (followsItself_expect .closeWord isOpen).made_from fun _ => rfl

/-- Whether a type is external is told by the kind of the next token. -/
theorem followsItself_typeRest (start : Token) :
    FollowsItself extension (.typeRest start) room tokens := by
  intro isOpen
  rw [Rule.relocate, Rule.read_typeRest, Rule.read_typeRest]
  refine follows_name .typeName isOpen ?_
  intro type' behind _ isOpen
  refine follows_expect .equalWord isOpen ?_
  intro equal after _ isOpen
  cases after with
  | nil =>
      rw [isOpen.exact.extend_nil]
      exact .ok_nil isOpen rfl
  | cons word rest =>
      rw [Extension.extend_cons, externalWord, externalWord]
      by_cases isExternal : word.kind = .externalKeyword
      · rw [if_pos isExternal, if_pos (show (word.relocate _).kind = _ from isExternal)]
        exact .ok (isOpen.behindKind isExternal (by decide)) rfl
      · rw [if_neg isExternal, if_neg (show ¬(word.relocate _).kind = _ from isExternal)]
        exact .ok isOpen rfl

/-- A constant follows itself if its parts do. -/
theorem followsItself_constantRest
    (start : Token)
    (below : FollowsBelow extension (.constantRest start) tokens) :
    FollowsItself extension (.constantRest start) room tokens := by
  intro isOpen
  rw [Rule.relocate, Rule.read_constantRest, Rule.read_constantRest]
  refine follows_name .constantName isOpen ?_
  intro identifier behind fewer isOpen
  refine follows_expect .equalWord isOpen ?_
  intro _ after found isOpen
  have fewer' := Rule.read_shorter rfl found
  exact (below.shorter .expression room after (by omega) isOpen).made_from fun _ => rfl

/-- A function follows itself if its parts do. -/
theorem followsItself_functionRest
    (start : Token)
    (below : FollowsBelow extension (.functionRest start) tokens) :
    FollowsItself extension (.functionRest start) room tokens := by
  intro isOpen
  rw [Rule.relocate, Rule.read_functionRest, Rule.read_functionRest]
  refine follows_name .functionName isOpen ?_
  intro identifier behind fewer isOpen
  exact (below.shorter .procedure room behind fewer isOpen).made_from fun _ => rfl

/-- Which declaration comes next is told by the kind of its first token. -/
theorem followsItself_declaration
    (below : FollowsBelow extension .declaration tokens) :
    FollowsItself extension .declaration room tokens := by
  intro isOpen
  rw [Rule.relocate]
  cases tokens with
  | nil =>
      have follows := below.same .simple room (by decide) isOpen
      rw [isOpen.exact.extend_nil] at follows ⊢
      rw [Rule.read_declaration_nil, Rule.read_declaration_nil]
      exact follows.made_from fun _ => rfl
  | cons token behind =>
      rw [Extension.extend_cons, Rule.read_declaration_cons, Rule.read_declaration_cons]
      refine .ite (fun isImport => ?_) (fun _ => ?_)
      · exact followsItself_importRest token (isOpen.behindKind isImport (by decide))
      refine .ite (fun isClass => ?_) (fun _ => ?_)
      · exact below.behind (.classRest token) room (isOpen.behindKind isClass (by decide))
      refine .ite (fun isType => ?_) (fun _ => ?_)
      · exact followsItself_typeRest token (isOpen.behindKind isType (by decide))
      refine .ite (fun isConstant => ?_) (fun _ => ?_)
      · exact below.behind (.constantRest token) room
          (isOpen.behindKind isConstant (by decide))
      refine .ite (fun isFunction => ?_) (fun _ => ?_)
      · exact below.behind (.functionRest token) room
          (isOpen.behindKind isFunction (by decide))
      refine .ite (fun _ => ?_) (fun _ => ?_)
      · exact (below.same .simple room (by decide) isOpen).made_from fun _ => rfl
      · exact (below.same .statement room (by decide) isOpen).made_from fun _ => rfl

/-- Every rule makes the same of a moved and extended token list. -/
theorem followsItself (rule : Rule α) (room : Nat) (tokens : List Token) :
    FollowsItself extension rule room tokens := by
  refine Rule.induction (motive := fun inner room later =>
    FollowsItself extension inner room later) ?_ rule room tokens
  intro _ rule room tokens below
  cases rule with
  | expect expectation => exact followsItself_expect expectation
  | name expectation => exact followsItself_name expectation
  | moreParameters known => exact followsItself_moreParameters known below
  | parameters => exact followsItself_parameters below
  | className callee => exact followsItself_className callee below
  | rawCode start => exact followsItself_rawCode start
  | expression => exact followsItself_expression below
  | moreTerms left => exact followsItself_moreTerms left below
  | comparison => exact followsItself_comparison below
  | moreComparisons left => exact followsItself_moreComparisons left below
  | chain => exact followsItself_chain below
  | moreLinks target => exact followsItself_moreLinks target below
  | items closing => exact followsItself_items closing below
  | moreItems known => exact followsItself_moreItems known below
  | primary => exact followsItself_primary below
  | procedure => exact followsItself_procedure below
  | block => exact followsItself_block below
  | loopBlock => exact followsItself_loopBlock below
  | blockRest opening closing => exact followsItself_blockRest opening closing below
  | statements known => exact followsItself_statements known below
  | statement => exact followsItself_statement below
  | simple => exact followsItself_simple below
  | variableRest start => exact followsItself_variableRest start below
  | condition => exact followsItself_condition below
  | ifRest start => exact followsItself_ifRest start below
  | whileRest start => exact followsItself_whileRest start below
  | clause closing => exact followsItself_clause closing below
  | optionalTest => exact followsItself_optionalTest below
  | forRest start => exact followsItself_forRest start below
  | importedFrom => exact followsItself_importedFrom
  | importRest start => exact followsItself_importRest start
  | members constructor? methods => exact followsItself_members constructor? methods below
  | classRest start => exact followsItself_classRest start below
  | typeRest start => exact followsItself_typeRest start
  | constantRest start => exact followsItself_constantRest start below
  | functionRest start => exact followsItself_functionRest start below
  | declaration => exact followsItself_declaration below

end FollowsItself

/-! ## Programs -/

/-- The outcome for moved and extended declarations, unless reading came to the end. -/
def Extension.ProgramFollows
    (extension : Extension)
    (outcome later : Except GrammarError (List Declaration)) : Prop :=
  match outcome with
  | .ok all => ¬extension.Exact ∨ later = .ok (all.map (·.relocate extension.move))
  | .error error =>
      ¬extension.Exact ∧ error.isAtEnd = true ∨ later = .error (error.relocate extension.move)

/-- A program is the same in moved and extended tokens, or it came to their end. -/
theorem declarations_follow
    (extension : Extension)
    (room : Nat)
    (known : List Declaration)
    (tokens : List Token) :
    extension.Exact ∨ EndsLine tokens →
      extension.ProgramFollows
        (declarations extension.final room known tokens)
        (declarations extension.newFinal room (known.map (·.relocate extension.move))
          (extension.extend tokens)) := by
  induction known, tokens using declarations_induction extension.final room with
  | finished known =>
      intro _
      rw [declarations_nil]
      by_cases exact : extension.Exact
      · rw [exact.extend_nil, declarations_nil]
        exact .inr (by simp)
      · exact .inl exact
  | step known token behind inductionHypothesis =>
      intro ends
      have isOpen : extension.Open (token :: behind) :=
        ends.imp_right fun ends => ⟨by simp, ends⟩
      have follows := followsItself .declaration room (token :: behind) isOpen
      rw [declarations_cons, Extension.extend_cons, declarations_cons,
        ← Extension.extend_cons]
      rw [Rule.relocate] at follows
      cases reading : Rule.declaration.read extension.final room (token :: behind) with
      | error error =>
          rw [reading] at follows
          rcases follows with atEnd | same
          · exact .inl atEnd
          · rw [same]
            exact .inr rfl
      | ok parsed =>
          obtain ⟨next, rest⟩ := parsed
          have later := inductionHypothesis next rest reading
          rw [reading] at follows
          rcases follows with ⟨extended, rfl⟩ | ⟨isOpen, same⟩
          · simp only [skipNewlines, List.dropWhile_nil, declarations_nil]
            exact .inl extended
          · rw [same]
            -- Behind the last declaration there may be line breaks only.
            rcases isOpen.suffix (skipNewlines_suffix rest) with ⟨extended, atEnd⟩ | isOpen
            · simp only [atEnd, declarations_nil]
              exact .inl extended
            · simp only [Extension.extend_skipNewlines isOpen]
              exact later (isOpen.imp_right And.right)

/-- The token that ends a list has the kind of the end. -/
theorem finalToken_kind (tokens : List Token) : (finalToken tokens).kind = .endOfInput := by
  unfold finalToken
  split
  · next token found =>
      simpa using List.find?_some found
  · rfl

/-- No token in front of the end is an end. -/
theorem kind_of_mem_properTokens
    {tokens : List Token}
    {token : Token}
    (member : token ∈ properTokens tokens) :
    token.kind ≠ .endOfInput := by
  simpa using List.mem_takeWhile_imp member

/-- Without positions, a list is ended by the same token. -/
theorem finalToken_erase (tokens : List Token) :
    finalToken (tokens.map Token.erase) = (finalToken tokens).erase := by
  unfold finalToken
  have found : (tokens.map Token.erase).find? (·.kind = .endOfInput) =
      (tokens.find? (·.kind = .endOfInput)).map Token.erase := by
    rw [List.find?_map]
    rfl
  rw [found]
  cases tokens.find? (·.kind = .endOfInput) with
  | some token =>
      rfl
  | none =>
      rw [List.getLast?_map]
      cases tokens.getLast? <;> rfl

/-- Without positions, the tokens before the end are the same. -/
theorem properTokens_erase (tokens : List Token) :
    properTokens (tokens.map Token.erase) = (properTokens tokens).map Token.erase := by
  unfold properTokens
  rw [List.takeWhile_map]
  rfl

/-- Positions do not matter to the grammar: moved tokens are read as moved declarations. -/
theorem declarations_relocate
    (move : Position → Position)
    {final : Token}
    (isEnd : final.kind = .endOfInput)
    (room : Nat)
    (tokens : List Token) :
    declarations (final.relocate move) room [] (skipNewlines (tokens.map (·.relocate move))) =
      match declarations final room [] (skipNewlines tokens) with
      | .ok all => .ok (all.map (·.relocate move))
      | .error error => .error (error.relocate move) := by
  let extension : Extension :=
    { move := move
      final := final
      tail := []
      newFinal := final.relocate move
      isEnd := isEnd }
  have exact : extension.Exact := ⟨rfl, rfl⟩
  have extended : ∀ rest, extension.extend rest = rest.map (·.relocate move) :=
    fun rest => List.append_nil _
  have follows := declarations_follow extension room [] (skipNewlines tokens) (.inl exact)
  rw [← Extension.extend_skipNewlines (.inl exact), extended, List.map_nil] at follows
  cases outcome : declarations final room [] (skipNewlines tokens) with
  | error error =>
      simp only [extension, outcome] at follows
      exact follows.resolve_left fun atEnd => atEnd.1 exact
  | ok all =>
      simp only [extension, outcome] at follows
      exact follows.resolve_left fun inexact => inexact exact

/-- The grammar makes the same of tokens without positions. -/
theorem programWithin_erase (room : Nat) (tokens : List Token) :
    programWithin room (tokens.map Token.erase) =
      match programWithin room tokens with
      | .ok program => .ok program.erase
      | .error error => .error error.erase := by
  have moved := declarations_relocate (fun _ => .zero) (finalToken_kind tokens) room
    (properTokens tokens)
  unfold programWithin
  rw [finalToken_erase, properTokens_erase]
  refine (congrArg (· >>= _) moved).trans ?_
  cases declarations (finalToken tokens) room [] (skipNewlines (properTokens tokens)) <;> rfl

/-- What stands behind tokens that do not end the input does not change them. -/
theorem properTokens_append
    {front : List Token}
    (unended : ∀ token ∈ front, token.kind ≠ .endOfInput)
    (behind : List Token) :
    properTokens (front ++ behind) = front ++ properTokens behind := by
  unfold properTokens
  rw [List.takeWhile_append_of_pos fun token member => by simp [unended token member]]

/-- Tokens and their end make the program of the tokens. -/
theorem programWithin_concat
    {tokens : List Token}
    {final : Token}
    (room : Nat)
    (unended : ∀ token ∈ tokens, token.kind ≠ .endOfInput)
    (isEnd : final.kind = .endOfInput) :
    programWithin room (tokens ++ [final]) =
      (declarations final room [] (skipNewlines tokens)).map Program.mk := by
  have found : finalToken (tokens ++ [final]) = final := by
    have noneFound : tokens.find? (·.kind = .endOfInput) = none :=
      List.find?_eq_none.mpr fun token member => by simp [unended token member]
    simp [finalToken, List.find?_append, noneFound, isEnd]
  have whole : properTokens (tokens ++ [final]) = tokens := by
    rw [properTokens_append unended]
    simp [properTokens, isEnd]
  rw [programWithin, found, whole]
  cases declarations final room [] (skipNewlines tokens) <;> rfl

/--
An error that is not the end of the input is final. Whatever follows the last
line break, the error stays the same.
-/
theorem programWithin_append
    {room : Nat}
    {front : List Token}
    {final : Token}
    {error : GrammarError}
    (unended : ∀ token ∈ front, token.kind ≠ .endOfInput)
    (isEnd : final.kind = .endOfInput)
    (ends : EndsLine front)
    (failed : programWithin room (front ++ [final]) = .error error)
    (isFinal : error.isAtEnd = false)
    (behind : List Token) :
    programWithin room (front ++ behind) = .error error := by
  let extension : Extension :=
    { move := id
      final := final
      tail := properTokens behind
      newFinal := finalToken (front ++ behind)
      isEnd := isEnd }
  have extended : ∀ rest, extension.extend rest = rest ++ properTokens behind :=
    fun rest => by simp [Extension.extend, extension]
  have outcome : declarations final room [] (skipNewlines front) = .error error := by
    rw [programWithin_concat room unended isEnd] at failed
    cases outcome : declarations final room [] (skipNewlines front) with
    | ok all =>
        rw [outcome] at failed
        cases failed
    | error other =>
        rw [outcome] at failed
        cases failed
        rfl
  have endsBehind := ends.suffix (skipNewlines_suffix front)
  have isOpen : extension.Open (skipNewlines front) := by
    refine .inr ⟨?_, endsBehind⟩
    intro empty
    rw [empty, declarations_nil] at outcome
    cases outcome
  have follows := declarations_follow extension room [] (skipNewlines front) (.inr endsBehind)
  rw [← Extension.extend_skipNewlines isOpen, extended, List.map_nil] at follows
  simp only [extension, outcome] at follows
  rw [programWithin, properTokens_append unended]
  rcases follows with ⟨-, atEnd⟩ | same
  · rw [isFinal] at atEnd
    cases atEnd
  · rw [same, GrammarError.relocate_id]
    rfl

end Grammar

end FrenchNim
