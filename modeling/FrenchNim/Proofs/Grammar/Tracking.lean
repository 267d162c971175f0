import FrenchNim.Proofs.Grammar.Goals
import FrenchNim.Proofs.Grammar.Seam

namespace FrenchNim

/-!
# The rules of the grammar and their goals

Every rule of the grammar has goals, and what it makes of its tokens is what the
goals make of their kinds. If the rule succeeds, its goals pass the token behind
everything that was read. If it fails, the error is about the first token that
the goals refuse; all tokens before it were fine. So errors stand at the start of
the token they complain about, and where the error stands depends on kinds only.
-/

/-- The error stands at the token and shows it, unless it is only about the nesting. -/
def GrammarError.Blames (error : GrammarError) (token : Token) : Prop :=
  match error with
  | .unfit error =>
      error.got = token.literal ∧ error.gotKind = token.kind ∧ error.position = token.span.first
  | .tooDeep position => position = token.span.first

namespace Grammar

/-- A missed token is blamed on the token that stands in its place. -/
theorem blames_expected (expectation : Expectation) (token : Token) :
    (GrammarError.expected expectation token).Blames token :=
  ⟨rfl, rfl, rfl⟩

/-- An unexpected token is blamed itself. -/
theorem blames_unexpected (token : Token) : (GrammarError.unexpected token).Blames token :=
  ⟨rfl, rfl, rfl⟩

/--
The goals take all tokens before the rest of them, and then make the given step of
the token that comes next.
-/
def Leads (final : Token) (goals : List Goal) (tokens rest : List Token) (step : Step) : Prop :=
  ∃ used left, tokens = used ++ rest ∧ Goal.await goals (used.map (·.kind)) = some left ∧
    Goal.meetAll (current final rest).kind left = step

namespace Leads

variable {final : Token} {goals others : List Goal} {tokens middle rest : List Token} {step : Step}

/-- Nothing is taken. -/
theorem here
    (meets : Goal.meetAll (current final tokens).kind goals = step) :
    Leads final goals tokens tokens step :=
  ⟨[], goals, rfl, rfl, meets⟩

/-- Goals that pass what comes next leave it to others. -/
theorem trans
    (first : Leads final goals tokens middle .passes)
    (second : Leads final others middle rest step) :
    Leads final (goals ++ others) tokens rest step := by
  obtain ⟨used, left, rfl, reached, passes⟩ := first
  obtain ⟨more, last, rfl, ended, meets⟩ := second
  have framed := Goal.await_frame reached others
  cases more with
  | nil =>
      cases ended
      refine ⟨used, left ++ others, rfl, framed, ?_⟩
      rw [Goal.meetAll_append, List.nil_append] at *
      rw [passes]
      exact meets
  | cons token more =>
      have passes : Goal.meetAll token.kind left = .passes := passes
      refine ⟨used ++ token :: more, last, (List.append_assoc _ _ _).symm, ?_, meets⟩
      rw [List.map_append, Goal.await_append, framed, Option.bind_some, List.map_cons,
        Goal.await_cons, Goal.feed_of_passes passes]
      exact ended

/-- Nothing behind a refusal matters. -/
theorem append
    (refused : Leads final goals tokens rest .refuses)
    (others : List Goal) :
    Leads final (goals ++ others) tokens rest .refuses := by
  obtain ⟨used, left, split, reached, refuses⟩ := refused
  refine ⟨used, left ++ others, split, Goal.await_frame reached others, ?_⟩
  rw [Goal.meetAll_append, refuses]
  rfl

/-- The first goal takes the first token. -/
theorem behind
    {goal : Goal}
    {token : Token}
    (takes : goal.meet token.kind = .takes goals)
    (later : Leads final (goals ++ others) tokens rest step) :
    Leads final (goal :: others) (token :: tokens) rest step := by
  obtain ⟨used, left, rfl, reached, meets⟩ := later
  refine ⟨token :: used, left, rfl, ?_, meets⟩
  rw [List.map_cons, Goal.await_cons, Goal.feed, Goal.meetAll_cons, takes]
  exact reached

/-- Only what the goals make of the first token matters. -/
theorem congr
    (same : Goal.meetAll (current final tokens).kind others =
      Goal.meetAll (current final tokens).kind goals)
    (leads : Leads final goals tokens rest step) :
    Leads final others tokens rest step := by
  obtain ⟨used, left, rfl, reached, meets⟩ := leads
  cases used with
  | nil =>
      cases reached
      exact ⟨[], others, rfl, rfl, same.trans meets⟩
  | cons token used =>
      refine ⟨token :: used, left, rfl, ?_, meets⟩
      rw [List.map_cons, Goal.await_cons] at reached ⊢
      rwa [Goal.feed, show Goal.meetAll token.kind others = _ from same]

end Leads

/-- The end of the input is not among the tokens. -/
def Unended (tokens : List Token) : Prop :=
  ∀ token ∈ tokens, token.kind ≠ .endOfInput

theorem Unended.suffix
    {tokens rest : List Token}
    (unended : Unended tokens)
    (behind : rest <:+ tokens) :
    Unended rest :=
  fun token member => unended token (behind.subset member)

/-- The first token is not the end. -/
theorem Unended.head {token : Token} {behind : List Token} (unended : Unended (token :: behind)) :
    token.kind ≠ .endOfInput :=
  unended token (List.mem_cons_self ..)

/-- The end is not among the other tokens. -/
theorem Unended.tail {token : Token} {behind : List Token} (unended : Unended (token :: behind)) :
    Unended behind :=
  unended.suffix (List.suffix_cons token behind)

/-- What was made of the tokens is what the goals make of them. -/
def Parsed.Tracks (final : Token) (goals : List Goal) (tokens : List Token)
    (parsed : Parsed α) : Prop :=
  match parsed with
  | .ok (_, rest) => Leads final goals tokens rest .passes
  | .error error =>
      ∃ rest, error.Blames (current final rest) ∧ Leads final goals tokens rest .refuses

namespace Parsed.Tracks

variable {final : Token} {goals others : List Goal} {tokens : List Token}

/-- Nothing is read. -/
theorem ok
    {value : α}
    (passes : Goal.meetAll (current final tokens).kind goals = .passes) :
    Parsed.Tracks final goals tokens (.ok (value, tokens)) :=
  Leads.here passes

/-- The next token is refused. -/
theorem error
    {failure : GrammarError}
    (blames : failure.Blames (current final tokens))
    (refuses : Goal.meetAll (current final tokens).kind goals = .refuses) :
    Parsed.Tracks final goals tokens (.error failure : Parsed α) :=
  ⟨tokens, blames, .here refuses⟩

/-- The goals of a sequence of rules are those of its parts. -/
theorem andThen
    {first : Parsed α}
    {next : α → List Token → Parsed β}
    (tracks : first.Tracks final goals tokens)
    (unended : Unended tokens)
    (continued : ∀ value rest, first = .ok (value, rest) → Unended rest →
      (next value rest).Tracks final others rest) :
    (first.andThen next).Tracks final (goals ++ others) tokens := by
  rcases first with failure | ⟨value, rest⟩
  · obtain ⟨rest, blames, refused⟩ := tracks
    exact ⟨rest, blames, refused.append others⟩
  · obtain ⟨used, _, split, _⟩ := id tracks
    have later := continued value rest rfl (unended.suffix ⟨used, split.symm⟩)
    rw [andThen_ok]
    cases outcome : next value rest with
    | error failure =>
        rw [outcome] at later
        obtain ⟨last, blames, refused⟩ := later
        exact ⟨last, blames, tracks.trans refused⟩
    | ok parsed =>
        rw [outcome] at later
        exact tracks.trans later

/-- Results may be changed. -/
theorem made
    {first : Parsed α}
    {make : α → β}
    (tracks : first.Tracks final goals tokens) :
    (first.andThen fun value rest => .ok (make value, rest)).Tracks final goals tokens := by
  rcases first with failure | ⟨value, rest⟩
  · exact tracks
  · exact tracks

variable {parsed : Parsed α}

/-- The first goal takes the first token. -/
theorem behind
    {goal : Goal}
    {token : Token}
    (takes : goal.meet token.kind = .takes goals)
    (tracks : parsed.Tracks final (goals ++ others) tokens) :
    parsed.Tracks final (goal :: others) (token :: tokens) := by
  rcases parsed with failure | ⟨value, rest⟩
  · obtain ⟨rest, blames, refused⟩ := tracks
    exact ⟨rest, blames, refused.behind takes⟩
  · exact Leads.behind takes tracks

/-- Only what the goals make of the first token matters. -/
theorem congr
    (same : Goal.meetAll (current final tokens).kind others =
      Goal.meetAll (current final tokens).kind goals)
    (tracks : parsed.Tracks final goals tokens) :
    parsed.Tracks final others tokens := by
  rcases parsed with failure | ⟨value, rest⟩
  · obtain ⟨rest, blames, refused⟩ := tracks
    exact ⟨rest, blames, refused.congr same⟩
  · exact Leads.congr same tracks

/-- A goal that takes line breaks takes all of them. -/
theorem skipped
    {goal : Goal}
    (takes : goal.meet .newline = .takes [goal])
    (tracks : parsed.Tracks final (goal :: others) (skipNewlines tokens)) :
    parsed.Tracks final (goal :: others) tokens := by
  induction tokens with
  | nil =>
      exact tracks
  | cons token rest inductionHypothesis =>
      unfold skipNewlines at *
      rw [List.dropWhile_cons] at tracks
      split at tracks
      · next isBreak =>
          have kind : token.kind = .newline := of_decide_eq_true isBreak
          exact behind (kind ▸ takes) (inductionHypothesis tracks)
      · exact tracks

end Parsed.Tracks

/-! ## The goals of every rule -/

namespace Rule

/-- What a rule still awaits before it reads anything. -/
def goals (room : Nat) : Rule α → List Goal
  | expect expectation | name expectation => [.token expectation.kind]
  | moreParameters _ => [.token .identifier, .moreNames]
  | parameters => [.token .parenOpen, .names]
  | className _ => [.path]
  | rawCode _ => [.token .nimKeyword, .token .parenOpen, .code 0]
  | expression => [.expression room]
  | moreTerms _ => [.terms room]
  | comparison => [.operand room, .links room, .comparisons room]
  | moreComparisons _ => [.comparisons room]
  | chain => [.operand room, .links room]
  | moreLinks _ => [.links room]
  | items closing => [.items room closing.kind]
  | moreItems _ => [.expression room, .moreItems room]
  | primary => [.operand room]
  | procedure => Goal.procedure room
  | block => Goal.block room
  | loopBlock => [.loopBody room]
  | blockRest _ closing => [.statements room, .token closing.kind]
  | statements _ => [.statements room]
  | statement => [.statement room]
  | simple => [.expression room, .assignment room]
  | variableRest _ | constantRest _ => Goal.definition room
  | condition => Goal.condition room
  | ifRest _ => Goal.ifRest room
  | whileRest _ => Goal.whileRest room
  | clause closing => [.clause room closing]
  | optionalTest => [.test room]
  | forRest _ => Goal.forRest room
  | importedFrom => Goal.importedFrom
  | importRest _ => [.token .identifier, .origin]
  | members _ _ => [.members room]
  | classRest _ => Goal.classRest room
  | typeRest _ => [.token .identifier, .token .equal, .external]
  | functionRest _ => .token .identifier :: Goal.procedure room
  | declaration => [.declaration room]

/--
Where a rule is used: line breaks in front of statements are skipped before the
rule for them, and no clause ends with the input.
-/
def Applies (final : Token) (tokens : List Token) : Rule α → Prop
  | statements _ => (current final tokens).kind ≠ .newline
  | clause closing => closing ≠ .endOfInput
  | _ => True

end Rule

/-- The rule makes of its tokens what its goals make of them. -/
def IsTracked (final : Token) (rule : Rule α) (room : Nat) (tokens : List Token) : Prop :=
  Unended tokens → rule.Applies final tokens →
    (rule.read final room tokens).Tracks final (rule.goals room) tokens

/-- Every rule below a rule is tracked. -/
abbrev TrackedBelow (final : Token) (rule : Rule α) (tokens : List Token) : Prop :=
  Rule.Below (fun inner room later => IsTracked final inner room later) rule tokens

namespace IsTracked

variable {final : Token} {room : Nat} {tokens : List Token}

attribute [local simp] Rule.level Rule.goals Goal.meet Goal.meetAll_cons Step.before Step.ofOption

/-- The goal of an expected token takes it, and refuses every other one. -/
theorem isTracked_expect
    (isFinal : final.kind = .endOfInput)
    (room : Nat)
    (expectation : Expectation) :
    IsTracked final (.expect expectation) room tokens := by
  intro _ _
  cases tokens with
  | nil =>
      have noEnd := expectation_kind_ne_endOfInput expectation
      refine .error (blames_expected _ _) ?_
      simp [current, isFinal, noEnd.symm]
  | cons token behind =>
      rw [Rule.read_expect_cons]
      split
      · next found =>
          have takes : (Goal.token expectation.kind).meet token.kind = .takes [] := if_pos found
          exact .behind takes (.ok rfl)
      · next missing =>
          refine .error (blames_expected _ _) ?_
          simp [current, missing]

/-- A name has the goal of its token. -/
theorem isTracked_name
    (isFinal : final.kind = .endOfInput)
    (room : Nat)
    (expectation : Expectation) :
    IsTracked final (.name expectation) room tokens := by
  intro unended _
  rw [Rule.read_name]
  exact (isTracked_expect isFinal room expectation unended trivial).made

/-- The goal behind a parameter takes a comma and passes everything else. -/
theorem isTracked_moreParameters
    (isFinal : final.kind = .endOfInput)
    (known : List Identifier)
    (below : TrackedBelow final (.moreParameters known) tokens) :
    IsTracked final (.moreParameters known) room tokens := by
  intro unended _
  rw [Rule.read_moreParameters]
  refine (isTracked_name isFinal room .parameterName unended trivial).andThen unended ?_
  intro parameter rest found unended
  cases rest with
  | nil =>
      refine .ok ?_
      simp [current, isFinal]
  | cons comma behind =>
      have fewer := Rule.read_shorter rfl found
      simp only
      split
      · next isComma =>
          have takes : Goal.moreNames.meet comma.kind = .takes [.token .identifier, .moreNames] :=
            if_pos isComma
          exact .behind takes
            (below.shorter (.moreParameters (parameter :: known)) room behind
              (Nat.lt_of_succ_lt fewer) unended.tail trivial)
      · next noComma =>
          refine .ok ?_
          simp [current, noComma]

/-- Behind its parenthesis a parameter list may be closed at once. -/
theorem isTracked_parameters
    (isFinal : final.kind = .endOfInput)
    (below : TrackedBelow final .parameters tokens) :
    IsTracked final .parameters room tokens := by
  intro unended _
  rw [Rule.read_parameters]
  refine (isTracked_expect isFinal room .parenOpen unended trivial).andThen unended ?_
  intro _ inner found unended
  split
  · next isClose =>
      refine .congr ?_ (isTracked_expect isFinal room .parenClose unended trivial).made
      simp [isClose, Expectation.kind]
  · next noClose =>
      have names := below.shorter (.moreParameters []) room inner
        (Rule.read_shorter rfl found) unended trivial
      refine .congr ?_ (names.andThen unended fun known rest _ unended =>
        (isTracked_expect isFinal room .parenClose unended trivial).made)
      simp only [Rule.goals, Goal.meetAll_cons, Goal.meet, noClose, if_false, Expectation.kind,
        List.cons_append, List.nil_append]
      split
      · rfl
      · rfl

/-- The goal behind the name of a class takes a dot and passes everything else. -/
theorem isTracked_className
    (isFinal : final.kind = .endOfInput)
    (callee : Expression)
    (below : TrackedBelow final (.className callee) tokens) :
    IsTracked final (.className callee) room tokens := by
  intro unended _
  cases tokens with
  | nil =>
      rw [Rule.read_className_nil]
      refine .ok ?_
      simp [current, isFinal]
  | cons dot behind =>
      rw [Rule.read_className_cons]
      split
      · next isDot =>
          have takes : Goal.path.meet dot.kind = .takes [.token .identifier, .path] := if_pos isDot
          refine .behind takes ?_
          refine (isTracked_name isFinal room .propertyName unended.tail trivial).andThen
            unended.tail ?_
          intro property rest found unended
          exact below.shorter (.className (.member callee property false)) room rest
            (Nat.lt_succ_of_lt (Rule.read_shorter rfl found)) unended trivial
      · next noDot =>
          refine .ok ?_
          simp [current, noDot]

/-- Embedded code ends with its closing parenthesis or with the input. -/
theorem leads_collect
    (isFinal : final.kind = .endOfInput)
    (nesting : Nat)
    (wanted : Bool)
    (code : String)
    (last : Token)
    (tokens : List Token)
    (unended : Unended tokens) :
    Leads final [.code nesting] tokens (RawCode.collect nesting wanted code last tokens).rest
      .passes := by
  fun_induction RawCode.collect nesting wanted code last tokens with
  | case1 =>
      refine .here ?_
      simp [current, isFinal]
  | case2 nesting _ _ _ token _ _ isOpen inductionHypothesis =>
      have takes : (Goal.code nesting).meet token.kind = .takes [.code (nesting + 1)] := by
        simp [isOpen]
      exact .behind takes (inductionHypothesis unended.tail)
  | case3 _ _ _ token _ isClose =>
      have takes : (Goal.code 0).meet token.kind = .takes [] := by
        simp [Goal.codeBehind, isClose]
      exact .behind takes (.here rfl)
  | case4 _ _ _ token _ _ isClose nesting inductionHypothesis =>
      have takes : (Goal.code (nesting + 1)).meet token.kind = .takes [.code nesting] := by
        simp [Goal.codeBehind, isClose]
      exact .behind takes (inductionHypothesis unended.tail)
  | case5 nesting _ _ _ token _ _ noOpen noClose inductionHypothesis =>
      have takes : (Goal.code nesting).meet token.kind = .takes [.code nesting] := by
        rw [Goal.meet, if_neg unended.head, if_neg noOpen, if_neg noClose]
      exact .behind takes (inductionHypothesis unended.tail)

/-- Embedded code has a goal that counts its parentheses. -/
theorem isTracked_rawCode
    (isFinal : final.kind = .endOfInput)
    (start : Token) :
    IsTracked final (.rawCode start) room tokens := by
  intro unended _
  rw [Rule.read_rawCode]
  refine (isTracked_expect isFinal room .nimWord unended trivial).andThen unended ?_
  intro _ behind _ unended
  refine (isTracked_expect isFinal room .parenOpen unended trivial).andThen unended ?_
  intro opening inner _ unended
  exact leads_collect isFinal 0 false "" opening inner unended

/-- Without room for an expression its goal refuses whatever comes. -/
theorem isTracked_expression
    (below : TrackedBelow final .expression tokens) :
    IsTracked final .expression room tokens := by
  intro unended _
  cases room with
  | zero =>
      rw [Rule.read_expression_zero]
      exact .error rfl rfl
  | succ room =>
      rw [Rule.read_expression_succ]
      have parts := (below.same .comparison room (by decide) unended trivial).andThen unended
        fun left behind found unended =>
          below.shorter (.moreTerms left) room behind (Rule.read_shorter rfl found)
            unended trivial
      refine .congr ?_ parts
      exact Goal.meetAll_expression_succ _ room []

/-- The goal behind a term takes an additive operator and passes everything else. -/
theorem isTracked_moreTerms
    (isFinal : final.kind = .endOfInput)
    (left : Expression)
    (below : TrackedBelow final (.moreTerms left) tokens) :
    IsTracked final (.moreTerms left) room tokens := by
  intro unended _
  cases tokens with
  | nil =>
      rw [Rule.read_moreTerms_nil]
      refine .ok ?_
      simp [current, isFinal, TokenKind.isAdditive]
  | cons operator operands =>
      rw [Rule.read_moreTerms_cons]
      split
      · next isOperator =>
          have takes : (Goal.terms room).meet operator.kind =
              .takes [.operand room, .links room, .comparisons room, .terms room] :=
            if_pos isOperator
          refine .behind takes ?_
          refine (below.behind .comparison room unended.tail trivial).andThen unended.tail ?_
          intro right behind found unended
          exact below.shorter (.moreTerms (.binary operator.literal left right)) room behind
            (Nat.lt_succ_of_lt (Rule.read_shorter rfl found)) unended trivial
      · next noOperator =>
          refine .ok ?_
          simp [current, noOperator]

/-- The goals of a row of comparisons are those of a chain and of what follows it. -/
theorem isTracked_comparison
    (below : TrackedBelow final .comparison tokens) :
    IsTracked final .comparison room tokens := by
  intro unended _
  rw [Rule.read_comparison]
  refine (below.same .chain room (by decide) unended trivial).andThen unended ?_
  intro left behind found unended
  exact below.shorter (.moreComparisons left) room behind (Rule.read_shorter rfl found)
    unended trivial

/-- The goal behind a chain takes a comparison operator and passes everything else. -/
theorem isTracked_moreComparisons
    (isFinal : final.kind = .endOfInput)
    (left : Expression)
    (below : TrackedBelow final (.moreComparisons left) tokens) :
    IsTracked final (.moreComparisons left) room tokens := by
  intro unended _
  cases tokens with
  | nil =>
      rw [Rule.read_moreComparisons_nil]
      refine .ok ?_
      simp [current, isFinal, TokenKind.isComparison]
  | cons operator operands =>
      rw [Rule.read_moreComparisons_cons]
      split
      · next isOperator =>
          have takes : (Goal.comparisons room).meet operator.kind =
              .takes [.operand room, .links room, .comparisons room] :=
            if_pos isOperator
          refine .behind takes ?_
          refine (below.behind .chain room unended.tail trivial).andThen unended.tail ?_
          intro right behind found unended
          exact below.shorter (.moreComparisons (.binary operator.literal left right)) room behind
            (Nat.lt_succ_of_lt (Rule.read_shorter rfl found)) unended trivial
      · next noOperator =>
          refine .ok ?_
          simp [current, noOperator]

/-- The goals of a chain are those of its head and of its links. -/
theorem isTracked_chain
    (below : TrackedBelow final .chain tokens) :
    IsTracked final .chain room tokens := by
  intro unended _
  rw [Rule.read_chain]
  refine (below.same .primary room (by decide) unended trivial).andThen unended ?_
  intro head behind found unended
  exact below.shorter (.moreLinks head) room behind (Rule.read_shorter rfl found)
    unended trivial

/-- The goal behind a target takes the sign of a link and passes everything else. -/
theorem isTracked_moreLinks
    (isFinal : final.kind = .endOfInput)
    (target : Expression)
    (below : TrackedBelow final (.moreLinks target) tokens) :
    IsTracked final (.moreLinks target) room tokens := by
  intro unended _
  cases tokens with
  | nil =>
      rw [Rule.read_moreLinks_nil]
      refine .ok ?_
      simp [current, isFinal]
  | cons link inner =>
      rw [Rule.read_moreLinks_cons]
      split
      · next isMember =>
          have takes : (Goal.links room).meet link.kind =
              .takes [.token .identifier, .links room] :=
            if_pos isMember
          refine .behind takes ?_
          refine (isTracked_name isFinal room .propertyName unended.tail trivial).andThen
            unended.tail ?_
          intro property behind found unended
          exact below.shorter (.moreLinks (.member target property (link.kind = .arrow))) room
            behind (Nat.lt_succ_of_lt (Rule.read_shorter rfl found)) unended trivial
      · next noMember =>
          split
          · next isCall =>
              have takes : (Goal.links room).meet link.kind =
                  .takes [.items room .parenClose, .links room] := by
                simp [isCall]
              refine .behind takes ?_
              refine (below.behind (.items .parenClose) room unended.tail trivial).andThen
                unended.tail ?_
              intro values behind found unended
              exact below.shorter (.moreLinks (.invocation target values.1 values.2.span.last))
                room behind (Nat.lt_succ_of_lt (Rule.read_shorter rfl found)) unended trivial
          · next noCall =>
              split
              · next isIndex =>
                  have takes : (Goal.links room).meet link.kind =
                      .takes [.expression room, .token .bracketClose, .links room] := by
                    simp [isIndex]
                  refine .behind takes ?_
                  refine (below.behind .expression room unended.tail trivial).andThen
                    unended.tail ?_
                  intro position behind found unended
                  have first := Rule.read_shorter rfl found
                  refine (isTracked_expect isFinal room .bracketClose unended trivial).andThen
                    unended ?_
                  intro closing after found unended
                  have second := Rule.read_shorter rfl found
                  exact below.shorter (.moreLinks (.index target position closing.span.last)) room
                    after (Nat.lt_succ_of_lt (Nat.lt_trans second first)) unended trivial
              · next noIndex =>
                  refine .ok ?_
                  simp [current, noCall, noIndex, not_or.mp noMember]

/-- The items may be closed before there is one. -/
theorem isTracked_items
    (isFinal : final.kind = .endOfInput)
    (closing : Expectation)
    (below : TrackedBelow final (.items closing) tokens) :
    IsTracked final (.items closing) room tokens := by
  intro unended _
  rw [Rule.read_items]
  split
  · next isClose =>
      refine .congr ?_ (isTracked_expect isFinal room closing unended trivial).made
      simp [isClose]
  · next noClose =>
      have values := below.same (.moreItems []) room (by simp) unended trivial
      refine .congr ?_ (values.andThen unended fun known rest _ unended =>
        (isTracked_expect isFinal room closing unended trivial).made)
      exact Goal.meetAll_items noClose room []

/-- The goal behind an item takes a comma and passes everything else. -/
theorem isTracked_moreItems
    (isFinal : final.kind = .endOfInput)
    (known : List Expression)
    (below : TrackedBelow final (.moreItems known) tokens) :
    IsTracked final (.moreItems known) room tokens := by
  intro unended _
  rw [Rule.read_moreItems]
  refine (below.same .expression room (by simp) unended trivial).andThen unended ?_
  intro value behind found unended
  cases behind with
  | nil =>
      refine .ok ?_
      simp [current, isFinal]
  | cons comma after =>
      have fewer := Rule.read_shorter rfl found
      simp only
      split
      · next isComma =>
          have takes : (Goal.moreItems room).meet comma.kind =
              .takes [.expression room, .moreItems room] :=
            if_pos isComma
          exact .behind takes
            (below.shorter (.moreItems (value :: known)) room after
              (Nat.lt_of_succ_lt fewer) unended.tail trivial)
      · next noComma =>
          refine .ok ?_
          simp [current, noComma]

/-- A leaf is told by the kind of its token. -/
theorem isLeaf_of_leaf {token : Token} {leaf : Expression} (found : leaf? token = some leaf) :
    Goal.isLeaf token.kind = true := by
  unfold leaf? at found
  split at found
  all_goals simp_all [Goal.isLeaf]

theorem not_isLeaf_of_leaf {token : Token} (missing : leaf? token = none) :
    Goal.isLeaf token.kind = false := by
  unfold leaf? at missing
  split at missing
  all_goals simp_all [Goal.isLeaf]

/-- A primary expression has a goal for each kind of token it may begin with. -/
theorem isTracked_primary
    (isFinal : final.kind = .endOfInput)
    (below : TrackedBelow final .primary tokens) :
    IsTracked final .primary room tokens := by
  intro unended _
  cases tokens with
  | nil =>
      rw [Rule.read_primary_nil]
      refine .error (blames_unexpected final) ?_
      rw [Rule.goals, current, List.headD_nil, isFinal]
      rfl
  | cons token behind =>
      cases single : leaf? token with
      | some leaf =>
          rw [Rule.read_primary_leaf final room single]
          have takes : (Goal.operand room).meet token.kind = .takes [] := by
            simp [Goal.operand?, isLeaf_of_leaf single]
          exact .behind takes (.ok rfl)
      | none =>
          rw [Rule.read_primary_cons final room single]
          have noLeaf := not_isLeaf_of_leaf single
          have unended := unended.tail
          split
          · next isNew =>
              have takes : (Goal.operand room).meet token.kind =
                  .takes (Goal.construction room) := by
                simp [Goal.operand?, Goal.isLeaf, isNew]
              refine .behind takes ?_
              refine (isTracked_name isFinal room .className unended trivial).andThen unended ?_
              intro class' after found unended
              have first := Rule.read_shorter rfl found
              refine (below.shorter (.className (.identifier class')) room after
                (Nat.lt_succ_of_lt first) unended trivial).andThen unended ?_
              intro callee inner found unended
              have second := Rule.read_notLonger _ found
              refine (isTracked_expect isFinal room .parenOpen unended trivial).andThen unended ?_
              intro _ inside found unended
              have third := Rule.read_shorter rfl found
              exact (below.shorter (.items .parenClose) room inside
                (by simp only [List.length_cons]; omega) unended trivial).made
          · split
            · next isFunction =>
                have takes : (Goal.operand room).meet token.kind =
                    .takes (Goal.procedure room) := by
                  simp [Goal.operand?, Goal.isLeaf, isFunction]
                refine .behind takes ?_
                rw [List.append_nil]
                exact (below.behind .procedure room unended trivial).made
            · split
              · next isRaw =>
                  have takes : (Goal.operand room).meet token.kind =
                      .takes [.token .nimKeyword, .token .parenOpen, .code 0] := by
                    simp [Goal.operand?, Goal.isLeaf, isRaw]
                  exact .behind takes (below.behind (.rawCode token) room unended trivial)
              · split
                · next isArray =>
                    have takes : (Goal.operand room).meet token.kind =
                        .takes [.items room .bracketClose] := by
                      simp [Goal.operand?, Goal.isLeaf, isArray]
                    exact .behind takes
                      (below.behind (.items .bracketClose) room unended trivial).made
                · split
                  · next isParen =>
                      have takes : (Goal.operand room).meet token.kind =
                          .takes [.expression room, .token .parenClose] := by
                        simp [Goal.operand?, Goal.isLeaf, isParen]
                      refine .behind takes ?_
                      refine (below.behind .expression room unended trivial).andThen unended ?_
                      intro inner after _ unended
                      exact (isTracked_expect isFinal room .parenClose unended trivial).made
                  · next noNew noFunction noRaw noArray noParen =>
                      refine .error (blames_unexpected token) ?_
                      simp [Goal.operand?, current, noLeaf, noNew, noFunction, noRaw, noArray,
                        noParen]

/-- The goals of a procedure are those of its parameters and of its block. -/
theorem isTracked_procedure
    (below : TrackedBelow final .procedure tokens) :
    IsTracked final .procedure room tokens := by
  intro unended _
  rw [Rule.read_procedure]
  refine (below.same .parameters room (by decide) unended trivial).andThen unended ?_
  intro names behind found unended
  exact (below.shorter .block room behind (Rule.read_shorter rfl found) unended trivial).made

/-- The goal of a block takes the word that opens it. -/
theorem isTracked_block
    (isFinal : final.kind = .endOfInput)
    (below : TrackedBelow final .block tokens) :
    IsTracked final .block room tokens := by
  intro unended _
  rw [Rule.read_block]
  refine (isTracked_expect isFinal room .openWord unended trivial).andThen unended ?_
  intro opening inner found unended
  exact below.shorter (.blockRest opening .closeWord) room inner (Rule.read_shorter rfl found)
    unended trivial

/-- The goal of the body of a loop takes a brace or a word, and waits for the other end. -/
theorem isTracked_loopBlock
    (isFinal : final.kind = .endOfInput)
    (below : TrackedBelow final .loopBlock tokens) :
    IsTracked final .loopBlock room tokens := by
  intro unended _
  cases tokens with
  | nil =>
      rw [Rule.read_loopBlock_nil]
      refine .error (blames_expected .loopOpen final) ?_
      simp [current, isFinal]
  | cons opening inner =>
      rw [Rule.read_loopBlock_cons]
      split
      · next isBrace =>
          have takes : (Goal.loopBody room).meet opening.kind =
              .takes [.statements room, .token .braceClose] :=
            if_pos isBrace
          exact .behind takes
            (below.behind (.blockRest opening .braceClose) room unended.tail trivial)
      · next noBrace =>
          split
          · next isOpen =>
              have takes : (Goal.loopBody room).meet opening.kind =
                  .takes [.statements room, .token .closeKeyword] := by
                simp [isOpen]
              exact .behind takes
                (below.behind (.blockRest opening .closeWord) room unended.tail trivial)
          · next noOpen =>
              refine .error (blames_expected .loopOpen opening) ?_
              simp [current, noBrace, noOpen]

/-- Behind its line breaks a token list does not start with a line break. -/
theorem current_skipNewlines_ne
    (isFinal : final.kind = .endOfInput)
    (tokens : List Token) :
    (current final (skipNewlines tokens)).kind ≠ .newline := by
  intro isBreak
  cases skipped : skipNewlines tokens with
  | nil =>
      rw [skipped, current, List.headD_nil, isFinal] at isBreak
      cases isBreak
  | cons token behind =>
      have stops := List.head?_dropWhile_not (fun token : Token => decide (token.kind = .newline))
        tokens
      rw [skipped] at isBreak
      rw [show List.dropWhile _ tokens = token :: behind from skipped] at stops
      exact of_decide_eq_false stops isBreak

/-- Behind the opening, line breaks and statements are taken up to the closing. -/
theorem isTracked_blockRest
    (isFinal : final.kind = .endOfInput)
    (opening : Token)
    (closing : Expectation)
    (below : TrackedBelow final (.blockRest opening closing) tokens) :
    IsTracked final (.blockRest opening closing) room tokens := by
  intro unended _
  rw [Rule.read_blockRest]
  have unended := unended.suffix (skipNewlines_suffix tokens)
  refine .skipped (by simp) ?_
  refine (below.tighter (.statements []) room (skipNewlines tokens) (by simp)
    (length_skipNewlines_le tokens) unended
    (current_skipNewlines_ne isFinal tokens)).andThen unended ?_
  intro body behind _ unended
  exact (isTracked_expect isFinal room closing unended trivial).made

/-- The goal of statements passes the tokens that end them. -/
theorem isTracked_statements
    (isFinal : final.kind = .endOfInput)
    (known : List Statement)
    (below : TrackedBelow final (.statements known) tokens) :
    IsTracked final (.statements known) room tokens := by
  intro unended noBreak
  cases tokens with
  | nil =>
      rw [Rule.read_statements_nil]
      refine .ok ?_
      simp [current, isFinal]
  | cons token behind =>
      rw [Rule.read_statements_cons]
      split
      · next ends =>
          refine .ok ?_
          have closes : token.kind = .closeKeyword ∨ token.kind = .braceClose := by
            simpa [endsStatements] using ends
          simp [current, closes]
      · next continues =>
          have open' : ¬(token.kind = .endOfInput ∨ token.kind = .closeKeyword ∨
              token.kind = .braceClose) := by
            simpa [endsStatements, unended.head] using continues
          have parts := (below.same .statement room (by simp) unended
            trivial).andThen unended fun next after found unended =>
              Parsed.Tracks.skipped (by simp)
                (below.shorter (.statements (next :: known)) room (skipNewlines after)
                  (Nat.lt_of_le_of_lt (length_skipNewlines_le after)
                    (Rule.read_shorter rfl found))
                  (unended.suffix (skipNewlines_suffix after))
                  (current_skipNewlines_ne isFinal after))
          refine .congr ?_ parts
          exact Goal.meetAll_statements open' noBreak room []

/-- A statement has a goal for each keyword it may begin with. -/
theorem isTracked_statement
    (isFinal : final.kind = .endOfInput)
    (below : TrackedBelow final .statement tokens) :
    IsTracked final .statement room tokens := by
  intro unended _
  cases tokens with
  | nil =>
      rw [Rule.read_statement_nil]
      refine .congr ?_ (below.same .simple room (by decide) unended trivial)
      refine Goal.meetAll_of_simple ?_ []
      rw [current, List.headD_nil, isFinal]
      rfl
  | cons token behind =>
      rw [Rule.read_statement_cons]
      split
      · next isReturn =>
          have takes : (Goal.statement room).meet token.kind = .takes [.expression room] := by
            simp [Goal.statement?, isReturn]
          exact .behind takes (below.behind .expression room unended.tail trivial).made
      · split
        · next isVariable =>
            have takes : (Goal.statement room).meet token.kind =
                .takes (Goal.definition room) := by
              simp [Goal.statement?, isVariable]
            exact .behind takes (below.behind (.variableRest token) room unended.tail trivial)
        · split
          · next isFor =>
              have takes : (Goal.statement room).meet token.kind =
                  .takes (Goal.forRest room) := by
                simp [Goal.statement?, isFor]
              exact .behind takes (below.behind (.forRest token) room unended.tail trivial)
          · split
            · next isWhile =>
                have takes : (Goal.statement room).meet token.kind =
                    .takes (Goal.whileRest room) := by
                  simp [Goal.statement?, isWhile]
                exact .behind takes (below.behind (.whileRest token) room unended.tail trivial)
            · split
              · next isIf =>
                  have takes : (Goal.statement room).meet token.kind =
                      .takes (Goal.ifRest room) := by
                    simp [Goal.statement?, isIf]
                  exact .behind takes (below.behind (.ifRest token) room unended.tail trivial)
              · next noReturn noVariable noFor noWhile noIf =>
                  refine .congr ?_ (below.same .simple room (by decide) unended trivial)
                  refine Goal.meetAll_of_simple ?_ []
                  simp [Goal.statement?, current, noReturn, noVariable, noFor, noWhile, noIf]

/-- The goal behind an expression statement takes an equal sign and passes everything else. -/
theorem isTracked_simple
    (isFinal : final.kind = .endOfInput)
    (below : TrackedBelow final .simple tokens) :
    IsTracked final .simple room tokens := by
  intro unended _
  rw [Rule.read_simple]
  refine (below.same .expression room (by decide) unended trivial).andThen unended ?_
  intro target behind found unended
  cases behind with
  | nil =>
      refine .ok ?_
      simp [current, isFinal]
  | cons equal after =>
      have fewer := Rule.read_shorter rfl found
      simp only
      split
      · next isEqual =>
          have takes : (Goal.assignment room).meet equal.kind = .takes [.expression room] :=
            if_pos isEqual
          exact .behind takes
            (below.shorter .expression room after (Nat.lt_of_succ_lt fewer) unended.tail
              trivial).made
      · next noEqual =>
          refine .ok ?_
          simp [current, noEqual]

/-- The goals of a variable are those of its name, the equal word and its value. -/
theorem isTracked_variableRest
    (isFinal : final.kind = .endOfInput)
    (start : Token)
    (below : TrackedBelow final (.variableRest start) tokens) :
    IsTracked final (.variableRest start) room tokens := by
  intro unended _
  rw [Rule.read_variableRest]
  refine (isTracked_name isFinal room .variableName unended trivial).andThen unended ?_
  intro identifier behind found unended
  have first := Rule.read_shorter rfl found
  refine (isTracked_expect isFinal room .equalWord unended trivial).andThen unended ?_
  intro _ after found unended
  have second := Rule.read_shorter rfl found
  exact (below.shorter .expression room after (Nat.lt_trans second first) unended trivial).made

/-- The goals of a condition are an expression between parentheses. -/
theorem isTracked_condition
    (isFinal : final.kind = .endOfInput)
    (below : TrackedBelow final .condition tokens) :
    IsTracked final .condition room tokens := by
  intro unended _
  rw [Rule.read_condition]
  refine (isTracked_expect isFinal room .parenOpen unended trivial).andThen unended ?_
  intro _ inner found unended
  refine (below.shorter .expression room inner (Rule.read_shorter rfl found) unended
    trivial).andThen unended ?_
  intro test behind _ unended
  exact (isTracked_expect isFinal room .parenClose unended trivial).made

/-- The goal behind the first block takes the word of the second one. -/
theorem isTracked_ifRest
    (isFinal : final.kind = .endOfInput)
    (start : Token)
    (below : TrackedBelow final (.ifRest start) tokens) :
    IsTracked final (.ifRest start) room tokens := by
  intro unended _
  rw [Rule.read_ifRest, Rule.goals, Goal.ifRest, List.append_assoc]
  refine (below.same .condition room (by simp) unended trivial).andThen unended ?_
  intro test behind found unended
  have first := Rule.read_shorter rfl found
  refine (below.shorter .block room behind first unended trivial).andThen unended ?_
  intro consequent after found unended
  have second := Rule.read_shorter rfl found
  cases after with
  | nil =>
      refine .ok ?_
      simp [current, isFinal]
  | cons word inner =>
      simp only
      split
      · next isElse =>
          have takes : (Goal.alternative room).meet word.kind = .takes (Goal.block room) :=
            if_pos isElse
          exact .behind takes
            (below.shorter .block room inner
              (Nat.lt_trans (Nat.lt_of_succ_lt second) first) unended.tail trivial).made
      · next noElse =>
          refine .ok ?_
          simp [current, noElse]

/-- The goals of a `while` loop are those of its condition and of its body. -/
theorem isTracked_whileRest
    (start : Token)
    (below : TrackedBelow final (.whileRest start) tokens) :
    IsTracked final (.whileRest start) room tokens := by
  intro unended _
  rw [Rule.read_whileRest]
  refine (below.same .condition room (by simp) unended trivial).andThen unended ?_
  intro test behind found unended
  exact (below.shorter .loopBlock room behind (Rule.read_shorter rfl found) unended trivial).made

/-- The goal of a clause passes the token that closes it. -/
theorem isTracked_clause
    (isFinal : final.kind = .endOfInput)
    (closing : TokenKind)
    (below : TrackedBelow final (.clause closing) tokens) :
    IsTracked final (.clause closing) room tokens := by
  intro unended applies
  cases tokens with
  | nil =>
      rw [Rule.read_clause_nil]
      refine .congr ?_ (below.same .simple room (by simp) unended trivial)
      refine Goal.meetAll_of_simple ?_ []
      rw [current, List.headD_nil, isFinal, Goal.meet, if_neg (Ne.symm applies), if_neg (by decide)]
  | cons token behind =>
      rw [Rule.read_clause_cons]
      split
      · next isClose =>
          refine .ok ?_
          simp [current, isClose]
      · next noClose =>
          split
          · next isVariable =>
              have takes : (Goal.clause room closing).meet token.kind =
                  .takes (Goal.definition room) := by
                rw [Goal.meet, if_neg noClose, if_pos isVariable]
              exact .behind takes (below.behind (.variableRest token) room unended.tail trivial)
          · next noVariable =>
              refine .congr ?_ (below.same .simple room (by simp) unended trivial)
              refine Goal.meetAll_of_simple ?_ []
              simp [current, noClose, noVariable]

/-- The goal of the test passes a semicolon. -/
theorem isTracked_optionalTest
    (below : TrackedBelow final .optionalTest tokens) :
    IsTracked final .optionalTest room tokens := by
  intro unended _
  rw [Rule.read_optionalTest]
  split
  · next isEnd =>
      refine .ok ?_
      simp [isEnd]
  · next noEnd =>
      refine .congr ?_ (below.same .expression room (by decide) unended trivial)
      simp [noEnd]

/-- The goals of a `for` loop are those of its clauses and of its body. -/
theorem isTracked_forRest
    (isFinal : final.kind = .endOfInput)
    (start : Token)
    (below : TrackedBelow final (.forRest start) tokens) :
    IsTracked final (.forRest start) room tokens := by
  intro unended _
  rw [Rule.read_forRest]
  refine (isTracked_expect isFinal room .parenOpen unended trivial).andThen unended ?_
  intro _ inner found unended
  have first := Rule.read_shorter rfl found
  refine (below.shorter (.clause .semicolon) room inner first unended
    (TokenKind.noConfusion ·)).andThen unended ?_
  intro initial behindInitial found unended
  have second := Rule.read_notLonger _ found
  refine (isTracked_expect isFinal room .semicolon unended trivial).andThen unended ?_
  intro _ beforeTest found unended
  have third := Rule.read_shorter rfl found
  refine (below.shorter .optionalTest room beforeTest (by omega) unended trivial).andThen
    unended ?_
  intro test behindTest found unended
  have fourth := Rule.read_notLonger _ found
  refine (isTracked_expect isFinal room .semicolon unended trivial).andThen unended ?_
  intro _ beforeIncrement found unended
  have fifth := Rule.read_shorter rfl found
  refine (below.shorter (.clause .parenClose) room beforeIncrement (by omega) unended
    (TokenKind.noConfusion ·)).andThen unended ?_
  intro increment behindIncrement found unended
  have sixth := Rule.read_notLonger _ found
  refine (isTracked_expect isFinal room .parenClose unended trivial).andThen unended ?_
  intro _ beforeBody found unended
  have seventh := Rule.read_shorter rfl found
  exact (below.shorter .loopBlock room beforeBody (by omega) unended trivial).made

/-- The goals of the path of an import are its word and a string. -/
theorem isTracked_importedFrom
    (isFinal : final.kind = .endOfInput)
    (room : Nat) :
    IsTracked final .importedFrom room tokens := by
  intro unended _
  rw [Rule.read_importedFrom]
  refine (isTracked_expect isFinal room .fromWord unended trivial).andThen unended ?_
  intro _ behind _ unended
  exact isTracked_expect isFinal room .importedPath unended trivial

/-- The goal behind the name of a module takes the word of a second name. -/
theorem isTracked_importRest
    (isFinal : final.kind = .endOfInput)
    (start : Token) :
    IsTracked final (.importRest start) room tokens := by
  intro unended _
  rw [Rule.read_importRest]
  refine (isTracked_name isFinal room .moduleName unended trivial).andThen unended ?_
  intro module' behind _ unended
  split
  · next isRenamed =>
      cases behind with
      | nil =>
          rw [current, List.headD_nil, isFinal] at isRenamed
          cases isRenamed
      | cons word after =>
          have takes : Goal.origin.meet word.kind =
              .takes (.token .identifier :: Goal.importedFrom) :=
            if_pos isRenamed
          refine .behind takes ?_
          refine (isTracked_name isFinal room .aliasName unended.tail trivial).andThen
            unended.tail ?_
          intro newName rest _ unended
          exact (isTracked_importedFrom isFinal room unended trivial).made
  · next noRenamed =>
      refine .congr ?_ (isTracked_importedFrom isFinal room unended trivial).made
      simp only [Rule.goals, Goal.importedFrom, Goal.meetAll_cons, Goal.meet, noRenamed, if_false]
      split
      · rfl
      · rfl

/-- The goal of the members takes everything but the closing word, junk included. -/
theorem isTracked_members
    (isFinal : final.kind = .endOfInput)
    (constructor? : Option Constructor)
    (methods : List Method)
    (below : TrackedBelow final (.members constructor? methods) tokens) :
    IsTracked final (.members constructor? methods) room tokens := by
  intro unended _
  cases tokens with
  | nil =>
      rw [Rule.read_members_nil]
      refine .ok ?_
      simp [current, isFinal]
  | cons token behind =>
      rw [Rule.read_members_cons]
      split
      · next isClose =>
          refine .ok ?_
          simp [current, isClose]
      · next noClose =>
          have goesOn : ¬(token.kind = .endOfInput ∨ token.kind = .closeKeyword) :=
            not_or.mpr ⟨unended.head, noClose⟩
          have unended := unended.tail
          split
          · next isConstructor =>
              have takes : (Goal.members room).meet token.kind =
                  .takes (Goal.procedure room ++ [Goal.members room]) := by
                simp [isConstructor]
              refine .behind takes ?_
              rw [List.append_nil]
              refine (below.behind .procedure room unended trivial).andThen unended ?_
              intro found after fewer unended
              exact below.shorter (.members _ methods) room after
                (Nat.lt_succ_of_lt (Rule.read_shorter rfl fewer)) unended trivial
          · next noConstructor =>
              split
              · next isMethod =>
                  have takes : (Goal.members room).meet token.kind =
                      .takes (Goal.procedure room ++ [Goal.members room]) := by
                    simp [isMethod]
                  refine .behind takes ?_
                  rw [List.append_nil]
                  refine (below.behind .procedure room unended trivial).andThen unended ?_
                  intro found after fewer unended
                  exact below.shorter (.members constructor? _) room after
                    (Nat.lt_succ_of_lt (Rule.read_shorter rfl fewer)) unended trivial
              · next noMethod =>
                  have takes : (Goal.members room).meet token.kind = .takes [.members room] := by
                    rw [Goal.meet, if_neg goesOn, if_neg (not_or.mpr ⟨noConstructor, noMethod⟩)]
                  exact .behind takes
                    (below.behind (.members constructor? methods) room unended trivial)

/-- The goals of a class are those of its name and of its members. -/
theorem isTracked_classRest
    (isFinal : final.kind = .endOfInput)
    (start : Token)
    (below : TrackedBelow final (.classRest start) tokens) :
    IsTracked final (.classRest start) room tokens := by
  intro unended _
  rw [Rule.read_classRest]
  refine (isTracked_name isFinal room .className unended trivial).andThen unended ?_
  intro class' behind found unended
  have first := Rule.read_shorter rfl found
  refine (isTracked_expect isFinal room .openWord unended trivial).andThen unended ?_
  intro _ inner found unended
  have second := Rule.read_shorter rfl found
  refine (below.shorter (.members none []) room inner (Nat.lt_trans second first) unended
    trivial).andThen unended ?_
  intro parts after _ unended
  exact (isTracked_expect isFinal room .closeWord unended trivial).made

/-- Behind the equal word of a type, the goal takes the external word and passes everything else. -/
theorem isTracked_typeRest
    (isFinal : final.kind = .endOfInput)
    (start : Token) :
    IsTracked final (.typeRest start) room tokens := by
  intro unended _
  rw [Rule.read_typeRest]
  refine (isTracked_name isFinal room .typeName unended trivial).andThen unended ?_
  intro type' behind _ unended
  refine (isTracked_expect isFinal room .equalWord unended trivial).andThen unended ?_
  intro equal after _ unended
  cases after with
  | nil =>
      refine .ok ?_
      simp [current, isFinal]
  | cons word rest =>
      rw [externalWord]
      split
      · next isExternal =>
          have takes : Goal.external.meet word.kind = .takes [] := if_pos isExternal
          exact .behind takes (.ok rfl)
      · next noExternal =>
          refine .ok ?_
          simp [current, noExternal]

/-- The goals of a constant are those of its name, the equal word and its value. -/
theorem isTracked_constantRest
    (isFinal : final.kind = .endOfInput)
    (start : Token)
    (below : TrackedBelow final (.constantRest start) tokens) :
    IsTracked final (.constantRest start) room tokens := by
  intro unended _
  rw [Rule.read_constantRest]
  refine (isTracked_name isFinal room .constantName unended trivial).andThen unended ?_
  intro identifier behind found unended
  have first := Rule.read_shorter rfl found
  refine (isTracked_expect isFinal room .equalWord unended trivial).andThen unended ?_
  intro _ after found unended
  have second := Rule.read_shorter rfl found
  exact (below.shorter .expression room after (Nat.lt_trans second first) unended trivial).made

/-- The goals of a function are those of its name and of its procedure. -/
theorem isTracked_functionRest
    (isFinal : final.kind = .endOfInput)
    (start : Token)
    (below : TrackedBelow final (.functionRest start) tokens) :
    IsTracked final (.functionRest start) room tokens := by
  intro unended _
  rw [Rule.read_functionRest]
  refine (isTracked_name isFinal room .functionName unended trivial).andThen unended ?_
  intro identifier behind found unended
  exact (below.shorter .procedure room behind (Rule.read_shorter rfl found) unended trivial).made

/-- A declaration has a goal for each keyword it may begin with. -/
theorem isTracked_declaration
    (isFinal : final.kind = .endOfInput)
    (below : TrackedBelow final .declaration tokens) :
    IsTracked final .declaration room tokens := by
  intro unended _
  cases tokens with
  | nil =>
      rw [Rule.read_declaration_nil]
      refine .congr ?_ (below.same .simple room (by decide) unended trivial).made
      refine Goal.meetAll_of_simple ?_ []
      rw [current, List.headD_nil, isFinal]
      rfl
  | cons token behind =>
      rw [Rule.read_declaration_cons]
      split
      · next isImport =>
          have takes : (Goal.declaration room).meet token.kind =
              .takes [.token .identifier, .origin] :=
            congrArg Step.ofOption (if_pos isImport)
          exact .behind takes (below.behind (.importRest token) room unended.tail trivial)
      · split
        · next isClass =>
            have takes : (Goal.declaration room).meet token.kind =
                .takes (Goal.classRest room) := by
              simp [Goal.declaration?, isClass]
            exact .behind takes (below.behind (.classRest token) room unended.tail trivial)
        · split
          · next isType =>
              have takes : (Goal.declaration room).meet token.kind =
                  .takes [.token .identifier, .token .equal, .external] := by
                simp [Goal.declaration?, isType]
              exact .behind takes (below.behind (.typeRest token) room unended.tail trivial)
          · split
            · next isConstant =>
                have takes : (Goal.declaration room).meet token.kind =
                    .takes (Goal.definition room) := by
                  simp [Goal.declaration?, isConstant]
                exact .behind takes (below.behind (.constantRest token) room unended.tail trivial)
            · split
              · next isFunction =>
                  have takes : (Goal.declaration room).meet token.kind =
                      .takes (.token .identifier :: Goal.procedure room) := by
                    simp [Goal.declaration?, isFunction]
                  refine .behind takes ?_
                  rw [List.append_nil]
                  exact below.behind (.functionRest token) room unended.tail trivial
              · split
                · next isReturn =>
                    refine .congr ?_ (below.same .simple room (by decide) unended trivial).made
                    refine Goal.meetAll_of_simple ?_ []
                    simp [Goal.declaration?, current, isReturn]
                · next noImport noClass noType noConstant noFunction noReturn =>
                    -- Every other statement of a block may also stand at the top level.
                    refine .congr ?_ (below.same .statement room (by decide) unended trivial).made
                    simp [Goal.declaration?, current, noImport, noClass, noType, noConstant,
                      noFunction, noReturn]

/-- Every rule makes of its tokens what its goals make of them. -/
theorem isTracked
    (isFinal : final.kind = .endOfInput)
    (rule : Rule α)
    (room : Nat)
    (tokens : List Token) :
    IsTracked final rule room tokens := by
  refine Rule.induction (motive := fun inner room later =>
    IsTracked final inner room later) ?_ rule room tokens
  intro _ rule room tokens below
  cases rule with
  | expect expectation => exact isTracked_expect isFinal room expectation
  | name expectation => exact isTracked_name isFinal room expectation
  | moreParameters known => exact isTracked_moreParameters isFinal known below
  | parameters => exact isTracked_parameters isFinal below
  | className callee => exact isTracked_className isFinal callee below
  | rawCode start => exact isTracked_rawCode isFinal start
  | expression => exact isTracked_expression below
  | moreTerms left => exact isTracked_moreTerms isFinal left below
  | comparison => exact isTracked_comparison below
  | moreComparisons left => exact isTracked_moreComparisons isFinal left below
  | chain => exact isTracked_chain below
  | moreLinks target => exact isTracked_moreLinks isFinal target below
  | items closing => exact isTracked_items isFinal closing below
  | moreItems known => exact isTracked_moreItems isFinal known below
  | primary => exact isTracked_primary isFinal below
  | procedure => exact isTracked_procedure below
  | block => exact isTracked_block isFinal below
  | loopBlock => exact isTracked_loopBlock isFinal below
  | blockRest opening closing => exact isTracked_blockRest isFinal opening closing below
  | statements known => exact isTracked_statements isFinal known below
  | statement => exact isTracked_statement isFinal below
  | simple => exact isTracked_simple isFinal below
  | variableRest start => exact isTracked_variableRest isFinal start below
  | condition => exact isTracked_condition isFinal below
  | ifRest start => exact isTracked_ifRest isFinal start below
  | whileRest start => exact isTracked_whileRest start below
  | clause closing => exact isTracked_clause isFinal closing below
  | optionalTest => exact isTracked_optionalTest below
  | forRest start => exact isTracked_forRest isFinal start below
  | importedFrom => exact isTracked_importedFrom isFinal room
  | importRest start => exact isTracked_importRest isFinal start
  | members constructor? methods => exact isTracked_members isFinal constructor? methods below
  | classRest start => exact isTracked_classRest isFinal start below
  | typeRest start => exact isTracked_typeRest isFinal start
  | constantRest start => exact isTracked_constantRest isFinal start below
  | functionRest start => exact isTracked_functionRest isFinal start below
  | declaration => exact isTracked_declaration isFinal below

end IsTracked

/-! ## Programs -/

/-- A program goes on with a declaration, unless it ends or a line breaks. -/
theorem Goal.meetAll_program
    {kind : TokenKind}
    (continues : kind ≠ .endOfInput)
    (noBreak : kind ≠ .newline)
    (room : Nat)
    (rest : List Goal) :
    meetAll kind (program room :: rest) =
      meetAll kind (declaration room :: program room :: rest) := by
  have meets : (program room).meet kind =
      .ofOption ((declaration? room kind).map (· ++ [program room])) := by
    rw [meet, if_neg continues, if_neg noBreak]
  rw [meetAll_of_meet meets, meetAll_of_meet rfl]
  exact ofOption_map_append ..

/-- The declarations of a program as the result of a rule that reads all tokens. -/
def allDeclarations (final : Token) (room : Nat) (known : List Declaration)
    (tokens : List Token) : Parsed (List Declaration) :=
  (declarations final room known tokens).map fun all => (all, [])

/-- The declarations of a program are read one by one, over the line breaks between them. -/
theorem allDeclarations_cons
    (final : Token)
    (room : Nat)
    (known : List Declaration)
    (token : Token)
    (behind : List Token) :
    allDeclarations final room known (token :: behind) =
      (Rule.declaration.read final room (token :: behind)).andThen fun next rest =>
        allDeclarations final room (next :: known) (skipNewlines rest) := by
  rw [allDeclarations, declarations_cons]
  rcases Rule.declaration.read final room (token :: behind) with failure | ⟨next, rest⟩
  · rfl
  · rfl

/-- The declarations of a program are what its goal makes of the tokens. -/
theorem allDeclarations_tracks
    {final : Token}
    (isFinal : final.kind = .endOfInput)
    (room : Nat)
    (known : List Declaration)
    (tokens : List Token) :
    Unended tokens → (current final tokens).kind ≠ .newline →
      (allDeclarations final room known tokens).Tracks final [.program room] tokens := by
  induction known, tokens using declarations_induction final room with
  | finished known =>
      intro _ _
      rw [allDeclarations, declarations_nil]
      refine Parsed.Tracks.ok ?_
      simp [Goal.meetAll_cons, Goal.meet, current, isFinal, Step.before]
  | step known token behind inductionHypothesis =>
      intro unended noBreak
      rw [allDeclarations_cons]
      have first := IsTracked.isTracked isFinal .declaration room _ unended trivial
      have parts := first.andThen unended fun next rest found unended =>
        Parsed.Tracks.skipped (by simp [Goal.meet]) (inductionHypothesis next rest found
          (unended.suffix (skipNewlines_suffix rest))
          (IsTracked.current_skipNewlines_ne isFinal rest))
      refine .congr ?_ parts
      exact Goal.meetAll_program unended.head noBreak room []

/-- A whole program has one goal, which takes line breaks and declarations. -/
theorem allDeclarations_tracks_program
    {final : Token}
    (isFinal : final.kind = .endOfInput)
    (room : Nat)
    {tokens : List Token}
    (unended : Unended tokens) :
    (allDeclarations final room [] (skipNewlines tokens)).Tracks final [.program room] tokens :=
  .skipped (by simp [Goal.meet])
    (allDeclarations_tracks isFinal room [] _ (unended.suffix (skipNewlines_suffix tokens))
      (IsTracked.current_skipNewlines_ne isFinal tokens))

/-- A program may end behind all of its tokens. -/
theorem awaits_of_programWithin
    {room : Nat}
    {tokens : List Token}
    {final : Token}
    {program : Program}
    (isFinal : final.kind = .endOfInput)
    (unended : Unended tokens)
    (found : programWithin room (tokens ++ [final]) = .ok program) :
    ∃ left, Goal.await [.program room] (tokens.map (·.kind)) = some left ∧
      Goal.meetAll .endOfInput left = .passes := by
  have tracks := allDeclarations_tracks_program isFinal room unended
  rw [programWithin_concat room unended isFinal] at found
  rw [allDeclarations] at tracks
  cases outcome : declarations final room [] (skipNewlines tokens) with
  | error error =>
      rw [outcome] at found
      cases found
  | ok all =>
      rw [outcome] at tracks
      obtain ⟨used, left, split, reached, passes⟩ := tracks
      rw [List.append_nil] at split
      cases split
      rw [current, List.headD_nil, isFinal] at passes
      exact ⟨left, reached, passes⟩

/-- An error is about the first token, or the end, that the goal of a program refuses. -/
theorem refuses_of_programWithin
    {room : Nat}
    {tokens : List Token}
    {final : Token}
    {error : GrammarError}
    (isFinal : final.kind = .endOfInput)
    (unended : Unended tokens)
    (failed : programWithin room (tokens ++ [final]) = .error error) :
    ∃ rest, error.Blames (current final rest) ∧
      Leads final [.program room] tokens rest .refuses := by
  have tracks := allDeclarations_tracks_program isFinal room unended
  rw [programWithin_concat room unended isFinal] at failed
  rw [allDeclarations] at tracks
  cases outcome : declarations final room [] (skipNewlines tokens) with
  | ok all =>
      rw [outcome] at failed
      cases failed
  | error found =>
      rw [outcome] at failed tracks
      cases failed
      exact tracks

/-- Goals that refuse a token are not met by it. -/
theorem Leads.not_passes
    {final : Token}
    {goals left : List Goal}
    {tokens rest : List Token}
    (isFinal : final.kind = .endOfInput)
    (refused : Leads final goals tokens rest .refuses)
    (reached : Goal.await goals (tokens.map (·.kind)) = some left) :
    Goal.meetAll .endOfInput left ≠ .passes := by
  obtain ⟨used, met, rfl, first, refuses⟩ := refused
  rw [List.map_append, Goal.await_append, first, Option.bind_some] at reached
  cases rest with
  | nil =>
      cases reached
      rw [current, List.headD_nil, isFinal] at refuses
      rw [refuses]
      exact Step.noConfusion
  | cons token behind =>
      rw [List.map_cons, Goal.await_cons, Goal.feed,
        show Goal.meetAll token.kind met = _ from refuses] at reached
      cases reached

/-- The kinds of the tokens decide whether they are a program. -/
theorem programWithin_iff
    {room : Nat}
    {tokens : List Token}
    {final : Token}
    (isFinal : final.kind = .endOfInput)
    (unended : Unended tokens) :
    (∃ program, programWithin room (tokens ++ [final]) = .ok program) ↔
      ∃ left, Goal.await [.program room] (tokens.map (·.kind)) = some left ∧
        Goal.meetAll .endOfInput left = .passes := by
  constructor
  · rintro ⟨program, found⟩
    exact awaits_of_programWithin isFinal unended found
  · rintro ⟨left, reached, passes⟩
    cases outcome : programWithin room (tokens ++ [final]) with
    | ok program =>
        exact ⟨program, rfl⟩
    | error error =>
        obtain ⟨rest, -, refused⟩ := refuses_of_programWithin isFinal unended outcome
        exact absurd passes (refused.not_passes isFinal reached)

end Grammar

end FrenchNim
