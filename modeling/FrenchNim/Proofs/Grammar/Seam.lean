import FrenchNim.Proofs.Grammar.Continuation

namespace FrenchNim.Grammar

/-!
# Tokens behind a line break

A line break ends whatever the end of the input ends. So a rule that succeeds on
a token list makes the same of it if other tokens follow and a line break stands
between the two: as the last token of the first list, or as the first one of the
second. Two things may run on over a line break. Blocks and classes do, but they
end with a word of their own, and embedded code that is not closed does.
-/

/--
The parenthesis that is open before the tokens is closed by one of them.

`nesting` counts the parentheses that were opened since.
-/
def closes : Nat → List Token → Bool
  | _, [] => false
  | nesting, token :: rest =>
      match token.kind with
      | .parenOpen => closes (nesting + 1) rest
      | .parenClose =>
          match nesting with
          | 0 => true
          | nesting + 1 => closes nesting rest
      | _ => closes nesting rest

/-- The tokens start with embedded code that is not closed. -/
def opensCode : List Token → Bool
  | start :: word :: opening :: inner =>
      start.kind = .atSign && word.kind = .nimKeyword && opening.kind = .parenOpen &&
        !closes 0 inner
  | _ => false

/-- The tokens end inside of embedded code. -/
def endsInCode : List Token → Bool
  | [] => false
  | token :: rest => opensCode (token :: rest) || endsInCode rest

/-- Tokens that do not end in embedded code have no last part that does. -/
theorem endsInCode_suffix
    {tokens rest : List Token}
    (closed : endsInCode tokens = false)
    (behind : rest <:+ tokens) :
    endsInCode rest = false := by
  obtain ⟨front, rfl⟩ := behind
  induction front with
  | nil =>
      exact closed
  | cons token front inductionHypothesis =>
      rw [List.cons_append, endsInCode, Bool.or_eq_false_iff] at closed
      exact inductionHypothesis closed.2

/-- Tokens that follow other tokens. The token that ends the input is replaced too. -/
structure Seam where
  final : Token
  tail : List Token
  newFinal : Token
  isEnd : final.kind = .endOfInput

namespace Seam

/-- A line break stands between the tokens and the tail, outside of embedded code. -/
structure Fits (seam : Seam) (tokens : List Token) : Prop where
  lineBreak : (∃ first rest, seam.tail = first :: rest ∧ first.kind = .newline) ∨
    tokens ≠ [] ∧ EndsLine tokens
  outside : endsInCode tokens = false

variable {seam : Seam} {token : Token} {tokens rest : List Token}

/-- What is left of the tokens fits, unless it is nothing. -/
theorem Fits.suffix
    (fits : seam.Fits tokens)
    (behind : rest <:+ tokens)
    (present : rest ≠ []) :
    seam.Fits rest where
  lineBreak := fits.lineBreak.imp_right fun ⟨_, ends⟩ => ⟨present, ends.suffix behind⟩
  outside := endsInCode_suffix fits.outside behind

/-- What stands behind a token that is no line break fits. -/
theorem Fits.behind
    (fits : seam.Fits (token :: rest))
    (noBreak : token.kind ≠ .newline) :
    seam.Fits rest := by
  refine ⟨?_, endsInCode_suffix fits.outside (List.suffix_cons _ _)⟩
  refine fits.lineBreak.imp_right fun ⟨_, ends⟩ => ⟨?_, ends.suffix (List.suffix_cons _ _)⟩
  rintro rfl
  exact noBreak (ends token rfl)

theorem Fits.behindKind
    {kind : TokenKind}
    (fits : seam.Fits (token :: rest))
    (isKind : token.kind = kind)
    (noBreak : kind ≠ .newline) :
    seam.Fits rest :=
  fits.behind (isKind ▸ noBreak)

/-- The tail of nothing starts with a line break. -/
theorem Fits.starts
    (fits : seam.Fits []) :
    ∃ first rest, seam.tail = first :: rest ∧ first.kind = .newline :=
  fits.lineBreak.resolve_right fun ⟨present, _⟩ => present rfl

/-- The token that a rule looks at is the same, or it is an end in both cases. -/
theorem Fits.current_iff
    {kind : TokenKind}
    (fits : seam.Fits tokens)
    (noEnd : kind ≠ .endOfInput)
    (noBreak : kind ≠ .newline) :
    (current seam.newFinal (tokens ++ seam.tail)).kind = kind ↔
      (current seam.final tokens).kind = kind := by
  cases tokens with
  | nil =>
      obtain ⟨first, rest, starts, isBreak⟩ := fits.starts
      rw [starts]
      exact ⟨fun isKind => (noBreak (isKind.symm.trans isBreak)).elim,
        fun isKind => (noEnd (isKind.symm.trans seam.isEnd)).elim⟩
  | cons token behind =>
      exact Iff.rfl

end Seam

/-- If the first outcome is a result, the second one is the same with the tail behind it. -/
def Parsed.Carries (seam : Seam) (parsed later : Parsed α) : Prop :=
  ∀ value rest, parsed = .ok (value, rest) →
    seam.Fits rest ∧ later = .ok (value, rest ++ seam.tail)

namespace Parsed.Carries

variable {seam : Seam}

/-- A success is carried on if the tail fits behind it. -/
theorem ok
    {value : α}
    {rest : List Token}
    (fits : seam.Fits rest) :
    Parsed.Carries seam (.ok (value, rest)) (.ok (value, rest ++ seam.tail)) := by
  intro other rest' same
  cases same
  exact ⟨fits, rfl⟩

/-- Nothing is claimed of a failure. -/
theorem error
    {failure : GrammarError}
    {later : Parsed α} :
    Parsed.Carries seam (.error failure) later := by
  intro value rest found
  cases found

/-- Behind the last token, what stops at the end of the input stops at a line break. -/
theorem atEnd
    {value : α}
    {later : Parsed α}
    (fits : seam.Fits [])
    (stops : ∀ lineBreak rest, seam.tail = lineBreak :: rest → lineBreak.kind = .newline →
      later = .ok (value, lineBreak :: rest)) :
    Parsed.Carries seam (.ok (value, [])) later := by
  obtain ⟨lineBreak, rest, starts, isBreak⟩ := fits.starts
  rw [stops lineBreak rest starts isBreak, ← starts]
  exact ok fits

/-- A sequence of rules carries on if its parts do. -/
theorem andThen
    {first second : Parsed α}
    {next later : α → List Token → Parsed β}
    (carries : first.Carries seam second)
    (continued : ∀ value rest, first = .ok (value, rest) → seam.Fits rest →
      (next value rest).Carries seam (later value (rest ++ seam.tail))) :
    (first.andThen next).Carries seam (second.andThen later) := by
  rcases first with failure | ⟨value, rest⟩
  · exact error
  · obtain ⟨fits, rfl⟩ := carries value rest rfl
    exact continued value rest rfl fits

/-- The last one of a sequence of rules may pass over a line break. -/
theorem passing
    {first second : Parsed α}
    {next later : α → List Token → Parsed β}
    {passes : Prop}
    (carries : first.Carries seam second)
    (continued : ∀ value rest, first = .ok (value, rest) → seam.Fits rest →
      ∀ result left, next value rest = .ok (result, left) →
        passes ∧ left = [] ∨
          seam.Fits left ∧ later value (rest ++ seam.tail) = .ok (result, left ++ seam.tail)) :
    ∀ result left, first.andThen next = .ok (result, left) →
      passes ∧ left = [] ∨
        seam.Fits left ∧ second.andThen later = .ok (result, left ++ seam.tail) := by
  rcases first with failure | ⟨value, rest⟩
  · intro result left found
    cases found
  · obtain ⟨fits, rfl⟩ := carries value rest rfl
    exact continued value rest rfl fits

/-- Results may be changed in the same way on both sides. -/
theorem made
    {first second : Parsed α}
    (carries : first.Carries seam second)
    {make : α → β} :
    (first.andThen fun value rest => .ok (make value, rest)).Carries seam
      (second.andThen fun value rest => .ok (make value, rest)) :=
  carries.andThen fun _ _ _ fits => ok fits

/-- Both sides take the same branch. -/
theorem ite
    {condition other : Prop}
    [Decidable condition]
    [Decidable other]
    (same : other ↔ condition)
    {first second firstLater secondLater : Parsed α}
    (yes : condition → first.Carries seam firstLater)
    (no : ¬condition → second.Carries seam secondLater) :
    (if condition then first else second).Carries seam
      (if other then firstLater else secondLater) := by
  by_cases holds : condition
  · rw [if_pos holds, if_pos (same.mpr holds)]
    exact yes holds
  · rw [if_neg holds, if_neg fun otherHolds => holds (same.mp otherHolds)]
    exact no holds

end Parsed.Carries

/-- A rule that may pass over the last line break. -/
def Rule.passesBreaks : Rule α → Bool
  | statements _ | members _ _ | rawCode _ => true
  | _ => false

/-- A rule makes the same of tokens that others follow, or it has passed over a line break. -/
def CarriesOn (seam : Seam) (rule : Rule α) (room : Nat) (tokens : List Token) : Prop :=
  seam.Fits tokens → ∀ value rest, rule.read seam.final room tokens = .ok (value, rest) →
    rule.passesBreaks = true ∧ rest = [] ∨
      seam.Fits rest ∧
        rule.read seam.newFinal room (tokens ++ seam.tail) = .ok (value, rest ++ seam.tail)

section CarriesOn

variable {seam : Seam} {room : Nat} {tokens : List Token}

/-- Everything below a rule makes the same of tokens that others follow. -/
abbrev CarriesBelow (seam : Seam) (rule : Rule α) (tokens : List Token) : Prop :=
  rule.Below (fun inner room later => CarriesOn seam inner room later) tokens

/-- Most rules pass over no line break. -/
theorem CarriesOn.carries
    {rule : Rule α}
    (carriesOn : CarriesOn seam rule room tokens)
    (required : rule.passesBreaks = false)
    (fits : seam.Fits tokens) :
    (rule.read seam.final room tokens).Carries seam
      (rule.read seam.newFinal room (tokens ++ seam.tail)) := by
  intro value rest found
  refine (carriesOn fits value rest found).resolve_left fun ⟨passes, _⟩ => ?_
  rw [required] at passes
  cases passes

/-- It suffices that a rule passes over no line break. -/
theorem CarriesOn.of_carries
    {rule : Rule α}
    (carries : seam.Fits tokens → (rule.read seam.final room tokens).Carries seam
      (rule.read seam.newFinal room (tokens ++ seam.tail))) :
    CarriesOn seam rule room tokens :=
  fun fits value rest found => .inr (carries fits value rest found)

/-- No rule asks for the end of the input. -/
theorem expectation_kind_ne_endOfInput (expectation : Expectation) :
    expectation.kind ≠ .endOfInput := by
  cases expectation <;> simp [Expectation.kind]

/-- An expected token is no line break. -/
theorem carries_expect
    (expectation : Expectation)
    (fits : seam.Fits tokens) :
    ((Rule.expect expectation).read seam.final room tokens).Carries seam
      ((Rule.expect expectation).read seam.newFinal room (tokens ++ seam.tail)) := by
  cases tokens with
  | nil =>
      exact .error
  | cons token behind =>
      rw [List.cons_append, Rule.read_expect_cons, Rule.read_expect_cons]
      refine .ite Iff.rfl (fun isKind => .ok (fits.behind ?_)) (fun _ => .error)
      rw [isKind]
      exact expectation_kind_ne_newline expectation

/-- An expected token is the first one and of the expected kind. -/
theorem eq_cons_of_expect
    {final : Token}
    {expectation : Expectation}
    {token : Token}
    {rest : List Token}
    (found : (Rule.expect expectation).read final room tokens = .ok (token, rest)) :
    tokens = token :: rest ∧ token.kind = expectation.kind := by
  cases tokens with
  | nil =>
      cases found
  | cons first behind =>
      rw [Rule.read_expect_cons] at found
      split at found
      · next isKind =>
          cases found
          exact ⟨rfl, isKind⟩
      · cases found

/-- A name is carried on with its token. -/
theorem carries_name
    (expectation : Expectation)
    (fits : seam.Fits tokens) :
    ((Rule.name expectation).read seam.final room tokens).Carries seam
      ((Rule.name expectation).read seam.newFinal room (tokens ++ seam.tail)) := by
  rw [Rule.read_name, Rule.read_name]
  exact (carries_expect expectation fits).made

/-- A closing token behind a list that may have passed over a line break. -/
theorem carries_closing
    {rule : Rule α}
    {make : α → Token → β}
    {before : List Token}
    (closing : Expectation)
    (carriesOn : ∀ value rest, rule.read seam.final room before = .ok (value, rest) →
      rest = [] ∨ seam.Fits rest ∧
        rule.read seam.newFinal room tokens = .ok (value, rest ++ seam.tail)) :
    ((rule.read seam.final room before).andThen fun value behind =>
        ((Rule.expect closing).read seam.final room behind).andThen fun token rest =>
          .ok (make value token, rest)).Carries seam
      ((rule.read seam.newFinal room tokens).andThen fun value behind =>
        ((Rule.expect closing).read seam.newFinal room behind).andThen fun token rest =>
          .ok (make value token, rest)) := by
  cases found : rule.read seam.final room before with
  | error failure =>
      exact .error
  | ok parsed =>
      obtain ⟨value, behind⟩ := parsed
      rcases carriesOn value behind found with rfl | ⟨fits, later⟩
      · exact .error
      · rw [later]
        exact (carries_expect closing fits).made

/-- Behind a parameter, a line break ends the list as the end does. -/
theorem carriesOn_moreParameters
    (known : List Identifier)
    (below : CarriesBelow seam (.moreParameters known) tokens) :
    CarriesOn seam (.moreParameters known) room tokens := by
  refine .of_carries fun fits => ?_
  rw [Rule.read_moreParameters, Rule.read_moreParameters]
  refine (carries_name .parameterName fits).andThen fun parameter rest found fits => ?_
  have fewer := Rule.read_shorter rfl found
  cases rest with
  | nil =>
      refine .atEnd fits fun first more starts isBreak => ?_
      rw [List.nil_append, starts]
      simp [isBreak]
  | cons comma behind =>
      refine .ite Iff.rfl (fun isComma => ?_) (fun _ => .ok fits)
      exact (below.shorter (.moreParameters (parameter :: known)) room behind
        (Nat.lt_of_succ_lt fewer)).carries rfl (fits.behindKind isComma (by decide))

/-- A parameter list is closed before the seam. -/
theorem carriesOn_parameters
    (below : CarriesBelow seam .parameters tokens) :
    CarriesOn seam .parameters room tokens := by
  refine .of_carries fun fits => ?_
  rw [Rule.read_parameters, Rule.read_parameters]
  refine (carries_expect .parenOpen fits).andThen fun _ inner found fits => ?_
  refine .ite (fits.current_iff (by decide) (by decide))
    (fun _ => (carries_expect .parenClose fits).made) (fun _ => ?_)
  refine ((below.shorter (.moreParameters []) room inner (Rule.read_shorter rfl found)).carries rfl
    fits).andThen fun names behind _ fits => ?_
  exact (carries_expect .parenClose fits).made

/-- Behind the name of a class, a line break is no dot. -/
theorem carriesOn_className
    (callee : Expression)
    (below : CarriesBelow seam (.className callee) tokens) :
    CarriesOn seam (.className callee) room tokens := by
  refine .of_carries fun fits => ?_
  cases tokens with
  | nil =>
      rw [Rule.read_className_nil]
      refine .atEnd fits fun first more starts isBreak => ?_
      rw [List.nil_append, starts, Rule.read_className_cons, if_neg (by simp [isBreak])]
  | cons dot behind =>
      rw [List.cons_append, Rule.read_className_cons, Rule.read_className_cons]
      refine .ite Iff.rfl (fun isDot => ?_) (fun _ => .ok fits)
      refine (carries_name .propertyName (fits.behindKind isDot (by decide))).andThen
        fun property rest found fits => ?_
      have fewer := Rule.read_shorter rfl found
      exact (below.shorter (.className (.member callee property false)) room rest
        (Nat.lt_succ_of_lt fewer)).carries rfl fits

/-- Embedded code that is closed is the same with a tail behind it. -/
theorem collect_append
    (nesting : Nat)
    (wanted : Bool)
    (code : String)
    (last : Token)
    (closed : closes nesting tokens = true)
    (tail : List Token) :
    RawCode.collect nesting wanted code last (tokens ++ tail) =
      { RawCode.collect nesting wanted code last tokens with
        rest := (RawCode.collect nesting wanted code last tokens).rest ++ tail } := by
  fun_induction RawCode.collect nesting wanted code last tokens with
  | case1 =>
      cases closed
  | case2 nesting wanted code last token rest written isParen inductionHypothesis =>
      rw [closes.eq_def] at closed
      simp only [isParen] at closed
      rw [List.cons_append, RawCode.collect.eq_def]
      simp only [isParen]
      exact inductionHypothesis closed
  | case3 wanted code last token rest isParen =>
      rw [List.cons_append, RawCode.collect.eq_def]
      simp only [isParen]
  | case4 wanted code last token rest written isParen nesting inductionHypothesis =>
      rw [closes.eq_def] at closed
      simp only [isParen] at closed
      rw [List.cons_append, RawCode.collect.eq_def]
      simp only [isParen]
      exact inductionHypothesis closed
  | case5 nesting wanted code last token rest written noOpen noClose inductionHypothesis =>
      rw [closes.eq_def] at closed
      simp only at closed
      rw [List.cons_append, RawCode.collect.eq_def]
      simp only
      exact inductionHypothesis closed

/-- Behind embedded code that is closed the tail still fits. -/
theorem collect_rest_fits
    (nesting : Nat)
    (wanted : Bool)
    (code : String)
    (last : Token)
    (fits : seam.Fits tokens)
    (closed : closes nesting tokens = true) :
    seam.Fits (RawCode.collect nesting wanted code last tokens).rest := by
  fun_induction RawCode.collect nesting wanted code last tokens with
  | case1 =>
      cases closed
  | case2 nesting wanted code last token rest written isParen inductionHypothesis =>
      rw [closes.eq_def] at closed
      simp only [isParen] at closed
      exact inductionHypothesis (fits.behindKind isParen (by decide)) closed
  | case3 wanted code last token rest isParen =>
      exact fits.behindKind isParen (by decide)
  | case4 wanted code last token rest written isParen nesting inductionHypothesis =>
      rw [closes.eq_def] at closed
      simp only [isParen] at closed
      exact inductionHypothesis (fits.behindKind isParen (by decide)) closed
  | case5 nesting wanted code last token rest written noOpen noClose inductionHypothesis =>
      rw [closes.eq_def] at closed
      simp only at closed
      refine inductionHypothesis (fits.suffix (List.suffix_cons _ _) ?_) closed
      rintro rfl
      cases closed

/-- Embedded code behind its sign. -/
theorem carries_rawCode
    {start : Token}
    (isStart : start.kind = .atSign)
    (fits : seam.Fits (start :: tokens)) :
    ((Rule.rawCode start).read seam.final room tokens).Carries seam
      ((Rule.rawCode start).read seam.newFinal room (tokens ++ seam.tail)) := by
  have behindStart := fits.behindKind isStart (by decide)
  rw [Rule.read_rawCode, Rule.read_rawCode]
  refine (carries_expect .nimWord behindStart).andThen fun word behind isWord later => ?_
  refine (carries_expect .parenOpen later).andThen fun opening inner isOpening last => ?_
  obtain ⟨rfl, wordKind⟩ := eq_cons_of_expect isWord
  obtain ⟨rfl, openingKind⟩ := eq_cons_of_expect isOpening
  have outside := fits.outside
  rw [endsInCode, Bool.or_eq_false_iff, opensCode] at outside
  have closed : closes 0 inner = true := by
    simpa [isStart, wordKind, openingKind, Expectation.kind] using outside.1
  have same := collect_append 0 false "" opening closed seam.tail
  simp only [RawCode.capture, same]
  exact .ok (collect_rest_fits 0 false "" opening last closed)

/-- Embedded code that is not closed takes all tokens. -/
theorem collect_rest_eq_nil
    (nesting : Nat)
    (wanted : Bool)
    (code : String)
    (last : Token)
    (unclosed : closes nesting tokens = false) :
    (RawCode.collect nesting wanted code last tokens).rest = [] := by
  fun_induction RawCode.collect nesting wanted code last tokens with
  | case1 =>
      rfl
  | case2 nesting wanted code last token rest written isParen inductionHypothesis =>
      rw [closes.eq_def] at unclosed
      simp only [isParen] at unclosed
      exact inductionHypothesis unclosed
  | case3 wanted code last token rest isParen =>
      rw [closes.eq_def] at unclosed
      simp [isParen] at unclosed
  | case4 wanted code last token rest written isParen nesting inductionHypothesis =>
      rw [closes.eq_def] at unclosed
      simp only [isParen] at unclosed
      exact inductionHypothesis unclosed
  | case5 nesting wanted code last token rest written noOpen noClose inductionHypothesis =>
      rw [closes.eq_def] at unclosed
      simp only at unclosed
      exact inductionHypothesis unclosed

/-- Embedded code of which the sign is not seen may run over a line break. -/
theorem carriesOn_rawCode
    (start : Token) :
    CarriesOn seam (.rawCode start) room tokens := by
  intro fits
  rw [Rule.read_rawCode, Rule.read_rawCode]
  refine (carries_expect .nimWord fits).passing fun _ _ _ fits => ?_
  refine (carries_expect .parenOpen fits).passing fun opening inner _ fits value rest found => ?_
  rw [RawCode.capture] at found ⊢
  cases closed : closes 0 inner with
  | false =>
      cases found
      exact .inl ⟨rfl, collect_rest_eq_nil 0 false "" opening closed⟩
  | true =>
      rw [collect_append 0 false "" opening closed seam.tail]
      cases found
      exact .inr ⟨collect_rest_fits 0 false "" opening fits closed, rfl⟩

/-- A sum is carried on if its parts are. -/
theorem carriesOn_expression
    (below : CarriesBelow seam .expression tokens) :
    CarriesOn seam .expression room tokens := by
  refine .of_carries fun fits => ?_
  cases room with
  | zero =>
      rw [Rule.read_expression_zero]
      exact .error
  | succ room =>
      rw [Rule.read_expression_succ, Rule.read_expression_succ]
      refine ((below.same .comparison room (by decide)).carries rfl fits).andThen
        fun left behind found fits => ?_
      exact (below.shorter (.moreTerms left) room behind (Rule.read_shorter rfl found)).carries rfl
        fits

/-- Behind a term, a line break is no operator. -/
theorem carriesOn_moreTerms
    (left : Expression)
    (below : CarriesBelow seam (.moreTerms left) tokens) :
    CarriesOn seam (.moreTerms left) room tokens := by
  refine .of_carries fun fits => ?_
  cases tokens with
  | nil =>
      rw [Rule.read_moreTerms_nil]
      refine .atEnd fits fun first more starts isBreak => ?_
      rw [List.nil_append, starts, Rule.read_moreTerms_cons, isBreak]
      rfl
  | cons operator operands =>
      rw [List.cons_append, Rule.read_moreTerms_cons, Rule.read_moreTerms_cons]
      refine .ite Iff.rfl (fun isAdditive => ?_) (fun _ => .ok fits)
      have fits := fits.behind (by rintro isBreak; rw [isBreak] at isAdditive; cases isAdditive)
      refine ((below.behind .comparison room).carries rfl fits).andThen
        fun right behind found fits => ?_
      have fewer := Rule.read_shorter rfl found
      exact (below.shorter (.moreTerms (.binary operator.literal left right)) room behind
        (Nat.lt_succ_of_lt fewer)).carries rfl fits

/-- A row of comparisons is carried on if its parts are. -/
theorem carriesOn_comparison
    (below : CarriesBelow seam .comparison tokens) :
    CarriesOn seam .comparison room tokens := by
  refine .of_carries fun fits => ?_
  rw [Rule.read_comparison, Rule.read_comparison]
  refine ((below.same .chain room (by decide)).carries rfl fits).andThen
    fun left behind found fits => ?_
  exact (below.shorter (.moreComparisons left) room behind
    (Rule.read_shorter rfl found)).carries rfl fits

/-- Behind a chain, a line break is no operator. -/
theorem carriesOn_moreComparisons
    (left : Expression)
    (below : CarriesBelow seam (.moreComparisons left) tokens) :
    CarriesOn seam (.moreComparisons left) room tokens := by
  refine .of_carries fun fits => ?_
  cases tokens with
  | nil =>
      rw [Rule.read_moreComparisons_nil]
      refine .atEnd fits fun first more starts isBreak => ?_
      rw [List.nil_append, starts, Rule.read_moreComparisons_cons, isBreak]
      rfl
  | cons operator operands =>
      rw [List.cons_append, Rule.read_moreComparisons_cons, Rule.read_moreComparisons_cons]
      refine .ite Iff.rfl (fun isComparison => ?_) (fun _ => .ok fits)
      have fits := fits.behind (by
        rintro isBreak
        rw [isBreak] at isComparison
        cases isComparison)
      refine ((below.behind .chain room).carries rfl fits).andThen
        fun right behind found fits => ?_
      have fewer := Rule.read_shorter rfl found
      exact (below.shorter (.moreComparisons (.binary operator.literal left right)) room behind
        (Nat.lt_succ_of_lt fewer)).carries rfl fits

/-- A chain is carried on if its parts are. -/
theorem carriesOn_chain
    (below : CarriesBelow seam .chain tokens) :
    CarriesOn seam .chain room tokens := by
  refine .of_carries fun fits => ?_
  rw [Rule.read_chain, Rule.read_chain]
  refine ((below.same .primary room (by decide)).carries rfl fits).andThen
    fun head behind found fits => ?_
  exact (below.shorter (.moreLinks head) room behind (Rule.read_shorter rfl found)).carries rfl fits

/-- Behind a target, a line break is no link. -/
theorem carriesOn_moreLinks
    (target : Expression)
    (below : CarriesBelow seam (.moreLinks target) tokens) :
    CarriesOn seam (.moreLinks target) room tokens := by
  refine .of_carries fun fits => ?_
  cases tokens with
  | nil =>
      rw [Rule.read_moreLinks_nil]
      refine .atEnd fits fun first more starts isBreak => ?_
      rw [List.nil_append, starts, Rule.read_moreLinks_cons, isBreak]
      rfl
  | cons link inner =>
      rw [List.cons_append, Rule.read_moreLinks_cons, Rule.read_moreLinks_cons]
      refine .ite Iff.rfl (fun isMember => ?_) (fun _ => ?_)
      · have fits := fits.behind (by rcases isMember with isDot | isArrow <;> simp [*])
        refine (carries_name .propertyName fits).andThen fun property behind found fits => ?_
        have fewer := Rule.read_shorter rfl found
        exact (below.shorter (.moreLinks (.member target property (link.kind = .arrow))) room
          behind (Nat.lt_succ_of_lt fewer)).carries rfl fits
      refine .ite Iff.rfl (fun isCall => ?_) (fun _ => ?_)
      · refine ((below.behind (.items .parenClose) room).carries rfl
          (fits.behindKind isCall (by decide))).andThen fun arguments behind found fits => ?_
        have fewer := Rule.read_shorter rfl found
        exact (below.shorter
          (.moreLinks (.invocation target arguments.1 arguments.2.span.last)) room behind
          (Nat.lt_succ_of_lt fewer)).carries rfl fits
      refine .ite Iff.rfl (fun isIndex => ?_) (fun _ => .ok fits)
      refine ((below.behind .expression room).carries rfl
        (fits.behindKind isIndex (by decide))).andThen fun position behind found fits => ?_
      have fewer := Rule.read_shorter rfl found
      refine (carries_expect .bracketClose fits).andThen fun closing after found fits => ?_
      have fewer' := Rule.read_shorter rfl found
      exact (below.shorter (.moreLinks (.index target position closing.span.last)) room after
        (by simp only [List.length_cons]; omega)).carries rfl fits

/-- The items are closed before the seam. -/
theorem carriesOn_items
    (closing : Expectation)
    (below : CarriesBelow seam (.items closing) tokens) :
    CarriesOn seam (.items closing) room tokens := by
  refine .of_carries fun fits => ?_
  rw [Rule.read_items, Rule.read_items]
  refine .ite (fits.current_iff (expectation_kind_ne_endOfInput closing)
    (expectation_kind_ne_newline closing)) (fun _ => (carries_expect closing fits).made)
    (fun _ => ?_)
  refine ((below.same (.moreItems []) room (by simp [Rule.level])).carries rfl fits).andThen
    fun values behind _ fits => ?_
  exact (carries_expect closing fits).made

/-- Behind an item, a line break ends the items as the end does. -/
theorem carriesOn_moreItems
    (known : List Expression)
    (below : CarriesBelow seam (.moreItems known) tokens) :
    CarriesOn seam (.moreItems known) room tokens := by
  refine .of_carries fun fits => ?_
  rw [Rule.read_moreItems, Rule.read_moreItems]
  refine ((below.same .expression room (by simp [Rule.level])).carries rfl fits).andThen
    fun value behind found fits => ?_
  have fewer := Rule.read_shorter rfl found
  cases behind with
  | nil =>
      refine .atEnd fits fun first more starts isBreak => ?_
      rw [List.nil_append, starts]
      simp [isBreak]
  | cons comma after =>
      refine .ite Iff.rfl (fun isComma => ?_) (fun _ => .ok fits)
      exact (below.shorter (.moreItems (value :: known)) room after
        (Nat.lt_of_succ_lt fewer)).carries rfl (fits.behindKind isComma (by decide))

/-- A primary expression is carried on, whichever token it begins with. -/
theorem carriesOn_primary
    (below : CarriesBelow seam .primary tokens) :
    CarriesOn seam .primary room tokens := by
  refine .of_carries fun fits => ?_
  cases tokens with
  | nil =>
      rw [Rule.read_primary_nil]
      exact .error
  | cons token behind =>
      rw [List.cons_append]
      cases isLeaf : leaf? token with
      | some leaf =>
          rw [Rule.read_primary_leaf _ _ isLeaf, Rule.read_primary_leaf _ _ isLeaf]
          exact .ok (fits.behind (kind_ne_newline_of_leaf? isLeaf))
      | none =>
          rw [Rule.read_primary_cons _ _ isLeaf, Rule.read_primary_cons _ _ isLeaf]
          refine .ite Iff.rfl (fun isNew => ?_) (fun _ => ?_)
          · refine (carries_name .className (fits.behindKind isNew (by decide))).andThen
              fun class' after found fits => ?_
            have fewer := Rule.read_shorter rfl found
            refine ((below.shorter (.className (.identifier class')) room after
              (Nat.lt_succ_of_lt fewer)).carries rfl fits).andThen fun callee inner found fits => ?_
            have notLonger := Rule.read_notLonger _ found
            refine (carries_expect .parenOpen fits).andThen fun _ inside found fits => ?_
            have fewer' := Rule.read_shorter rfl found
            exact ((below.shorter (.items .parenClose) room inside
              (by simp only [List.length_cons]; omega)).carries rfl fits).made
          refine .ite Iff.rfl (fun isFunction => ?_) (fun _ => ?_)
          · exact ((below.behind .procedure room).carries rfl
              (fits.behindKind isFunction (by decide))).made
          refine .ite Iff.rfl (fun isRaw => carries_rawCode isRaw fits) (fun _ => ?_)
          refine .ite Iff.rfl (fun isArray => ?_) (fun _ => ?_)
          · exact ((below.behind (.items .bracketClose) room).carries rfl
              (fits.behindKind isArray (by decide))).made
          refine .ite Iff.rfl (fun isParen => ?_) (fun _ => .error)
          refine ((below.behind .expression room).carries rfl
            (fits.behindKind isParen (by decide))).andThen fun inner after _ fits => ?_
          exact (carries_expect .parenClose fits).made

/-- A procedure is carried on if its parts are. -/
theorem carriesOn_procedure
    (below : CarriesBelow seam .procedure tokens) :
    CarriesOn seam .procedure room tokens := by
  refine .of_carries fun fits => ?_
  rw [Rule.read_procedure, Rule.read_procedure]
  refine ((below.same .parameters room (by decide)).carries rfl fits).andThen
    fun names behind found fits => ?_
  exact ((below.shorter .block room behind (Rule.read_shorter rfl found)).carries rfl fits).made

/-- A block is closed before the seam. -/
theorem carriesOn_block
    (below : CarriesBelow seam .block tokens) :
    CarriesOn seam .block room tokens := by
  refine .of_carries fun fits => ?_
  rw [Rule.read_block, Rule.read_block]
  refine (carries_expect .openWord fits).andThen fun opening inner found fits => ?_
  exact (below.shorter (.blockRest opening .closeWord) room inner
    (Rule.read_shorter rfl found)).carries rfl fits

/-- The body of a loop is closed before the seam. -/
theorem carriesOn_loopBlock
    (below : CarriesBelow seam .loopBlock tokens) :
    CarriesOn seam .loopBlock room tokens := by
  refine .of_carries fun fits => ?_
  cases tokens with
  | nil =>
      rw [Rule.read_loopBlock_nil]
      exact .error
  | cons opening inner =>
      rw [List.cons_append, Rule.read_loopBlock_cons, Rule.read_loopBlock_cons]
      refine .ite Iff.rfl (fun isBrace => ?_) (fun _ => ?_)
      · exact (below.behind (.blockRest opening .braceClose) room).carries rfl
          (fits.behindKind isBrace (by decide))
      refine .ite Iff.rfl (fun isOpening => ?_) (fun _ => .error)
      exact (below.behind (.blockRest opening .closeWord) room).carries rfl
        (fits.behindKind isOpening (by decide))

/-- A rule that has to read something makes nothing of no tokens. -/
theorem carries_nil
    {rule : Rule α}
    {later : Parsed α}
    (required : rule.isOptional = false) :
    (rule.read seam.final room []).Carries seam later := by
  intro value rest found
  exact (Nat.not_lt_zero _ (Rule.read_shorter required found)).elim

/-- Line breaks in front of tokens are skipped with the tail too. -/
theorem skipNewlines_append
    (present : skipNewlines tokens ≠ [])
    (tail : List Token) :
    skipNewlines (tokens ++ tail) = skipNewlines tokens ++ tail := by
  unfold skipNewlines at *
  rw [List.dropWhile_append, if_neg (by simpa using present)]

/-- The statements of a block may pass over the last line break, but its closing word does not. -/
theorem carriesOn_blockRest
    (opening : Token)
    (closing : Expectation)
    (below : CarriesBelow seam (.blockRest opening closing) tokens) :
    CarriesOn seam (.blockRest opening closing) room tokens := by
  refine .of_carries fun fits => ?_
  rw [Rule.read_blockRest, Rule.read_blockRest]
  refine carries_closing closing fun body behind found => ?_
  by_cases atEnd : skipNewlines tokens = []
  · rw [atEnd, Rule.read_statements_nil] at found
    cases found
    exact .inl rfl
  · rw [skipNewlines_append atEnd]
    exact (below.tighter (.statements []) room (skipNewlines tokens) (by simp [Rule.level])
      (length_skipNewlines_le tokens) (fits.suffix (skipNewlines_suffix tokens) atEnd)
      body behind found).imp_left And.right

/-- Statements end before the word that closes their block, so before the seam. -/
theorem carriesOn_statements
    (known : List Statement)
    (below : CarriesBelow seam (.statements known) tokens) :
    CarriesOn seam (.statements known) room tokens := by
  intro fits value rest found
  cases tokens with
  | nil =>
      rw [Rule.read_statements_nil] at found
      cases found
      exact .inl ⟨rfl, rfl⟩
  | cons token behind =>
      rw [Rule.read_statements_cons] at found
      rw [List.cons_append, Rule.read_statements_cons]
      split at found
      · next isEnd =>
          cases found
          exact .inr ⟨fits, if_pos isEnd⟩
      · next noEnd =>
          rw [if_neg noEnd]
          have carries := (below.same .statement room (by simp [Rule.level])).carries rfl fits
          refine carries.passing (fun next after read fits result left found => ?_) value rest found
          have fewer := Rule.read_shorter rfl read
          have skipped := length_skipNewlines_le after
          by_cases atEnd : skipNewlines after = []
          · rw [atEnd, Rule.read_statements_nil] at found
            cases found
            exact .inl ⟨rfl, rfl⟩
          · rw [skipNewlines_append atEnd]
            exact below.shorter (.statements (next :: known)) room (skipNewlines after)
              (by omega) (fits.suffix (skipNewlines_suffix after) atEnd) result left found

/-- A statement is carried on, whichever keyword it begins with. -/
theorem carriesOn_statement
    (below : CarriesBelow seam .statement tokens) :
    CarriesOn seam .statement room tokens := by
  refine .of_carries fun fits => ?_
  cases tokens with
  | nil =>
      exact carries_nil rfl
  | cons token behind =>
      rw [List.cons_append, Rule.read_statement_cons, Rule.read_statement_cons]
      refine .ite Iff.rfl (fun isReturn => ?_) (fun _ => ?_)
      · exact ((below.behind .expression room).carries rfl
          (fits.behindKind isReturn (by decide))).made
      refine .ite Iff.rfl (fun isVariable => ?_) (fun _ => ?_)
      · exact (below.behind (.variableRest token) room).carries rfl
          (fits.behindKind isVariable (by decide))
      refine .ite Iff.rfl (fun isFor => ?_) (fun _ => ?_)
      · exact (below.behind (.forRest token) room).carries rfl
          (fits.behindKind isFor (by decide))
      refine .ite Iff.rfl (fun isWhile => ?_) (fun _ => ?_)
      · exact (below.behind (.whileRest token) room).carries rfl
          (fits.behindKind isWhile (by decide))
      refine .ite Iff.rfl (fun isIf => ?_) (fun _ => ?_)
      · exact (below.behind (.ifRest token) room).carries rfl (fits.behindKind isIf (by decide))
      exact (below.same .simple room (by decide)).carries rfl fits

/-- Behind an expression, a line break is no equal sign. -/
theorem carriesOn_simple
    (below : CarriesBelow seam .simple tokens) :
    CarriesOn seam .simple room tokens := by
  refine .of_carries fun fits => ?_
  rw [Rule.read_simple, Rule.read_simple]
  refine ((below.same .expression room (by decide)).carries rfl fits).andThen
    fun target behind found fits => ?_
  have fewer := Rule.read_shorter rfl found
  cases behind with
  | nil =>
      refine .atEnd fits fun first more starts isBreak => ?_
      rw [List.nil_append, starts]
      simp [isBreak]
  | cons equal after =>
      refine .ite Iff.rfl (fun isEqual => ?_) (fun _ => .ok fits)
      exact ((below.shorter .expression room after (Nat.lt_of_succ_lt fewer)).carries rfl
        (fits.behindKind isEqual (by decide))).made

/-- The declaration of a variable is carried on if its value is. -/
theorem carriesOn_variableRest
    (start : Token)
    (below : CarriesBelow seam (.variableRest start) tokens) :
    CarriesOn seam (.variableRest start) room tokens := by
  refine .of_carries fun fits => ?_
  rw [Rule.read_variableRest, Rule.read_variableRest]
  refine (carries_name .variableName fits).andThen fun identifier behind found fits => ?_
  have fewer := Rule.read_shorter rfl found
  refine (carries_expect .equalWord fits).andThen fun _ after found fits => ?_
  have fewer' := Rule.read_shorter rfl found
  exact ((below.shorter .expression room after (by omega)).carries rfl fits).made

/-- A condition is closed before the seam. -/
theorem carriesOn_condition
    (below : CarriesBelow seam .condition tokens) :
    CarriesOn seam .condition room tokens := by
  refine .of_carries fun fits => ?_
  rw [Rule.read_condition, Rule.read_condition]
  refine (carries_expect .parenOpen fits).andThen fun _ inner found fits => ?_
  refine ((below.shorter .expression room inner (Rule.read_shorter rfl found)).carries rfl
    fits).andThen fun test behind _ fits => ?_
  exact (carries_expect .parenClose fits).made

/-- Behind the first block, a line break is not the word of a second one. -/
theorem carriesOn_ifRest
    (start : Token)
    (below : CarriesBelow seam (.ifRest start) tokens) :
    CarriesOn seam (.ifRest start) room tokens := by
  refine .of_carries fun fits => ?_
  rw [Rule.read_ifRest, Rule.read_ifRest]
  refine ((below.same .condition room (by simp [Rule.level])).carries rfl fits).andThen
    fun test behind found fits => ?_
  have fewer := Rule.read_shorter rfl found
  refine ((below.shorter .block room behind fewer).carries rfl fits).andThen
    fun consequent after found fits => ?_
  have fewer' := Rule.read_shorter rfl found
  cases after with
  | nil =>
      refine .atEnd fits fun first more starts isBreak => ?_
      rw [List.nil_append, starts]
      simp [isBreak]
  | cons word inner =>
      refine .ite Iff.rfl (fun isElse => ?_) (fun _ => .ok fits)
      simp only [List.length_cons] at fewer'
      exact ((below.shorter .block room inner (by omega)).carries rfl
        (fits.behindKind isElse (by decide))).made

/-- A `while` loop is carried on if its body is. -/
theorem carriesOn_whileRest
    (start : Token)
    (below : CarriesBelow seam (.whileRest start) tokens) :
    CarriesOn seam (.whileRest start) room tokens := by
  refine .of_carries fun fits => ?_
  rw [Rule.read_whileRest, Rule.read_whileRest]
  refine ((below.same .condition room (by simp [Rule.level])).carries rfl fits).andThen
    fun test behind found fits => ?_
  exact ((below.shorter .loopBlock room behind (Rule.read_shorter rfl found)).carries rfl fits).made

/-- A clause of a `for` loop is carried on, missing or not. -/
theorem carriesOn_clause
    (closing : TokenKind)
    (below : CarriesBelow seam (.clause closing) tokens) :
    CarriesOn seam (.clause closing) room tokens := by
  refine .of_carries fun fits => ?_
  cases tokens with
  | nil =>
      rw [Rule.read_clause_nil]
      exact carries_nil rfl
  | cons token behind =>
      rw [List.cons_append, Rule.read_clause_cons, Rule.read_clause_cons]
      refine .ite Iff.rfl (fun _ => .ok fits) (fun _ => ?_)
      refine .ite Iff.rfl (fun isVariable => ?_) (fun _ => ?_)
      · exact (below.behind (.variableRest token) room).carries rfl
          (fits.behindKind isVariable (by decide))
      exact (below.same .simple room (by simp [Rule.level])).carries rfl fits

theorem carriesOn_optionalTest
    (below : CarriesBelow seam .optionalTest tokens) :
    CarriesOn seam .optionalTest room tokens := by
  refine .of_carries fun fits => ?_
  rw [Rule.read_optionalTest, Rule.read_optionalTest]
  refine .ite (fits.current_iff (by decide) (by decide)) (fun _ => .ok fits) (fun _ => ?_)
  exact (below.same .expression room (by decide)).carries rfl fits

/-- A `for` loop is carried on if its body is. -/
theorem carriesOn_forRest
    (start : Token)
    (below : CarriesBelow seam (.forRest start) tokens) :
    CarriesOn seam (.forRest start) room tokens := by
  refine .of_carries fun fits => ?_
  rw [Rule.read_forRest, Rule.read_forRest]
  refine (carries_expect .parenOpen fits).andThen fun _ inner found fits => ?_
  have opened := Rule.read_shorter rfl found
  refine ((below.shorter (.clause .semicolon) room inner opened).carries rfl fits).andThen
    fun initial behindInitial found fits => ?_
  have first := Rule.read_notLonger _ found
  refine (carries_expect .semicolon fits).andThen fun _ beforeTest found fits => ?_
  have second := Rule.read_shorter rfl found
  refine ((below.shorter .optionalTest room beforeTest (by omega)).carries rfl fits).andThen
    fun test behindTest found fits => ?_
  have third := Rule.read_notLonger _ found
  refine (carries_expect .semicolon fits).andThen fun _ beforeIncrement found fits => ?_
  have fourth := Rule.read_shorter rfl found
  refine ((below.shorter (.clause .parenClose) room beforeIncrement (by omega)).carries rfl
    fits).andThen fun increment behindIncrement found fits => ?_
  have fifth := Rule.read_notLonger _ found
  refine (carries_expect .parenClose fits).andThen fun _ beforeBody found fits => ?_
  have sixth := Rule.read_shorter rfl found
  exact ((below.shorter .loopBlock room beforeBody (by omega)).carries rfl fits).made

/-- The path of an import is carried on with its token. -/
theorem carries_importedFrom
    (fits : seam.Fits tokens) :
    (Rule.importedFrom.read seam.final room tokens).Carries seam
      (Rule.importedFrom.read seam.newFinal room (tokens ++ seam.tail)) := by
  rw [Rule.read_importedFrom, Rule.read_importedFrom]
  exact (carries_expect .fromWord fits).andThen fun _ _ _ fits =>
    carries_expect .importedPath fits

/-- An import ends with its path, before the seam. -/
theorem carries_importRest
    (start : Token)
    (fits : seam.Fits tokens) :
    ((Rule.importRest start).read seam.final room tokens).Carries seam
      ((Rule.importRest start).read seam.newFinal room (tokens ++ seam.tail)) := by
  rw [Rule.read_importRest, Rule.read_importRest]
  refine (carries_name .moduleName fits).andThen fun module' behind _ fits => ?_
  refine .ite (fits.current_iff (by decide) (by decide)) (fun isAs => ?_)
    (fun _ => (carries_importedFrom fits).made)
  cases behind with
  | nil =>
      cases isAs.symm.trans seam.isEnd
  | cons word after =>
      refine (carries_name .aliasName (fits.behindKind isAs (by decide))).andThen
        fun newName rest _ fits => ?_
      exact (carries_importedFrom fits).made

/-- The members of a class may pass over the last line break. -/
theorem carriesOn_members
    (constructor? : Option Constructor)
    (methods : List Method)
    (below : CarriesBelow seam (.members constructor? methods) tokens) :
    CarriesOn seam (.members constructor? methods) room tokens := by
  intro fits value rest found
  cases tokens with
  | nil =>
      rw [Rule.read_members_nil] at found
      cases found
      exact .inl ⟨rfl, rfl⟩
  | cons token behind =>
      rw [Rule.read_members_cons] at found
      rw [List.cons_append, Rule.read_members_cons]
      split at found
      · next isClose =>
          cases found
          exact .inr ⟨fits, if_pos isClose⟩
      next noClose =>
      rw [if_neg noClose]
      split at found
      · next isConstructor =>
          rw [if_pos isConstructor]
          have carries := (below.behind .procedure room).carries rfl
            (fits.behindKind isConstructor (by decide))
          refine carries.passing (fun procedure after read fits => ?_) value rest found
          have fewer := Rule.read_shorter rfl read
          exact below.shorter
            (.members (some ⟨procedure.1, procedure.2, token.span.first⟩) methods) room
            after (Nat.lt_succ_of_lt fewer) fits
      next noConstructor =>
      rw [if_neg noConstructor]
      split at found
      · next isMethod =>
          rw [if_pos isMethod]
          have carries := (below.behind .procedure room).carries rfl
            (fits.behindKind isMethod (by decide))
          refine carries.passing (fun procedure after read fits => ?_) value rest found
          have fewer := Rule.read_shorter rfl read
          exact below.shorter
            (.members constructor? (⟨identifierOf token, procedure.1, procedure.2⟩ :: methods))
            room after (Nat.lt_succ_of_lt fewer) fits
      next noMethod =>
      rw [if_neg noMethod]
      by_cases atEnd : behind = []
      · rw [atEnd, Rule.read_members_nil] at found
        cases found
        exact .inl ⟨rfl, rfl⟩
      · exact below.behind (.members constructor? methods) room
          (fits.suffix (List.suffix_cons token behind) atEnd) value rest found

/-- A class is closed before the seam. -/
theorem carriesOn_classRest
    (start : Token)
    (below : CarriesBelow seam (.classRest start) tokens) :
    CarriesOn seam (.classRest start) room tokens := by
  refine .of_carries fun fits => ?_
  rw [Rule.read_classRest, Rule.read_classRest]
  refine (carries_name .className fits).andThen fun class' behind found fits => ?_
  have fewer := Rule.read_shorter rfl found
  refine (carries_expect .openWord fits).andThen fun _ inner found fits => ?_
  have fewer' := Rule.read_shorter rfl found
  refine carries_closing .closeWord fun members after found => ?_
  exact (below.shorter (.members none []) room inner (by omega) fits members after found).imp_left
    And.right

/-- Behind the equal word of a type, a line break is not the external word. -/
theorem carries_typeRest
    (start : Token)
    (fits : seam.Fits tokens) :
    ((Rule.typeRest start).read seam.final room tokens).Carries seam
      ((Rule.typeRest start).read seam.newFinal room (tokens ++ seam.tail)) := by
  rw [Rule.read_typeRest, Rule.read_typeRest]
  refine (carries_name .typeName fits).andThen fun type' behind _ fits => ?_
  refine (carries_expect .equalWord fits).andThen fun equal after _ fits => ?_
  cases after with
  | nil =>
      rw [externalWord]
      refine .atEnd fits fun first more starts isBreak => ?_
      rw [List.nil_append, starts, externalWord, if_neg (by simp [isBreak])]
      rfl
  | cons word rest =>
      rw [List.cons_append, externalWord, externalWord]
      by_cases isExternal : word.kind = .externalKeyword
      · rw [if_pos isExternal, if_pos isExternal]
        exact .ok (fits.behindKind isExternal (by decide))
      · rw [if_neg isExternal, if_neg isExternal]
        exact .ok fits

/-- A constant is carried on if its value is. -/
theorem carriesOn_constantRest
    (start : Token)
    (below : CarriesBelow seam (.constantRest start) tokens) :
    CarriesOn seam (.constantRest start) room tokens := by
  refine .of_carries fun fits => ?_
  rw [Rule.read_constantRest, Rule.read_constantRest]
  refine (carries_name .constantName fits).andThen fun identifier behind found fits => ?_
  have fewer := Rule.read_shorter rfl found
  refine (carries_expect .equalWord fits).andThen fun _ after found fits => ?_
  have fewer' := Rule.read_shorter rfl found
  exact ((below.shorter .expression room after (by omega)).carries rfl fits).made

/-- A function is carried on if its procedure is. -/
theorem carriesOn_functionRest
    (start : Token)
    (below : CarriesBelow seam (.functionRest start) tokens) :
    CarriesOn seam (.functionRest start) room tokens := by
  refine .of_carries fun fits => ?_
  rw [Rule.read_functionRest, Rule.read_functionRest]
  refine (carries_name .functionName fits).andThen fun identifier behind found fits => ?_
  exact ((below.shorter .procedure room behind (Rule.read_shorter rfl found)).carries rfl fits).made

/-- A declaration is carried on, whichever keyword it begins with. -/
theorem carriesOn_declaration
    (below : CarriesBelow seam .declaration tokens) :
    CarriesOn seam .declaration room tokens := by
  refine .of_carries fun fits => ?_
  cases tokens with
  | nil =>
      exact carries_nil rfl
  | cons token behind =>
      rw [List.cons_append, Rule.read_declaration_cons, Rule.read_declaration_cons]
      refine .ite Iff.rfl (fun isImport => ?_) (fun _ => ?_)
      · exact carries_importRest token (fits.behindKind isImport (by decide))
      refine .ite Iff.rfl (fun isClass => ?_) (fun _ => ?_)
      · exact (below.behind (.classRest token) room).carries rfl
          (fits.behindKind isClass (by decide))
      refine .ite Iff.rfl (fun isType => ?_) (fun _ => ?_)
      · exact carries_typeRest token (fits.behindKind isType (by decide))
      refine .ite Iff.rfl (fun isConstant => ?_) (fun _ => ?_)
      · exact (below.behind (.constantRest token) room).carries rfl
          (fits.behindKind isConstant (by decide))
      refine .ite Iff.rfl (fun isFunction => ?_) (fun _ => ?_)
      · exact (below.behind (.functionRest token) room).carries rfl
          (fits.behindKind isFunction (by decide))
      refine .ite Iff.rfl (fun _ => ?_) (fun _ => ?_)
      · exact ((below.same .simple room (by decide)).carries rfl fits).made
      · exact ((below.same .statement room (by decide)).carries rfl fits).made

/-- Every rule makes the same of tokens that others follow behind a line break. -/
theorem carriesOn (rule : Rule α) (room : Nat) (tokens : List Token) :
    CarriesOn seam rule room tokens := by
  refine Rule.induction (motive := fun inner room later =>
    CarriesOn seam inner room later) ?_ rule room tokens
  intro _ rule room tokens below
  cases rule with
  | expect expectation => exact .of_carries fun fits => carries_expect expectation fits
  | name expectation => exact .of_carries fun fits => carries_name expectation fits
  | moreParameters known => exact carriesOn_moreParameters known below
  | parameters => exact carriesOn_parameters below
  | className callee => exact carriesOn_className callee below
  | rawCode start => exact carriesOn_rawCode start
  | expression => exact carriesOn_expression below
  | moreTerms left => exact carriesOn_moreTerms left below
  | comparison => exact carriesOn_comparison below
  | moreComparisons left => exact carriesOn_moreComparisons left below
  | chain => exact carriesOn_chain below
  | moreLinks target => exact carriesOn_moreLinks target below
  | items closing => exact carriesOn_items closing below
  | moreItems known => exact carriesOn_moreItems known below
  | primary => exact carriesOn_primary below
  | procedure => exact carriesOn_procedure below
  | block => exact carriesOn_block below
  | loopBlock => exact carriesOn_loopBlock below
  | blockRest opening closing => exact carriesOn_blockRest opening closing below
  | statements known => exact carriesOn_statements known below
  | statement => exact carriesOn_statement below
  | simple => exact carriesOn_simple below
  | variableRest start => exact carriesOn_variableRest start below
  | condition => exact carriesOn_condition below
  | ifRest start => exact carriesOn_ifRest start below
  | whileRest start => exact carriesOn_whileRest start below
  | clause closing => exact carriesOn_clause closing below
  | optionalTest => exact carriesOn_optionalTest below
  | forRest start => exact carriesOn_forRest start below
  | importedFrom => exact .of_carries carries_importedFrom
  | importRest start => exact .of_carries (carries_importRest start)
  | members constructor? methods => exact carriesOn_members constructor? methods below
  | classRest start => exact carriesOn_classRest start below
  | typeRest start => exact .of_carries (carries_typeRest start)
  | constantRest start => exact carriesOn_constantRest start below
  | functionRest start => exact carriesOn_functionRest start below
  | declaration => exact carriesOn_declaration below

end CarriesOn

end FrenchNim.Grammar
