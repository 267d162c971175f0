import Mathlib.Data.List.Infix
import FrenchNim.Proofs.Grammar.Completion
import FrenchNim.Proofs.Grammar.Course
import FrenchNim.Proofs.Grammar.Joining

namespace FrenchNim.Grammar

/-!
# What follows a rule does not matter

A rule that is done looks at the next token at most to see that it does not go on
with it. So a rule that takes all of its tokens in front of some other ones takes
them in front of any others that do not go on either, and makes the same of them.
Which tokens a rule goes on with is seen from the rule alone.
-/

variable {final newFinal : Token} {old new : Option TokenKind}

/-! ## Rules leave a part of their tokens -/

/-- What follows embedded code is the end of the tokens. -/
theorem capture_rest_suffix (opening : Token) (tokens : List Token) :
    (RawCode.capture opening tokens).rest <:+ tokens := by
  unfold RawCode.capture
  exact collect_rest_suffix 0 false "" opening tokens

theorem Course.run_suffix
    {room : Nat}
    {course : Course α}
    {value : α}
    {tokens rest : List Token}
    (suffixes : ∀ {β : Type} (inner : Rule β) (later : List Token),
      course.Calls final room inner later tokens → ∀ {result left},
        inner.read final room later = .ok (result, left) → left <:+ later)
    (found : course.run final room tokens = .ok (value, rest)) :
    rest <:+ tokens := by
  induction course generalizing tokens with
  | done value =>
      cases found
      exact List.suffix_rfl
  | fail expectation? =>
      cases expectation? <;> cases found
  | branch test yes no yesHypothesis noHypothesis =>
      unfold run at found
      by_cases passed : test (nextKind tokens) = true
      · rw [if_pos passed] at found
        exact yesHypothesis (fun inner later calls => suffixes inner later (.yes passed calls)) found
      · rw [if_neg passed] at found
        exact noHypothesis (fun inner later calls =>
          suffixes inner later (.no (eq_false_of_ne_true passed) calls)) found
  | take next inductionHypothesis =>
      cases tokens with
      | nil => cases found
      | cons token behind =>
          exact (inductionHypothesis token (fun inner later calls =>
            suffixes inner later (.take calls)) found).trans (List.suffix_cons _ _)
  | skipBreaks next inductionHypothesis =>
      exact (inductionHypothesis (fun inner later calls =>
        suffixes inner later (.skipBreaks calls)) found).trans (skipNewlines_suffix tokens)
  | capture opening next inductionHypothesis =>
      exact (inductionHypothesis _ _ (fun inner later calls =>
        suffixes inner later (.capture calls)) found).trans (capture_rest_suffix opening tokens)
  | call rule next inductionHypothesis =>
      unfold run at found
      rcases first : rule.read final room tokens with error | ⟨result, left⟩
      · rw [first] at found
        cases found
      · rw [first] at found
        exact (inductionHypothesis result (fun inner later calls =>
          suffixes inner later (.behind first calls)) found).trans (suffixes rule tokens .here first)

/-- What a rule leaves of its tokens is their end. -/
theorem Rule.read_suffix
    (isEnd : final.kind = .endOfInput)
    (rule : Rule α)
    (tokens : List Token) :
    ∀ {room : Nat} {value : α} {rest : List Token},
      rule.read final room tokens = .ok (value, rest) → rest <:+ tokens := by
  refine callInduction (motive := fun rule tokens => ∀ {room : Nat} {value} {rest : List Token},
    rule.read final room tokens = .ok (value, rest) → rest <:+ tokens) ?_ rule tokens
  intro _ rule tokens inductionHypothesis room value rest found
  rw [read_eq_run isEnd] at found
  split at found
  · exact Course.run_suffix (fun inner later calls =>
      inductionHypothesis final _ inner later calls) found
  · cases found

/-! ## Courses that take a token -/

namespace Course

/-- The course cannot be done without taking a token. -/
def Takes : Course α → Prop
  | done _ => False
  | fail _ | take _ => True
  | branch _ yes no => yes.Takes ∧ no.Takes
  | skipBreaks next => next.Takes
  | capture _ next => ∀ code last, (next code last).Takes
  | call rule next => rule.isOptional = false ∨ ∀ value, (next value).Takes

theorem length_run_le
    (isEnd : final.kind = .endOfInput)
    {room : Nat}
    {course : Course α}
    {value : α}
    {tokens rest : List Token}
    (found : course.run final room tokens = .ok (value, rest)) :
    rest.length ≤ tokens.length :=
  (run_suffix (fun inner later _ => inner.read_suffix isEnd later) found).length_le

theorem Takes.shorter
    (isEnd : final.kind = .endOfInput)
    {room : Nat}
    {course : Course α}
    {value : α}
    {tokens rest : List Token}
    (takes : course.Takes)
    (found : course.run final room tokens = .ok (value, rest)) :
    rest.length < tokens.length := by
  induction course generalizing tokens with
  | done value => exact takes.elim
  | fail expectation? => cases expectation? <;> cases found
  | branch test yes no yesHypothesis noHypothesis =>
      unfold run at found
      split at found
      · exact yesHypothesis takes.1 found
      · exact noHypothesis takes.2 found
  | take next inductionHypothesis =>
      cases tokens with
      | nil => cases found
      | cons token behind => exact Nat.lt_succ_of_le (length_run_le isEnd found)
  | skipBreaks next inductionHypothesis =>
      exact Nat.lt_of_lt_of_le (inductionHypothesis takes found) (length_skipNewlines_le tokens)
  | capture opening next inductionHypothesis =>
      exact Nat.lt_of_lt_of_le (inductionHypothesis _ _ (takes _ _) found)
        (RawCode.length_capture_rest_le opening tokens)
  | call rule next inductionHypothesis =>
      unfold run at found
      rcases first : rule.read final room tokens with error | ⟨result, left⟩
      · rw [first] at found
        cases found
      · rw [first] at found
        rcases takes with required | takes
        · exact Nat.lt_of_le_of_lt (length_run_le isEnd found) (Rule.read_shorter required first)
        · exact Nat.lt_of_lt_of_le (inductionHypothesis result (takes result) found)
            (Rule.read_notLonger rule first)

end Course

/-! ## Where rules stop -/

/-- A chain does not go on with a token of the kind. -/
def endsChain (kind : TokenKind) : Bool :=
  !(kind == .dot || kind == .arrow || kind == .parenOpen || kind == .bracketOpen)

/-- A comparison does not go on with a token of the kind. -/
def endsComparison (kind : TokenKind) : Bool :=
  endsChain kind && !kind.isComparison

/-- An expression or an assignment does not go on with a token of the kind. -/
def endsSimple (kind : TokenKind) : Bool :=
  Goal.endsExpression kind && kind != .equal

/-- No statement goes on with a token of the kind. -/
def endsStatement (kind : TokenKind) : Bool :=
  endsSimple kind && kind != .elseKeyword

/--
A rule that took all of its tokens in front of the old token takes them in front of the new one
too. Embedded code runs on to the end of the input, so there has to be an old token behind it.
-/
def Rule.Stops (old new : Option TokenKind) : Rule α → Prop
  | moreParameters _ => new ≠ some .comma
  | className _ => new ≠ some .dot
  | rawCode _ | primary => old ≠ none
  | chain | moreLinks _ => old ≠ none ∧ new.all endsChain
  | comparison | moreComparisons _ => old ≠ none ∧ new.all endsComparison
  | expression | moreTerms _ | variableRest _ | constantRest _ =>
      old ≠ none ∧ new.all Goal.endsExpression
  | moreItems _ => old ≠ none ∧ new.all Goal.endsExpression ∧ new ≠ some .comma
  | optionalTest =>
      old ≠ none ∧ new.all Goal.endsExpression ∧ (old = some .semicolon → new = some .semicolon)
  | simple => old ≠ none ∧ new.all endsSimple
  | clause closing => old ≠ none ∧ new.all endsSimple ∧ (old = some closing → new = some closing)
  | ifRest _ => new ≠ some .elseKeyword
  | statement => old ≠ none ∧ new.all endsStatement
  | statements _ => old ≠ none ∧ new.all endsBlock
  | members _ _ => new.all (· == .closeKeyword)
  | typeRest _ => new ≠ some .externalKeyword
  | declaration => old ≠ none ∧ new.all endsStatement ∧ new ≠ some .externalKeyword
  | _ => True

namespace Course

/--
Wherever a course can be done in front of the old token without taking it, it is done in front of
the new one, too.
-/
def Settles (old new : Option TokenKind) : Course α → Prop
  | done _ | fail _ => True
  | branch test yes no =>
      (test old = true → yes.Takes ∨ test new = true) ∧
        (test old = false → no.Takes ∨ test new = false) ∧
          yes.Settles old new ∧ no.Settles old new
  | take next => ∀ token, (next token).Settles old new
  | skipBreaks next =>
      (old = some .newline ∨ new ≠ some .newline ∨ next.Takes) ∧ next.Settles old new
  | capture _ next =>
      (old ≠ none ∨ ∀ code last, (next code last).Takes) ∧
        ∀ code last, (next code last).Settles old new
  | call rule next =>
      (rule.Stops old new ∨ ∀ value, (next value).Takes) ∧ ∀ value, (next value).Settles old new

end Course

section

attribute [local simp] Rule.course Rule.Stops Rule.isOptional Course.Settles Course.Takes Course.is
  Course.isEndOf endsChain endsComparison endsSimple endsStatement endsBlock Goal.endsExpression

/-- What ends a block ends every statement in it. -/
theorem endsStatement_of_endsBlock {kind : TokenKind} (ends : endsBlock kind = true) :
    endsStatement kind = true ∧ kind ≠ .newline := by
  rw [endsBlock, Bool.or_eq_true, beq_iff_eq, beq_iff_eq] at ends
  rcases ends with rfl | rfl
  · exact ⟨rfl, nofun⟩
  · exact ⟨rfl, nofun⟩

theorem Rule.settles_statements
    {known : List Statement}
    (stops : (statements known).Stops old new) :
    (statements known).course.Settles old new := by
  obtain ⟨present, ends⟩ := stops
  cases new with
  | none =>
      simp [present]
  | some kind =>
      obtain ⟨endsAll, noBreak⟩ := endsStatement_of_endsBlock ends
      exact ⟨fun _ => .inr ends, fun _ => .inl (.inl rfl), trivial,
        .inl ⟨present, endsAll⟩, fun _ => ⟨.inr (.inl fun same => noBreak (Option.some.inj same)),
          .inl ⟨present, ends⟩, fun _ => trivial⟩⟩

/-- Where a rule stops, its course settles. -/
theorem Rule.course_settles {rule : Rule α} (stops : rule.Stops old new) :
    rule.course.Settles old new := by
  cases rule with
  | statements known => exact settles_statements stops
  | _ =>
      simp at stops ⊢
      all_goals cases new <;> simp_all

end

/-! ## Other tokens behind -/

/-- Tokens that others stand behind, and the others that stand there instead. -/
structure Exchange where
  final : Token
  behind : List Token
  newFinal : Token
  newBehind : List Token
  isEnd : final.kind = .endOfInput
  isNewEnd : newFinal.kind = .endOfInput

namespace Exchange

variable (exchange : Exchange)

/-- A rule that leaves a part of its tokens, or stops behind them, makes the same of them. -/
def Keeps (rule : Rule α) (later : List Token) : Prop :=
  ∀ {room : Nat} {front left : List Token} {value : α}, later = front ++ exchange.behind →
    rule.read exchange.final room later = .ok (value, left ++ exchange.behind) →
      (left = [] → rule.Stops (nextKind exchange.behind) (nextKind exchange.newBehind)) →
        rule.read exchange.newFinal room (front ++ exchange.newBehind) =
          .ok (value, left ++ exchange.newBehind)

/-- The course settles if the tokens behind are exchanged. -/
def Settled (course : Course α) : Prop :=
  course.Settles (nextKind exchange.behind) (nextKind exchange.newBehind)

/-- What stands between tokens with others behind them and a part of them is a part of them. -/
theorem exists_between
    {front middle left behind : List Token}
    (outer : middle <:+ front ++ behind)
    (inner : left ++ behind <:+ middle) :
    ∃ rest, middle = rest ++ behind ∧ left <:+ rest ∧ rest <:+ front := by
  obtain ⟨taken, rfl⟩ := inner
  obtain ⟨before, whole⟩ := outer
  refine ⟨taken ++ left, (List.append_assoc ..).symm, List.suffix_append _ _, before, ?_⟩
  refine (List.append_left_inj behind).mp ?_
  rw [← whole, List.append_assoc, List.append_assoc]

variable {exchange} {room : Nat} {front left : List Token} {value : α}

/-- A course that takes a token is not done where it started. -/
theorem not_takes
    {course : Course α}
    (found : course.run exchange.final room exchange.behind =
      .ok (value, left ++ exchange.behind)) :
    ¬course.Takes := by
  intro takes
  have shorter := takes.shorter exchange.isEnd found
  rw [List.length_append] at shorter
  omega

/-- A course that starts at the tokens behind leaves them and nothing else. -/
theorem left_eq_nil
    {course : Course α}
    (found : course.run exchange.final room exchange.behind =
      .ok (value, left ++ exchange.behind)) :
    left = [] := by
  have notLonger := Course.length_run_le exchange.isEnd found
  rw [List.length_append] at notLonger
  exact List.eq_nil_of_length_eq_zero (by omega)

/-- The same branch is taken in front of the new tokens. -/
theorem test_eq
    {test : Option TokenKind → Bool}
    {yes no : Course α}
    (settled : left = [] → exchange.Settled (.branch test yes no))
    (found : (Course.branch test yes no).run exchange.final room (front ++ exchange.behind) =
      .ok (value, left ++ exchange.behind)) :
    test (nextKind (front ++ exchange.newBehind)) = test (nextKind (front ++ exchange.behind)) := by
  by_cases empty : front = []
  · subst empty
    obtain ⟨whenYes, whenNo, -⟩ := settled (left_eq_nil found)
    unfold Course.run at found
    by_cases passed : test (nextKind exchange.behind) = true
    · rw [List.nil_append, if_pos passed] at found
      exact ((whenYes passed).resolve_left (not_takes found)).trans passed.symm
    · rw [List.nil_append, if_neg passed] at found
      have failed := eq_false_of_ne_true passed
      exact ((whenNo failed).resolve_left (not_takes found)).trans failed.symm
  · rw [nextKind_append empty, nextKind_append empty]

/-- The same line breaks are dropped in front of the new tokens. -/
theorem exists_skipNewlines
    {next : Course α}
    (settled : left = [] → exchange.Settled (.skipBreaks next))
    (found : next.run exchange.final room (skipNewlines (front ++ exchange.behind)) =
      .ok (value, left ++ exchange.behind)) :
    ∃ rest, skipNewlines (front ++ exchange.behind) = rest ++ exchange.behind ∧
      skipNewlines (front ++ exchange.newBehind) = rest ++ exchange.newBehind := by
  by_cases empty : skipNewlines front = []
  · rw [skipNewlines_append_of_empty empty] at found ⊢
    rw [skipNewlines_append_of_empty empty]
    have within := skipNewlines_suffix exchange.behind
    have notLonger := Course.length_run_le exchange.isEnd found
    rw [List.length_append] at notLonger
    have same : skipNewlines exchange.behind = exchange.behind :=
      within.eq_of_length_le (by omega)
    rw [same] at found
    refine ⟨[], same, ?_⟩
    rcases (settled (left_eq_nil found)).1 with isBreak | noBreak | takes
    · obtain ⟨token, starts, isNewline⟩ := Option.map_eq_some_iff.mp isBreak
      obtain ⟨rest, shape⟩ := List.head?_eq_some_iff.mp starts
      have fewer := length_skipNewlines_le rest
      rw [shape, skipNewlines, List.dropWhile_cons_of_pos (by simpa using isNewline)] at same
      rw [skipNewlines, same, List.length_cons] at fewer
      omega
    · exact skipNewlines_of_nextKind noBreak
    · exact (not_takes found takes).elim
  · exact ⟨skipNewlines front, skipNewlines_append empty _, skipNewlines_append empty _⟩

/-- Embedded code takes a token if there is one. -/
theorem collect_rest_suffix_tail
    (nesting : Nat)
    (wanted : Bool)
    (code : String)
    (last : Token)
    (tokens : List Token) :
    (RawCode.collect nesting wanted code last tokens).rest <:+ tokens.tail := by
  cases tokens with
  | nil => exact List.suffix_rfl
  | cons token rest =>
      rw [RawCode.collect.eq_def]
      simp only
      split
      · exact collect_rest_suffix _ _ _ _ rest
      · split
        · exact List.suffix_rfl
        · exact collect_rest_suffix _ _ _ _ rest
      · exact collect_rest_suffix _ _ _ _ rest

/-- Embedded code that is not closed in the first tokens takes one of the others. -/
theorem collect_rest_of_unclosed
    (nesting : Nat)
    (wanted : Bool)
    (code : String)
    (last : Token)
    (unclosed : closes nesting front = false)
    (behind : List Token) :
    (RawCode.collect nesting wanted code last (front ++ behind)).rest <:+ behind.tail := by
  fun_induction RawCode.collect nesting wanted code last front with
  | case1 nesting wanted code last =>
      exact collect_rest_suffix_tail nesting wanted code last behind
  | case2 nesting wanted code last token rest written isParen inductionHypothesis =>
      rw [closes.eq_def] at unclosed
      simp only [isParen] at unclosed
      rw [List.cons_append, RawCode.collect.eq_def]
      simp only [isParen]
      exact inductionHypothesis unclosed
  | case3 wanted code last token rest isParen =>
      rw [closes.eq_def] at unclosed
      simp only [isParen] at unclosed
      cases unclosed
  | case4 wanted code last token rest written isParen nesting inductionHypothesis =>
      rw [closes.eq_def] at unclosed
      simp only [isParen] at unclosed
      rw [List.cons_append, RawCode.collect.eq_def]
      simp only [isParen]
      exact inductionHypothesis unclosed
  | case5 nesting wanted code last token rest written noOpen noClose inductionHypothesis =>
      rw [closes.eq_def] at unclosed
      simp only at unclosed
      rw [List.cons_append, RawCode.collect.eq_def]
      simp only
      exact inductionHypothesis unclosed

/-- The same embedded code is captured in front of the new tokens. -/
theorem exists_capture
    {opening : Token}
    {next : String → Token → Course α}
    (settled : left = [] → exchange.Settled (.capture opening next))
    (found : (Course.capture opening next).run exchange.final room (front ++ exchange.behind) =
      .ok (value, left ++ exchange.behind)) :
    ∃ rest, RawCode.capture opening (front ++ exchange.behind) =
        { RawCode.capture opening front with rest := rest ++ exchange.behind } ∧
      RawCode.capture opening (front ++ exchange.newBehind) =
        { RawCode.capture opening front with rest := rest ++ exchange.newBehind } := by
  cases closed : closes 0 front with
  | true =>
      refine ⟨(RawCode.capture opening front).rest, ?_, ?_⟩
      · simp only [RawCode.capture, collect_append 0 false "" opening closed]
      · simp only [RawCode.capture, collect_append 0 false "" opening closed]
  | false =>
      have isPart := collect_rest_of_unclosed 0 false "" opening closed exchange.behind
      unfold Course.run at found
      have notLonger := Course.length_run_le exchange.isEnd found
      have fewer : (RawCode.capture opening (front ++ exchange.behind)).rest.length ≤
          exchange.behind.length - 1 := by
        rw [← List.length_tail]
        unfold RawCode.capture
        exact isPart.length_le
      rw [List.length_append] at notLonger
      have empty : exchange.behind = [] := List.eq_nil_of_length_eq_zero (by omega)
      have leftEmpty : left = [] := List.eq_nil_of_length_eq_zero (by omega)
      rcases (settled leftEmpty).1 with present | takes
      · exact (present (by rw [empty, nextKind_nil])).elim
      · have shorter := (takes _ _).shorter exchange.isEnd found
        rw [List.length_append] at shorter
        omega

/-- A course that is followed in front of other tokens makes the same if it settles there. -/
theorem run_keeps
    {course : Course α}
    (settled : left = [] → exchange.Settled course)
    (keeps : ∀ {β : Type} (inner : Rule β) (later : List Token),
      course.Calls exchange.final room inner later (front ++ exchange.behind) →
        exchange.Keeps inner later)
    (found : course.run exchange.final room (front ++ exchange.behind) =
      .ok (value, left ++ exchange.behind)) :
    course.run exchange.newFinal room (front ++ exchange.newBehind) =
      .ok (value, left ++ exchange.newBehind) := by
  induction course generalizing front with
  | done result =>
      obtain ⟨rfl, same⟩ := Prod.mk.inj (Except.ok.inj found)
      rw [List.append_cancel_right same]
      rfl
  | fail expectation? => cases expectation? <;> cases found
  | branch test yes no yesHypothesis noHypothesis =>
      have same := test_eq settled found
      unfold Course.run at found ⊢
      rw [same]
      by_cases passed : test (nextKind (front ++ exchange.behind)) = true
      · rw [if_pos passed] at found ⊢
        exact yesHypothesis (fun empty => (settled empty).2.2.1)
          (fun inner later calls => keeps inner later (.yes passed calls)) found
      · rw [if_neg passed] at found ⊢
        exact noHypothesis (fun empty => (settled empty).2.2.2)
          (fun inner later calls => keeps inner later (.no (eq_false_of_ne_true passed) calls))
          found
  | take next inductionHypothesis =>
      cases front with
      | nil => exact (not_takes found trivial).elim
      | cons token front =>
          exact inductionHypothesis token (fun empty => settled empty token)
            (fun inner later calls => keeps inner later (.take calls)) found
  | skipBreaks next inductionHypothesis =>
      unfold Course.run at found ⊢
      obtain ⟨rest, skipped, newSkipped⟩ := exists_skipNewlines settled found
      rw [newSkipped]
      rw [skipped] at found
      exact inductionHypothesis (fun empty => (settled empty).2)
        (fun inner later calls => keeps inner later (.skipBreaks (skipped ▸ calls))) found
  | capture opening next inductionHypothesis =>
      obtain ⟨rest, captured, newCaptured⟩ := exists_capture settled found
      unfold Course.run at found ⊢
      rw [newCaptured]
      rw [captured] at found
      exact inductionHypothesis _ _ (fun empty => (settled empty).2 _ _)
        (fun inner later calls => keeps inner later (.capture (captured ▸ calls))) found
  | call rule next inductionHypothesis =>
      unfold Course.run at found ⊢
      rcases first : rule.read exchange.final room (front ++ exchange.behind) with
        error | ⟨result, middle⟩
      · rw [first] at found
        cases found
      · rw [first, Parsed.andThen_ok] at found
        obtain ⟨rest, rfl, isPart, -⟩ := exists_between (rule.read_suffix exchange.isEnd _ first)
          (Course.run_suffix (fun inner later _ => inner.read_suffix exchange.isEnd later) found)
        -- Where the rule takes all tokens in front, what follows must not go on with it.
        have stops : rest = [] →
            rule.Stops (nextKind exchange.behind) (nextKind exchange.newBehind) := by
          rintro rfl
          have empty := List.suffix_nil.mp isPart
          exact ((settled empty).1).resolve_right fun takes => not_takes found (takes result)
        rw [keeps rule _ .here rfl first stops]
        exact inductionHypothesis result (fun empty => (settled empty).2 result)
          (fun inner later calls => keeps inner later (.behind first calls)) found

/-- What follows a rule does not matter to it, if it leaves some of its tokens or stops there. -/
theorem keeps (exchange : Exchange) (rule : Rule α) (later : List Token) :
    exchange.Keeps rule later := by
  refine Rule.callInduction (motive := fun rule later => exchange.Keeps rule later) ?_ rule later
  intro _ rule later inductionHypothesis room front left value shape found stops
  subst shape
  rw [Rule.read_eq_run exchange.isEnd] at found
  rw [Rule.read_eq_run exchange.isNewEnd]
  split at found
  · next fits =>
      rw [if_pos fits]
      exact run_keeps (fun empty => Rule.course_settles (stops empty))
        (fun inner later calls => inductionHypothesis _ _ inner later calls) found
  · cases found

end Exchange

/--
A rule that takes all of its tokens makes the same of them whatever follows, if it does not go on
with that.
-/
theorem Rule.read_standing
    (isEnd : final.kind = .endOfInput)
    (isNewEnd : newFinal.kind = .endOfInput)
    {rule : Rule α}
    {room : Nat}
    {tokens behind newBehind : List Token}
    {value : α}
    (stops : rule.Stops (nextKind behind) (nextKind newBehind))
    (found : rule.read final room (tokens ++ behind) = .ok (value, behind)) :
    rule.read newFinal room (tokens ++ newBehind) = .ok (value, newBehind) := by
  have leaves : rule.read final room (tokens ++ behind) = .ok (value, [] ++ behind) := found
  exact (Exchange.mk final behind newFinal newBehind isEnd isNewEnd).keeps rule _ rfl leaves
    fun _ => stops

end FrenchNim.Grammar
