import Mathlib
import FrenchNim.Proofs.Grammar.Standing

namespace FrenchNim.Grammar

/-!
# Reading with a cursor

The rules read from token lists that get shorter, and are total by that. Here they
are followed with a cursor on a fixed list of tokens instead, the tape. The cursor
looks up every token that it needs and stays where it is at an end of the input,
and nothing but fuel keeps it from going on for ever. It is shown that the cursor
reads what the rules read, never leaves the tape, and needs fuel for a bounded
number of calls.
-/

/-! ## The cursor -/

/--
What a cursor comes to: a result or an error, and the place where it stands then. There is
nothing if it left the tape or ran out of fuel.
-/
abbrev Journey (α : Type) := Option (Except GrammarError α × Nat)

/-- Go on from where a journey ended, unless there is an error. -/
def Journey.andThen (first : Journey α) (next : α → Nat → Journey β) : Journey β :=
  match first with
  | some (.ok value, cursor) => next value cursor
  | some (.error error, cursor) => some (.error error, cursor)
  | none => none

section Tape

variable (tape : List Token)

/-- End with an error that names the token at the cursor. -/
def failAt (error : Token → GrammarError) (cursor : Nat) : Journey α :=
  tape[cursor]?.map fun token => (.error (error token), cursor)

/-- The token at the cursor, and the place behind it. An end of the input is not passed. -/
def advance (cursor : Nat) : Option (Token × Nat) :=
  tape[cursor]?.bind fun token =>
    if token.kind = .endOfInput then
      some (token, cursor)
    else
      tape[cursor + 1]?.map fun _ => (token, cursor + 1)

/-- Advance while there are line breaks. -/
def passBreaks : Nat → Nat → Option Nat
  | 0, _ => none
  | fuel + 1, cursor =>
      tape[cursor]?.bind fun token =>
        if token.kind = .newline then
          (advance tape cursor).bind fun (_, behind) => passBreaks fuel behind
        else
          some cursor

/-- Advance over embedded code up to the parenthesis that closes it, or to the end. -/
def passCode : Nat → Nat → Bool → String → Token → Nat → Option (String × Token × Nat)
  | 0, _, _, _, _, _ => none
  | fuel + 1, nesting, wanted, code, last, cursor =>
      (advance tape cursor).bind fun (token, behind) =>
        let written := code ++ RawCode.gap wanted token ++ RawCode.written token
        match token.kind with
        | .endOfInput => some (code, last, behind)
        | .parenOpen => passCode fuel (nesting + 1) false written token behind
        | .parenClose =>
            match nesting with
            | 0 => some (code, token, behind)
            | nesting + 1 => passCode fuel nesting true written token behind
        | _ => passCode fuel nesting (RawCode.wantsGap token) written token behind

/-- The kind of a token, if it is not the end of the input. -/
def kindBeforeEnd (token : Token) : Option TokenKind :=
  if token.kind = .endOfInput then none else some token.kind

/-- Follow a course with a cursor, and enter the rules it calls as told. -/
def Course.follow
    (fuel : Nat)
    (enter : ∀ {β : Type}, Rule β → Nat → Journey β) :
    Course α → Nat → Journey α
  | done value, cursor => some (.ok value, cursor)
  | fail (some expectation), cursor => failAt tape (.expected expectation) cursor
  | fail none, cursor => failAt tape .unexpected cursor
  | branch test yes no, cursor =>
      tape[cursor]?.bind fun token =>
        if test (kindBeforeEnd token) then
          yes.follow fuel enter cursor
        else
          no.follow fuel enter cursor
  | take next, cursor =>
      (advance tape cursor).bind fun (token, behind) => (next token).follow fuel enter behind
  | skipBreaks next, cursor =>
      (passBreaks tape fuel cursor).bind fun behind => next.follow fuel enter behind
  | capture opening next, cursor =>
      (passCode tape fuel 0 false "" opening cursor).bind fun (code, last, behind) =>
        (next (trimText code) last).follow fuel enter behind
  | call rule next, cursor =>
      (enter rule cursor).andThen fun value behind => (next value).follow fuel enter behind

/-- Follow a rule with a cursor. Every call takes fuel. -/
def Rule.follow : Nat → {α : Type} → Nat → Rule α → Nat → Journey α
  | 0, _, _, _, _ => none
  | fuel + 1, _, room, rule, cursor =>
      if rule.opens ≤ room then
        rule.course.follow tape fuel
          (fun inner place => Rule.follow fuel (room - rule.opens) inner place) cursor
      else
        failAt tape (fun token => .tooDeep token.span.first) cursor

end Tape

/-! ## Courses that look before they take -/

/--
The course takes a token only if it knows that there is one. It knows that from the last branch,
if nothing was taken, dropped or called since.
-/
def Course.Looks : Bool → Course α → Prop
  | _, done _ | _, fail _ => True
  | known, branch test yes no =>
      yes.Looks (known || !test none) ∧ no.Looks (known || test none)
  | known, take next => known = true ∧ ∀ token, (next token).Looks false
  | _, skipBreaks next => next.Looks false
  | _, capture _ next => ∀ code last, (next code last).Looks false
  | _, call _ next => ∀ value, (next value).Looks false

/-- All rules look before they take a token. -/
theorem Rule.course_looks (rule : Rule α) : rule.course.Looks false := by
  cases rule <;> simp [course, Course.Looks, Course.isEndOf]

/-! ## The cursor on a tape -/

/-- A tape that holds some tokens, an end behind them, and anything behind that. -/
structure IsTape (front : List Token) (final : Token) (tape : List Token) : Prop where
  isEnd : final.kind = .endOfInput
  proper : ∀ token ∈ front, token.kind ≠ .endOfInput
  shape : front ++ [final] <+: tape

section Following

variable
    {front tape : List Token}
    {final : Token}

namespace IsTape

/-- Up to the first end the tape holds the tokens that a rule would look at. -/
theorem lookup
    (isTape : IsTape front final tape)
    {cursor : Nat}
    (within : cursor ≤ front.length) :
    tape[cursor]? = some (current final (front.drop cursor)) := by
  obtain ⟨behind, rfl⟩ := isTape.shape
  unfold current
  rw [List.append_assoc]
  rcases Nat.lt_or_eq_of_le within with inside | rfl
  · rw [List.getElem?_append_left inside, List.drop_eq_getElem_cons inside]
    exact List.getElem?_eq_getElem inside
  · rw [List.getElem?_append_right (Nat.le_refl _), Nat.sub_self, List.drop_length]
    rfl

theorem kindBeforeEnd_current
    (isTape : IsTape front final tape)
    (cursor : Nat) :
    kindBeforeEnd (current final (front.drop cursor)) = nextKind (front.drop cursor) := by
  cases left : front.drop cursor with
  | nil => exact if_pos isTape.isEnd
  | cons token behind =>
      have member : token ∈ front := by
        refine List.mem_of_mem_drop (i := cursor) ?_
        rw [left]
        exact List.mem_cons_self ..
      exact if_neg (isTape.proper token member)

/-- The cursor moves on in front of the first end. -/
theorem advance_of_cons
    (isTape : IsTape front final tape)
    {cursor : Nat}
    {token : Token}
    {behind : List Token}
    (left : front.drop cursor = token :: behind) :
    cursor < front.length ∧ token.kind ≠ .endOfInput ∧ front.drop (cursor + 1) = behind ∧
      advance tape cursor = some (token, cursor + 1) := by
  have inside : cursor < front.length := by
    by_contra outside
    rw [List.drop_of_length_le (Nat.le_of_not_lt outside)] at left
    cases left
  have proper : token.kind ≠ .endOfInput := by
    refine isTape.proper token (List.mem_of_mem_drop (i := cursor) ?_)
    rw [left]
    exact List.mem_cons_self ..
  have later : front.drop (cursor + 1) = behind := by
    rw [← List.tail_drop, left, List.tail_cons]
  refine ⟨inside, proper, later, ?_⟩
  unfold advance
  rw [isTape.lookup (Nat.le_of_lt inside), isTape.lookup inside, left]
  exact if_neg proper

/-- The cursor stays at the first end. -/
theorem advance_of_nil
    (isTape : IsTape front final tape)
    {cursor : Nat}
    (within : cursor ≤ front.length)
    (left : front.drop cursor = []) :
    advance tape cursor = some (final, cursor) := by
  unfold advance
  rw [isTape.lookup within, left]
  exact if_pos isTape.isEnd

/-- The cursor passes the line breaks that a rule drops. -/
theorem passBreaks_eq
    (isTape : IsTape front final tape)
    {fuel cursor : Nat}
    (within : cursor ≤ front.length)
    (enough : front.length - cursor < fuel) :
    ∃ stop, cursor ≤ stop ∧ stop ≤ front.length ∧ passBreaks tape fuel cursor = some stop ∧
      front.drop stop = skipNewlines (front.drop cursor) := by
  induction fuel generalizing cursor with
  | zero => exact absurd enough (Nat.not_lt_zero _)
  | succ fuel inductionHypothesis =>
      have found := isTape.lookup within
      unfold passBreaks
      rw [found, Option.bind_some]
      cases left : front.drop cursor with
      | nil =>
          have noBreak : ¬(current final []).kind = .newline := by
            rw [current, List.headD_nil, isTape.isEnd]
            decide
          rw [if_neg noBreak]
          exact ⟨cursor, Nat.le_refl _, within, rfl, left⟩
      | cons token behind =>
          obtain ⟨inside, -, later, advanced⟩ := isTape.advance_of_cons left
          have head : current final (token :: behind) = token := rfl
          rw [head]
          by_cases isBreak : token.kind = .newline
          · obtain ⟨stop, forward, within', passed, rest⟩ :=
              @inductionHypothesis (cursor + 1) inside (by omega)
            rw [if_pos isBreak, advanced, Option.bind_some]
            refine ⟨stop, Nat.le_of_succ_le forward, within', passed, ?_⟩
            rw [rest, later, skipNewlines, skipNewlines,
              List.dropWhile_cons_of_pos (by simpa using isBreak)]
          · rw [if_neg isBreak]
            refine ⟨cursor, Nat.le_refl _, within, rfl, ?_⟩
            rw [left, skipNewlines, List.dropWhile_cons_of_neg (by simpa using isBreak)]

/-- The cursor passes the code that a rule captures. -/
theorem passCode_eq
    (isTape : IsTape front final tape)
    {fuel cursor : Nat}
    (nesting : Nat)
    (wanted : Bool)
    (code : String)
    (last : Token)
    (within : cursor ≤ front.length)
    (enough : front.length - cursor < fuel) :
    ∃ stop, cursor ≤ stop ∧ stop ≤ front.length ∧
      passCode tape fuel nesting wanted code last cursor =
        some ((RawCode.collect nesting wanted code last (front.drop cursor)).code,
          (RawCode.collect nesting wanted code last (front.drop cursor)).last, stop) ∧
      front.drop stop = (RawCode.collect nesting wanted code last (front.drop cursor)).rest := by
  induction fuel generalizing nesting wanted code last cursor with
  | zero => exact absurd enough (Nat.not_lt_zero _)
  | succ fuel inductionHypothesis =>
      unfold passCode
      cases left : front.drop cursor with
      | nil =>
          rw [isTape.advance_of_nil within left, Option.bind_some]
          simp only [isTape.isEnd]
          exact ⟨cursor, Nat.le_refl _, within, rfl, left⟩
      | cons token behind =>
          obtain ⟨inside, proper, later, advanced⟩ := isTape.advance_of_cons left
          have goOn := fun nesting wanted code last =>
            @inductionHypothesis (cursor + 1) nesting wanted code last inside (by omega)
          rw [later] at goOn
          rw [advanced, Option.bind_some, RawCode.collect.eq_def]
          simp only
          split
          · next isEnd => exact absurd isEnd proper
          · next isOpen =>
              simp only [isOpen]
              obtain ⟨stop, forward, rest⟩ := goOn (nesting + 1) false _ token
              exact ⟨stop, Nat.le_of_succ_le forward, rest⟩
          · next isClose =>
              simp only [isClose]
              cases nesting with
              | zero => exact ⟨cursor + 1, Nat.le_succ _, inside, rfl, later⟩
              | succ nesting =>
                  obtain ⟨stop, forward, rest⟩ := goOn nesting true _ token
                  exact ⟨stop, Nat.le_of_succ_le forward, rest⟩
          · next noEnd noOpen noClose =>
              split
              · next isOpen => exact absurd isOpen noOpen
              · next isClose => exact absurd isClose noClose
              · obtain ⟨stop, forward, rest⟩ := goOn nesting (RawCode.wantsGap token) _ token
                exact ⟨stop, Nat.le_of_succ_le forward, rest⟩

end IsTape

/--
The journey makes of the tokens at the cursor what a rule makes of them, and ends where the rule
leaves them, or where it fails, between the cursor and the first end.
-/
inductive Lands (front : List Token) (cursor : Nat) : Parsed α → Journey α → Prop where
  | arrived {value : α} {stop : Nat} (forward : cursor ≤ stop) (within : stop ≤ front.length) :
      Lands front cursor (.ok (value, front.drop stop)) (some (.ok value, stop))
  | failed {error : GrammarError} {stop : Nat}
      (forward : cursor ≤ stop) (within : stop ≤ front.length) :
      Lands front cursor (.error error) (some (.error error, stop))

/-- A journey may be seen from an earlier place. -/
theorem Lands.earlier
    {cursor later : Nat}
    {parsed : Parsed α}
    {journey : Journey α}
    (lands : Lands front later parsed journey)
    (behind : cursor ≤ later) :
    Lands front cursor parsed journey := by
  cases lands with
  | arrived forward within => exact .arrived (Nat.le_trans behind forward) within
  | failed forward within => exact .failed (Nat.le_trans behind forward) within

/-- Every journey ends somewhere between its start and the first end. -/
theorem Lands.ends
    {cursor : Nat}
    {parsed : Parsed α}
    {journey : Journey α}
    (lands : Lands front cursor parsed journey) :
    ∃ outcome stop, journey = some (outcome, stop) ∧ cursor ≤ stop ∧ stop ≤ front.length := by
  cases lands with
  | arrived forward within => exact ⟨_, _, rfl, forward, within⟩
  | failed forward within => exact ⟨_, _, rfl, forward, within⟩

/-- A journey may go on from where it ended. -/
theorem Lands.andThen
    {cursor : Nat}
    {parsed : Parsed α}
    {journey : Journey α}
    {next : α → List Token → Parsed β}
    {goOn : α → Nat → Journey β}
    (lands : Lands front cursor parsed journey)
    (later : ∀ value stop, cursor ≤ stop → stop ≤ front.length →
      parsed = .ok (value, front.drop stop) →
        Lands front stop (next value (front.drop stop)) (goOn value stop)) :
    Lands front cursor (parsed.andThen next) (journey.andThen goOn) := by
  cases lands with
  | arrived forward within => exact (later _ _ forward within rfl).earlier forward
  | failed forward within => exact .failed forward within

/-- With enough fuel for the tokens in front of the end, a cursor does what the course says. -/
theorem Course.follow_lands
    (isTape : IsTape front final tape)
    {room fuel : Nat}
    {enter : ∀ {β : Type}, Rule β → Nat → Journey β}
    {course : Course α}
    {known : Bool}
    (looks : course.Looks known)
    {cursor : Nat}
    (isKnown : known = true → cursor < front.length)
    (within : cursor ≤ front.length)
    (enough : front.length - cursor < fuel)
    (calls : ∀ {β : Type} (inner : Rule β) (place : Nat), place ≤ front.length →
      course.Calls final room inner (front.drop place) (front.drop cursor) →
        Lands front place (inner.read final room (front.drop place)) (enter inner place)) :
    Lands front cursor (course.run final room (front.drop cursor))
      (course.follow tape fuel enter cursor) := by
  induction course generalizing cursor known with
  | done value => exact .arrived (Nat.le_refl _) within
  | fail expectation? =>
      cases expectation? with
      | none =>
          unfold follow failAt
          rw [isTape.lookup within]
          exact .failed (Nat.le_refl _) within
      | some expectation =>
          unfold follow failAt
          rw [isTape.lookup within]
          exact .failed (Nat.le_refl _) within
  | branch test yes no yesHypothesis noHypothesis =>
      unfold run follow
      rw [isTape.lookup within, Option.bind_some, isTape.kindBeforeEnd_current]
      -- At the end there is no next kind, so a branch that is not for the end knows of a token.
      have isThere : ∀ answer, test (nextKind (front.drop cursor)) = answer →
          test none ≠ answer → cursor < front.length := by
        intro answer isAnswer differs
        by_contra outside
        rw [List.drop_of_length_le (Nat.le_of_not_lt outside)] at isAnswer
        exact differs isAnswer
      cases answer : test (nextKind (front.drop cursor)) with
      | true =>
          refine yesHypothesis looks.1 (fun isKnown' => ?_) within enough
            fun inner place within' called => calls inner place within' (.yes answer called)
          rcases Bool.or_eq_true_iff.mp isKnown' with before | noEnd
          · exact isKnown before
          · exact isThere true answer (by simpa using noEnd)
      | false =>
          refine noHypothesis looks.2 (fun isKnown' => ?_) within enough
            fun inner place within' called => calls inner place within' (.no answer called)
          rcases Bool.or_eq_true_iff.mp isKnown' with before | atEnd
          · exact isKnown before
          · exact isThere false answer (by simp [atEnd])
  | take next inductionHypothesis =>
      have inside := isKnown looks.1
      cases left : front.drop cursor with
      | nil =>
          rw [List.drop_eq_nil_iff] at left
          exact absurd left (Nat.not_le_of_lt inside)
      | cons token behind =>
          obtain ⟨-, -, later, advanced⟩ := isTape.advance_of_cons left
          unfold run follow
          rw [advanced, Option.bind_some, ← later]
          refine (inductionHypothesis token (looks.2 token) nofun inside (by omega) ?_).earlier
            (Nat.le_succ _)
          intro β inner place within' called
          refine calls inner place within' ?_
          rw [left, ← later]
          exact .take called
  | skipBreaks next inductionHypothesis =>
      obtain ⟨stop, forward, within', passed, rest⟩ := isTape.passBreaks_eq within enough
      unfold run follow
      rw [passed, Option.bind_some, ← rest]
      refine (inductionHypothesis looks nofun within' (by omega) ?_).earlier forward
      intro β inner place within' called
      refine calls inner place within' (.skipBreaks ?_)
      rwa [← rest]
  | capture opening next inductionHypothesis =>
      obtain ⟨stop, forward, within', passed, rest⟩ :=
        isTape.passCode_eq 0 false "" opening within enough
      unfold run follow
      rw [passed, Option.bind_some]
      have left : (RawCode.capture opening (front.drop cursor)).rest = front.drop stop := rest.symm
      simp only [left]
      refine (inductionHypothesis _ _ (looks _ _) nofun within' (by omega) ?_).earlier forward
      intro β inner place within' called
      refine calls inner place within' (.capture ?_)
      rwa [left]
  | call rule next inductionHypothesis =>
      unfold run follow
      refine (calls rule cursor within .here).andThen fun value stop forward within' found => ?_
      exact inductionHypothesis value (looks value) nofun within' (by omega)
        fun inner place within'' called => calls inner place within'' (.behind found called)

/-- With fuel for every call that can be open at a time, a cursor does what the rule says. -/
theorem Rule.follow_lands
    (isTape : IsTape front final tape)
    (rule : Rule α)
    (tokens : List Token) :
    ∀ {room fuel cursor : Nat}, tokens = front.drop cursor → cursor ≤ front.length →
      16 * tokens.length + rule.level + 1 < fuel →
        Lands front cursor (rule.read final room tokens) (rule.follow tape fuel room cursor) := by
  refine callInduction (motive := fun rule tokens => ∀ {room fuel cursor : Nat},
    tokens = front.drop cursor → cursor ≤ front.length →
      16 * tokens.length + rule.level + 1 < fuel →
        Lands front cursor (rule.read final room tokens) (rule.follow tape fuel room cursor))
    ?_ rule tokens
  rintro α rule _ inductionHypothesis room fuel cursor rfl within enough
  cases fuel with
  | zero => exact absurd enough (Nat.not_lt_zero _)
  | succ fuel =>
      unfold follow
      rw [read_eq_run isTape.isEnd]
      split
      · rw [List.length_drop] at enough
        refine Course.follow_lands isTape rule.course_looks nofun within (by omega) ?_
        intro β inner place within' called
        refine inductionHypothesis final _ inner _ called rfl within' ?_
        -- Every call is made on fewer tokens, or of a rule that binds tighter.
        have small := inner.level_le
        rcases called.descends rule.course_descends with fewer | ⟨notMore, taken | tighter⟩
        · rw [List.length_drop, List.length_drop] at *
          omega
        · cases taken
        · rw [List.length_drop, List.length_drop] at *
          omega
      · unfold failAt
        rw [isTape.lookup within]
        exact .failed (Nat.le_refl _) within

end Following

end FrenchNim.Grammar
