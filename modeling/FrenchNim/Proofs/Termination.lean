import Mathlib
import FrenchNim.Proofs.Grammar.Continuation
import FrenchNim.Proofs.Grammar.Cursor

namespace FrenchNim

/-!
# Parsing ends, within the tokens

Whatever tokens a parser is given, it ends with a program or an error. Its cursor
only ever looks at tokens that are there, none of them behind the first end of the
input, and whoever reads a declaration, a statement or an expression moves it on.
-/

namespace Grammar

/-- The tokens that a parser moves over: an end is put behind tokens that do not end with one. -/
def tape (tokens : List Token) : List Token :=
  if tokens.getLast?.any (·.kind = .endOfInput) then
    tokens
  else
    tokens ++ [Token.endOfInput ((tokens.getLast?.map (·.span.last)).getD .zero)]

/-- The place of the first end of the input. -/
def firstEnd (tokens : List Token) : Nat :=
  (tape tokens).findIdx (·.kind = .endOfInput)

section Program

variable (tape : List Token) (fuel : Nat)

/-- Read declarations with a cursor, behind declarations that are already read, newest first. -/
def followDeclarations : Nat → List Declaration → Nat → Journey (List Declaration)
  | 0, _, _ => none
  | rounds + 1, known, cursor =>
      (passBreaks tape fuel cursor).bind fun start =>
        tape[start]?.bind fun token =>
          if token.kind = .endOfInput then
            some (.ok known.reverse, start)
          else
            (Rule.declaration.follow tape fuel depthLimit start).andThen fun next stop =>
              (passBreaks tape fuel stop).bind fun behind =>
                followDeclarations rounds (next :: known) behind

/-- Read a whole program with a cursor that starts at the first token. -/
def followProgram : Journey Program :=
  (followDeclarations tape fuel fuel [] 0).andThen fun all stop => some (.ok ⟨all⟩, stop)

end Program

/-! ## The tape of a token list -/

/-- The first end of a tape stands behind the tokens that are parsed. -/
theorem properTokens_isPrefix (tokens : List Token) :
    properTokens tokens ++ [finalToken tokens] <+: tape tokens := by
  cases found : tokens.find? (·.kind = .endOfInput) with
  | some final =>
      obtain ⟨isEnd, front, behind, rfl, proper⟩ := List.find?_eq_some_iff_append.mp found
      have taken : properTokens (front ++ final :: behind) = front := by
        unfold properTokens
        rw [List.takeWhile_append_of_pos (by simpa using proper),
          List.takeWhile_cons_of_neg (by simpa using isEnd), List.append_nil]
      have isFinal : finalToken (front ++ final :: behind) = final := by
        unfold finalToken
        rw [found]
      have isPart : front ++ [final] <+: front ++ final :: behind :=
        ⟨behind, by simp⟩
      rw [taken, isFinal, tape]
      split
      · exact isPart
      · exact isPart.trans (List.prefix_append _ _)
  | none =>
      have proper : ∀ token ∈ tokens, token.kind ≠ .endOfInput := by
        simpa using List.find?_eq_none.mp found
      have noEnd : ¬tokens.getLast?.any (·.kind = .endOfInput) = true := by
        cases last : tokens.getLast? with
        | none => simp
        | some token => simpa using proper token (List.mem_of_getLast? last)
      rw [properTokens, List.takeWhile_eq_self_iff.mpr (by simpa using proper), finalToken, found,
        tape, if_neg noEnd]

theorem firstEnd_eq_length (tokens : List Token) :
    firstEnd tokens = (properTokens tokens).length := by
  obtain ⟨behind, shape⟩ := properTokens_isPrefix tokens
  have noEnd : (properTokens tokens).findIdx (·.kind = .endOfInput) =
      (properTokens tokens).length :=
    List.findIdx_eq_length_of_false fun token member =>
      decide_eq_false (kind_of_mem_properTokens member)
  unfold firstEnd
  rw [← shape, List.append_assoc, List.findIdx_append, noEnd, if_neg (Nat.lt_irrefl _),
    List.singleton_append, List.findIdx_cons, finalToken_kind]
  exact Nat.zero_add _

/-- There is an end on every tape. -/
theorem firstEnd_lt_length (tokens : List Token) :
    firstEnd tokens < (tape tokens).length := by
  have notLonger := (properTokens_isPrefix tokens).length_le
  rw [List.length_append, List.length_singleton] at notLonger
  rw [firstEnd_eq_length]
  exact notLonger

/-- What is left of a tape behind its first end does not matter. -/
theorem isTape_of_part
    {tokens part : List Token}
    (isPart : part <+: tape tokens)
    (hasEnd : firstEnd tokens < part.length) :
    IsTape (properTokens tokens) (finalToken tokens) part where
  isEnd := finalToken_kind tokens
  proper := fun _ member => kind_of_mem_properTokens member
  shape := by
    refine List.prefix_of_prefix_length_le (properTokens_isPrefix tokens) isPart ?_
    rw [List.length_append, List.length_singleton, ← firstEnd_eq_length]
    exact hasEnd

/-! ## The declarations of a program -/

variable
    {front part : List Token}
    {final : Token}
    {fuel : Nat}

/-- With enough fuel, a cursor on a tape does what a rule says. -/
theorem Rule.follow_lands_of_enough
    (isTape : IsTape front final part)
    (enough : 16 * (front.length + 1) ≤ fuel)
    (rule : Rule α)
    (room : Nat)
    {cursor : Nat}
    (within : cursor ≤ front.length) :
    Lands front cursor (rule.read final room (front.drop cursor))
      (rule.follow part fuel room cursor) := by
  have small := rule.level_le
  refine rule.follow_lands isTape _ rfl within ?_
  rw [List.length_drop]
  omega

/-- Every declaration moves the cursor on, so there are no more of them than tokens. -/
theorem followDeclarations_eq
    (isTape : IsTape front final part)
    (enough : 16 * (front.length + 1) ≤ fuel)
    {rounds : Nat}
    (known : List Declaration)
    {cursor : Nat}
    (within : cursor ≤ front.length)
    (further : front.length - cursor < rounds) :
    ∃ stop ≤ front.length, followDeclarations part fuel rounds known cursor =
      some (declarations final depthLimit known (skipNewlines (front.drop cursor)), stop) := by
  induction rounds generalizing known cursor with
  | zero => exact absurd further (Nat.not_lt_zero _)
  | succ rounds inductionHypothesis =>
      obtain ⟨start, forward, inside, passed, rest⟩ :=
        isTape.passBreaks_eq within (show front.length - cursor < fuel by omega)
      have found := isTape.lookup inside
      unfold followDeclarations
      rw [passed, Option.bind_some, found, Option.bind_some, ← rest]
      cases left : front.drop start with
      | nil =>
          rw [declarations_nil]
          exact ⟨start, inside, if_pos isTape.isEnd⟩
      | cons token behind =>
          have proper := (isTape.advance_of_cons left).2.1
          have lands := Rule.declaration.follow_lands_of_enough isTape enough depthLimit inside
          rw [declarations_cons, ← left]
          rw [if_neg (show ¬(current final (front.drop start)).kind = .endOfInput by
            rw [left]; exact proper)]
          generalize parsed : Rule.declaration.read final depthLimit (front.drop start) = outcome
            at lands
          generalize Rule.declaration.follow part fuel depthLimit start = journey at lands
          cases lands with
          | failed _ within' => exact ⟨_, within', rfl⟩
          | @arrived next stop _ within' =>
              have fewer := Rule.read_shorter rfl parsed
              rw [List.length_drop, List.length_drop] at fewer
              obtain ⟨later, forward', inside', passed', rest'⟩ :=
                isTape.passBreaks_eq within' (show front.length - stop < fuel by omega)
              obtain ⟨final', isFinal, followed⟩ :=
                inductionHypothesis (next :: known) inside' (by omega)
              have once : skipNewlines (skipNewlines (front.drop stop)) =
                  skipNewlines (front.drop stop) :=
                List.dropWhile_idempotent _ _
              refine ⟨final', isFinal, ?_⟩
              rw [Journey.andThen, passed', Option.bind_some, followed, rest', once]

/-- A cursor on a tape reads the program that is parsed. -/
theorem followProgram_eq
    {tokens : List Token}
    (isTape : IsTape (properTokens tokens) (finalToken tokens) part)
    (enough : 16 * ((properTokens tokens).length + 1) ≤ fuel) :
    ∃ stop ≤ (properTokens tokens).length,
      followProgram part fuel = some (parseTokens tokens, stop) := by
  obtain ⟨stop, within, followed⟩ :=
    followDeclarations_eq isTape enough [] (Nat.zero_le _)
      (show (properTokens tokens).length - 0 < fuel by omega)
  refine ⟨stop, within, ?_⟩
  unfold followProgram parseTokens programWithin
  rw [followed, List.drop_zero]
  cases declarations (finalToken tokens) depthLimit [] (skipNewlines (properTokens tokens)) with
  | ok all => rfl
  | error error => rfl

/-- From any place up to the given one, the rule moves the cursor on, unless it fails. -/
def Rule.Advances (rule : Rule α) (part : List Token) (fuel last : Nat) : Prop :=
  ∀ (room cursor stop : Nat) (value : α), cursor ≤ last →
    rule.follow part fuel room cursor = some (.ok value, stop) → cursor < stop

/-- A rule that cannot read nothing moves the cursor on. -/
theorem Rule.advances
    (isTape : IsTape front final part)
    (enough : 16 * (front.length + 1) ≤ fuel)
    {rule : Rule α}
    (required : rule.isOptional = false) :
    rule.Advances part fuel front.length := by
  intro room cursor stop value within followed
  have lands := rule.follow_lands_of_enough isTape enough room within
  rw [followed] at lands
  generalize parsed : rule.read final room (front.drop cursor) = outcome at lands
  cases lands with
  | arrived forward within' =>
      have fewer := Rule.read_shorter required parsed
      rw [List.length_drop, List.length_drop] at fewer
      omega

/--
For every token list the parser ends, with a program or an error, and the depth of its calls is
bounded by the number of tokens. The cursor only looks up tokens that are there, also if nothing
is left of them behind the first end of the input, and it does not pass this end. The same holds
of every rule that is read from any place up to the first end. Declarations, statements and
expressions move the cursor on.
-/
theorem parseTokens_terminates
    (tokens : List Token) :
    firstEnd tokens < (tape tokens).length ∧
      ∀ part, part <+: tape tokens → firstEnd tokens < part.length →
        ∀ fuel, 16 * (tokens.length + 1) ≤ fuel →
          (∃ stop ≤ firstEnd tokens, followProgram part fuel = some (parseTokens tokens, stop)) ∧
          (∀ {α : Type} (rule : Rule α) (room cursor : Nat), cursor ≤ firstEnd tokens →
            ∃ outcome stop, rule.follow part fuel room cursor = some (outcome, stop) ∧
              cursor ≤ stop ∧ stop ≤ firstEnd tokens) ∧
          Rule.declaration.Advances part fuel (firstEnd tokens) ∧
          Rule.statement.Advances part fuel (firstEnd tokens) ∧
          Rule.expression.Advances part fuel (firstEnd tokens) := by
  refine ⟨firstEnd_lt_length tokens, fun part isPart hasEnd fuel enough => ?_⟩
  have isTape := isTape_of_part isPart hasEnd
  have shorter : (properTokens tokens).length ≤ tokens.length :=
    (List.takeWhile_prefix _).length_le
  have enough' : 16 * ((properTokens tokens).length + 1) ≤ fuel := by omega
  rw [firstEnd_eq_length]
  exact ⟨followProgram_eq isTape enough', fun rule room _ within =>
      (rule.follow_lands_of_enough isTape enough' room within).ends,
    Rule.advances isTape enough' rfl, Rule.advances isTape enough' rfl,
    Rule.advances isTape enough' rfl⟩

/-- A name, an end of the input, and a parenthesis behind it. -/
def endedName : List Token :=
  [⟨.identifier, "a", .zero⟩, .endOfInput .zero, ⟨.parenClose, ")", .zero⟩]

/-- The name is parsed without a look at the parenthesis, and at the end that is put behind it. -/
theorem parseTokens_terminates_endedName :
    ∃ stop ≤ 1, followProgram (endedName.take 2) 64 =
      some (.ok ⟨[.statement (.evaluated (.identifier ⟨"a", .zero⟩))]⟩, stop) := by
  obtain ⟨-, ends⟩ := parseTokens_terminates endedName
  have parsed : parseTokens endedName =
      .ok ⟨[.statement (.evaluated (.identifier ⟨"a", .zero⟩))]⟩ := by
    cbv
  rw [← parsed]
  exact (ends (endedName.take 2) (by decide) (by decide) 64 (by decide)).1

end Grammar

end FrenchNim
