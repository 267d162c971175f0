import Mathlib.Data.Nat.SuccPred
import Mathlib.Order.SuccPred.Archimedean
import FrenchNim.Proofs.Grammar.Course

namespace FrenchNim.Grammar

/-!
# How deeply expressions are nested

A rule calls rules, and those call further rules. The expressions that are open
in such a chain of calls are nested in one another. The largest number of them is
the least room that a rule needs: with less room it fails because it is too
deep, and with more room it reads the same.
-/

/-- Expressions are nested too deeply. -/
def Parsed.TooDeep (parsed : Parsed α) : Prop :=
  ∃ position, parsed = .error (.tooDeep position)

namespace Parsed

/-- A success is not too deep. -/
theorem not_tooDeep_ok {value : α} {rest : List Token} :
    ¬TooDeep (.ok (value, rest)) :=
  fun ⟨_, found⟩ => nomatch found

/-- What is too deep stays too deep, whatever would follow. -/
theorem TooDeep.andThen
    {first : Parsed α}
    (deep : first.TooDeep)
    (next : α → List Token → Parsed β) :
    (first.andThen next).TooDeep := by
  obtain ⟨position, rfl⟩ := deep
  exact ⟨position, rfl⟩

end Parsed

/--
While a rule reads the tokens, a chain of calls leads from it to a rule for which the given number
of expressions are open, the first and the last rule of the chain included.
-/
inductive Rule.Nests (final : Token) : {α : Type} → Rule α → Nat → List Token → Nat → Prop where
  | here {rule : Rule α} {room : Nat} {tokens : List Token} :
      Nests final rule room tokens rule.opens
  | inside {rule : Rule α} {inner : Rule β} {room count : Nat} {tokens later : List Token}
      (fits : rule.opens ≤ room)
      (calls : rule.course.Calls final (room - rule.opens) inner later tokens)
      (nests : Nests final inner (room - rule.opens) later count) :
      Nests final rule room tokens (rule.opens + count)

/-- The largest number of expressions that are nested while a rule reads the tokens. -/
def Rule.DeepestNesting
    (final : Token)
    (rule : Rule α)
    (room : Nat)
    (tokens : List Token)
    (depth : Nat) : Prop :=
  IsGreatest {count | rule.Nests final room tokens count} depth

variable {final : Token}

/-! ## Less room -/

/-- With less room a rule makes the same of its tokens, or it is too deep. -/
def Rule.Narrows (final : Token) (rule : Rule α) (tokens : List Token) : Prop :=
  ∀ {small room : Nat}, small ≤ room →
    rule.read final small tokens = rule.read final room tokens ∨
      (rule.read final small tokens).TooDeep

/-- A course narrows if all rules it calls do. -/
theorem Course.run_narrows
    {small room : Nat}
    (within : small ≤ room)
    {course : Course α}
    {tokens : List Token}
    (narrows : ∀ {β : Type} (inner : Rule β) (later : List Token),
      course.Calls final room inner later tokens → inner.Narrows final later) :
    course.run final small tokens = course.run final room tokens ∨
      (course.run final small tokens).TooDeep := by
  induction course generalizing tokens with
  | done value => exact .inl rfl
  | fail expectation? => exact .inl (by cases expectation? <;> rfl)
  | branch test yes no yesHypothesis noHypothesis =>
      unfold run
      by_cases passed : test (nextKind tokens) = true
      · rw [if_pos passed, if_pos passed]
        exact yesHypothesis fun inner later calls => narrows inner later (.yes passed calls)
      · rw [if_neg passed, if_neg passed]
        exact noHypothesis fun inner later calls =>
          narrows inner later (.no (eq_false_of_ne_true passed) calls)
  | take next inductionHypothesis =>
      cases tokens with
      | nil => exact .inl rfl
      | cons token behind =>
          exact inductionHypothesis token fun inner later calls => narrows inner later (.take calls)
  | skipBreaks next inductionHypothesis =>
      exact inductionHypothesis fun inner later calls => narrows inner later (.skipBreaks calls)
  | capture opening next inductionHypothesis =>
      exact inductionHypothesis _ _ fun inner later calls => narrows inner later (.capture calls)
  | call rule next inductionHypothesis =>
      rcases narrows rule tokens .here within with same | deep
      · unfold run
        rw [same]
        rcases found : rule.read final room tokens with error | ⟨value, rest⟩
        · exact .inl rfl
        · exact inductionHypothesis value fun inner later calls =>
            narrows inner later (.behind found calls)
      · exact .inr (deep.andThen _)

/-- Every rule narrows, by induction over the calls of rules. -/
theorem Rule.narrows
    (isEnd : final.kind = .endOfInput)
    (rule : Rule α)
    (tokens : List Token) :
    rule.Narrows final tokens := by
  refine callInduction (motive := fun rule tokens => rule.Narrows final tokens) ?_ rule tokens
  intro _ rule tokens inductionHypothesis small room within
  rw [read_eq_run isEnd, read_eq_run isEnd]
  by_cases fits : rule.opens ≤ small
  · rw [if_pos fits, if_pos (Nat.le_trans fits within)]
    exact Course.run_narrows (Nat.sub_le_sub_right within _) fun inner later calls =>
      inductionHypothesis final _ inner later calls
  · rw [if_neg fits]
    exact .inr ⟨_, rfl⟩

/-! ## Enough room -/

/-- What a course calls is not too deep if the course is not. -/
theorem Course.Calls.not_tooDeep
    (isEnd : final.kind = .endOfInput)
    {small room : Nat}
    (within : small ≤ room)
    {inner : Rule β}
    {course : Course α}
    {tokens later : List Token}
    (calls : course.Calls final room inner later tokens)
    (shallow : ¬(course.run final small tokens).TooDeep) :
    ¬(inner.read final small later).TooDeep := by
  induction calls with
  | here => exact fun deep => shallow (deep.andThen _)
  | behind found calls inductionHypothesis =>
      unfold run at shallow
      rcases Rule.narrows isEnd _ _ within with same | deep
      · rw [same, found] at shallow
        exact inductionHypothesis shallow
      · exact (shallow (deep.andThen _)).elim
  | yes passed _ inductionHypothesis =>
      unfold run at shallow
      rw [if_pos passed] at shallow
      exact inductionHypothesis shallow
  | no failed _ inductionHypothesis =>
      unfold run at shallow
      rw [if_neg (ne_true_of_eq_false failed)] at shallow
      exact inductionHypothesis shallow
  | take _ inductionHypothesis => exact inductionHypothesis shallow
  | skipBreaks _ inductionHypothesis => exact inductionHypothesis shallow
  | capture _ inductionHypothesis => exact inductionHypothesis shallow

/-- A rule that is not too deep has room for all expressions that are nested in it. -/
theorem Rule.Nests.le
    (isEnd : final.kind = .endOfInput)
    {rule : Rule α}
    {room count small : Nat}
    {tokens : List Token}
    (nests : rule.Nests final room tokens count)
    (within : small ≤ room)
    (shallow : ¬(rule.read final small tokens).TooDeep) :
    count ≤ small := by
  induction nests generalizing small with
  | @here _ rule room tokens =>
      rw [read_eq_run isEnd] at shallow
      refine Decidable.byContradiction fun above => shallow ?_
      rw [if_neg above]
      exact ⟨_, rfl⟩
  | @inside _ _ rule inner room count tokens later fits calls nests inductionHypothesis =>
      rw [read_eq_run isEnd] at shallow
      by_cases opens : rule.opens ≤ small
      · rw [if_pos opens] at shallow
        have shorter : small - rule.opens ≤ room - rule.opens := Nat.sub_le_sub_right within _
        have deeper := inductionHypothesis shorter (calls.not_tooDeep isEnd shorter shallow)
        omega
      · rw [if_neg opens] at shallow
        exact (shallow ⟨_, rfl⟩).elim

/-- A rule that is not too deep nests its expressions up to some largest number. -/
theorem Rule.exists_deepestNesting
    (isEnd : final.kind = .endOfInput)
    {rule : Rule α}
    {room : Nat}
    {tokens : List Token}
    (shallow : ¬(rule.read final room tokens).TooDeep) :
    ∃ depth ≤ room, rule.DeepestNesting final room tokens depth := by
  have bounded : ∀ count, rule.Nests final room tokens count → count ≤ room :=
    fun count nests => nests.le isEnd (Nat.le_refl room) shallow
  obtain ⟨depth, greatest⟩ :=
    BddAbove.exists_isGreatest_of_nonempty ⟨room, bounded⟩ ⟨_, Rule.Nests.here⟩
  exact ⟨depth, bounded depth greatest.1, greatest⟩

/-! ## Too little room -/

/-- A course that is too deep calls a rule that is. -/
theorem Course.exists_call_of_tooDeep
    (isEnd : final.kind = .endOfInput)
    {small room : Nat}
    (within : small ≤ room)
    {course : Course α}
    {tokens : List Token}
    (deep : (course.run final small tokens).TooDeep) :
    ∃ (β : Type) (inner : Rule β) (later : List Token),
      course.Calls final room inner later tokens ∧ (inner.read final small later).TooDeep := by
  induction course generalizing tokens with
  | done value =>
      exact (Parsed.not_tooDeep_ok deep).elim
  | fail expectation? =>
      obtain ⟨position, found⟩ := deep
      cases expectation? <;> cases found
  | branch test yes no yesHypothesis noHypothesis =>
      unfold run at deep
      by_cases passed : test (nextKind tokens) = true
      · rw [if_pos passed] at deep
        obtain ⟨_, inner, later, calls, innerDeep⟩ := yesHypothesis deep
        exact ⟨_, inner, later, .yes passed calls, innerDeep⟩
      · rw [if_neg passed] at deep
        obtain ⟨_, inner, later, calls, innerDeep⟩ := noHypothesis deep
        exact ⟨_, inner, later, .no (eq_false_of_ne_true passed) calls, innerDeep⟩
  | take next inductionHypothesis =>
      cases tokens with
      | nil =>
          obtain ⟨position, found⟩ := deep
          cases found
      | cons token behind =>
          obtain ⟨_, inner, later, calls, innerDeep⟩ := inductionHypothesis token deep
          exact ⟨_, inner, later, .take calls, innerDeep⟩
  | skipBreaks next inductionHypothesis =>
      obtain ⟨_, inner, later, calls, innerDeep⟩ := inductionHypothesis deep
      exact ⟨_, inner, later, .skipBreaks calls, innerDeep⟩
  | capture opening next inductionHypothesis =>
      obtain ⟨_, inner, later, calls, innerDeep⟩ := inductionHypothesis _ _ deep
      exact ⟨_, inner, later, .capture calls, innerDeep⟩
  | call rule next inductionHypothesis =>
      unfold run at deep
      rcases found : rule.read final small tokens with error | ⟨value, rest⟩
      · rw [found] at deep
        obtain ⟨position, same⟩ := deep
        cases same
        exact ⟨_, rule, tokens, .here, position, found⟩
      · rw [found] at deep
        obtain ⟨_, inner, later, calls, innerDeep⟩ := inductionHypothesis value deep
        -- What was found with less room is found with more room.
        have same := (Rule.narrows isEnd rule tokens within).resolve_right (found ▸ Parsed.not_tooDeep_ok)
        exact ⟨_, inner, later, .behind (same ▸ found) calls, innerDeep⟩

/-- A rule that is too deep nests more expressions than it has room for. -/
theorem Rule.nests_of_tooDeep
    (isEnd : final.kind = .endOfInput)
    (rule : Rule α)
    (tokens : List Token) :
    ∀ {small room : Nat}, small ≤ room → (rule.read final small tokens).TooDeep →
      rule.Nests final room tokens (small + 1) := by
  refine callInduction (motive := fun rule tokens => ∀ {small room : Nat}, small ≤ room →
    (rule.read final small tokens).TooDeep → rule.Nests final room tokens (small + 1)) ?_
      rule tokens
  intro _ rule tokens inductionHypothesis small room within deep
  rw [read_eq_run isEnd] at deep
  by_cases opens : rule.opens ≤ small
  · rw [if_pos opens] at deep
    have shorter : small - rule.opens ≤ room - rule.opens := Nat.sub_le_sub_right within _
    obtain ⟨_, inner, later, calls, innerDeep⟩ :=
      Course.exists_call_of_tooDeep isEnd shorter deep
    have nests := inductionHypothesis _ _ inner later calls shorter innerDeep
    have count : small + 1 = rule.opens + (small - rule.opens + 1) := by
      omega
    rw [count]
    exact .inside (Nat.le_trans opens within) calls nests
  · have atMost := rule.opens_le_one
    have count : small + 1 = rule.opens := by
      omega
    rw [count]
    exact .here

/-- A rule has enough room if and only if all that is nested in it has. -/
theorem Rule.DeepestNesting.le_iff
    (isEnd : final.kind = .endOfInput)
    {rule : Rule α}
    {room depth : Nat}
    {tokens : List Token}
    (deepest : rule.DeepestNesting final room tokens depth)
    {small : Nat}
    (within : small ≤ room) :
    depth ≤ small ↔ ¬(rule.read final small tokens).TooDeep := by
  constructor
  · intro fits deep
    have bound := deepest.2 (rule.nests_of_tooDeep isEnd tokens within deep)
    omega
  · exact deepest.1.le isEnd within

end FrenchNim.Grammar
