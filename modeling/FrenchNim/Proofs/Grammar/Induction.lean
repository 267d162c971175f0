import FrenchNim.Proofs.Grammar.Rules

namespace FrenchNim.Grammar

/-!
# Induction over the rules

A rule calls other rules on fewer tokens, or a tighter rule on the tokens it was
given. So a statement about all rules may be assumed for every rule on fewer
tokens and for every tighter rule. The last part applies this to the top level
of a program, which is a repetition of one rule.
-/

namespace Rule

/-- How loosely a rule binds. On the same tokens a rule calls only tighter rules. -/
def level : Rule α → Nat
  | expect _ => 0
  | name _ | className _ | rawCode _ | importedFrom | members _ _ => 1
  | moreParameters _ | parameters | importRest _ | classRest _ | typeRest _ | constantRest _
  | functionRest _ => 2
  | primary | moreLinks _ | procedure | block | loopBlock | variableRest _ | condition
  | forRest _ => 3
  | chain | moreComparisons _ | ifRest _ | whileRest _ => 4
  | comparison | moreTerms _ => 5
  | expression => 6
  | moreItems _ | simple | optionalTest => 7
  | items _ | statement | clause _ => 8
  | statements _ | declaration => 9
  | blockRest _ _ => 10

attribute [local simp] level

theorem level_le (rule : Rule α) : rule.level ≤ 10 := by
  cases rule <;> simp

/-- A rule that may read nothing. -/
def isOptional : Rule α → Bool
  | className _ | moreTerms _ | moreComparisons _ | moreLinks _ | statements _ | clause _
  | optionalTest | members _ _ => true
  | _ => false

/-- No rule leaves more tokens than it was given. -/
theorem read_notLonger
    {final : Token}
    {room : Nat}
    {tokens rest : List Token}
    {value : α}
    (rule : Rule α)
    (found : rule.read final room tokens = .ok (value, rest)) :
    rest.length ≤ tokens.length := by
  cases rule
  all_goals
    obtain ⟨whole, -, shown⟩ := seen_eq_ok found
    cases shown
  all_goals first
    | exact Nat.le_of_lt whole.shorter
    | exact whole.notLonger

/-- A rule that has to read something leaves fewer tokens than it was given. -/
theorem read_shorter
    {final : Token}
    {room : Nat}
    {tokens rest : List Token}
    {value : α}
    {rule : Rule α}
    (required : rule.isOptional = false)
    (found : rule.read final room tokens = .ok (value, rest)) :
    rest.length < tokens.length := by
  cases rule
  all_goals first
    | exact Bool.noConfusion required
    | obtain ⟨whole, -, shown⟩ := seen_eq_ok found
      cases shown
      exact whole.shorter

/-- A statement about all rules that is known below a rule and a token list. -/
structure Below
    (motive : ∀ {α : Type}, Rule α → Nat → List Token → Prop)
    (rule : Rule α)
    (tokens : List Token) : Prop where
  /-- The statement holds of every rule on fewer tokens. -/
  shorter : ∀ {β : Type} (inner : Rule β) (room : Nat) (later : List Token),
    later.length < tokens.length → motive inner room later
  /-- The statement holds of every tighter rule on no more tokens. -/
  tighter : ∀ {β : Type} (inner : Rule β) (room : Nat) (later : List Token),
    inner.level < rule.level → later.length ≤ tokens.length → motive inner room later

/-- A tighter rule on the same tokens is below. -/
theorem Below.same
    {motive : ∀ {α : Type}, Rule α → Nat → List Token → Prop}
    {rule : Rule α}
    {tokens : List Token}
    (below : Below motive rule tokens)
    (inner : Rule β)
    (room : Nat)
    (tighter : inner.level < rule.level) :
    motive inner room tokens :=
  below.tighter inner room tokens tighter (Nat.le_refl _)

/-- Every rule is below a rule that reads one token first. -/
theorem Below.behind
    {motive : ∀ {α : Type}, Rule α → Nat → List Token → Prop}
    {rule : Rule α}
    {token : Token}
    {rest : List Token}
    (below : Below motive rule (token :: rest))
    (inner : Rule β)
    (room : Nat) :
    motive inner room rest :=
  below.shorter inner room rest (Nat.lt_succ_self _)

/--
Induction over all rules. A statement holds of a rule on a token list if it
follows from the same statement about every rule on fewer tokens and about every
tighter rule on no more tokens.
-/
theorem induction
    {motive : ∀ {α : Type}, Rule α → Nat → List Token → Prop}
    (step : ∀ {α : Type} (rule : Rule α) (room : Nat) (tokens : List Token),
      Below motive rule tokens → motive rule room tokens)
    (rule : Rule α)
    (room : Nat)
    (tokens : List Token) :
    motive rule room tokens := by
  -- Fewer tokens weigh more than any difference of levels.
  suffices bounded : ∀ (weight : Nat) {α : Type} (rule : Rule α) (room : Nat)
      (tokens : List Token), 16 * tokens.length + rule.level < weight →
        motive rule room tokens from
    bounded _ rule room tokens (Nat.lt_succ_self _)
  intro weight
  induction weight with
  | zero =>
      intro _ _ _ _ impossible
      exact (Nat.not_lt_zero _ impossible).elim
  | succ weight inductionHypothesis =>
      intro _ rule room tokens bound
      refine step rule room tokens ⟨?_, ?_⟩
      · intro _ inner room' tokens' fewer
        have small := inner.level_le
        exact inductionHypothesis inner room' tokens' (by omega)
      · intro _ inner room' tokens' lower notLonger
        exact inductionHypothesis inner room' tokens' (by omega)

end Rule

/-- Line breaks are dropped from the front. -/
theorem skipNewlines_suffix (tokens : List Token) : skipNewlines tokens <:+ tokens :=
  List.dropWhile_suffix _

/-- Embedded code is taken from the front. -/
theorem collect_rest_suffix
    (nesting : Nat)
    (wanted : Bool)
    (code : String)
    (last : Token)
    (tokens : List Token) :
    (RawCode.collect nesting wanted code last tokens).rest <:+ tokens := by
  fun_induction RawCode.collect nesting wanted code last tokens with
  | case1 =>
      exact List.suffix_rfl
  | case2 _ _ _ _ _ _ _ _ inductionHypothesis =>
      exact inductionHypothesis.trans (List.suffix_cons _ _)
  | case3 =>
      exact List.suffix_cons _ _
  | case4 _ _ _ _ _ _ _ _ inductionHypothesis =>
      exact inductionHypothesis.trans (List.suffix_cons _ _)
  | case5 _ _ _ _ _ _ _ _ _ inductionHypothesis =>
      exact inductionHypothesis.trans (List.suffix_cons _ _)

/-! ## The top level -/

/-- A program without further tokens is finished. -/
theorem declarations_nil (final : Token) (room : Nat) (known : List Declaration) :
    declarations final room known [] = .ok known.reverse := by
  rw [declarations]

/-- A program goes on with one declaration and the line breaks behind it. -/
theorem declarations_cons
    (final : Token)
    (room : Nat)
    (known : List Declaration)
    (token : Token)
    (behind : List Token) :
    declarations final room known (token :: behind) =
      match Rule.declaration.read final room (token :: behind) with
      | .ok (next, rest) => declarations final room (next :: known) (skipNewlines rest)
      | .error error => .error error := by
  rw [declarations]
  simp only [Rule.read]
  cases declaration final room (token :: behind) with
  | error error =>
      rfl
  | ok progress =>
      rfl

/-- Induction along the declarations of a program, in the order in which they are read. -/
theorem declarations_induction
    (final : Token)
    (room : Nat)
    {motive : List Declaration → List Token → Prop}
    (finished : ∀ known, motive known [])
    (step : ∀ known token behind,
      (∀ next rest,
        Rule.declaration.read final room (token :: behind) = .ok (next, rest) →
          motive (next :: known) (skipNewlines rest)) →
      motive known (token :: behind))
    (known : List Declaration)
    (tokens : List Token) :
    motive known tokens := by
  suffices bounded : ∀ (size : Nat) (known : List Declaration) (tokens : List Token),
      tokens.length < size → motive known tokens from
    bounded _ known tokens (Nat.lt_succ_self _)
  intro size
  induction size with
  | zero =>
      intro _ _ impossible
      exact (Nat.not_lt_zero _ impossible).elim
  | succ size inductionHypothesis =>
      intro known tokens bound
      cases tokens with
      | nil =>
          exact finished known
      | cons token behind =>
          refine step known token behind fun next rest found => ?_
          have fewer := Rule.read_shorter rfl found
          have skipped := length_skipNewlines_le rest
          exact inductionHypothesis (next :: known) (skipNewlines rest) (by omega)

end FrenchNim.Grammar
