import FrenchNim.Proofs.Grammar.Goals

namespace FrenchNim.Grammar.Goal

/-!
# Completing a program

Every goal that may be met at all is met by few tokens: a name stands for an
expression, what is open is closed, and what may be left out is left out. Goals in a
row are met one after the other, since nothing that a goal could go on with is the
start of what the goals behind it are met by. Only an expression that is nested too
deeply is never met, and it stays until it is.
-/

/-! ## The tokens that goals are met by -/

/-- The kinds of the tokens that meet a goal. -/
@[simp] def completion : Goal → List TokenKind
  | token kind => [kind]
  | names => [.parenClose]
  | code nesting => List.replicate (nesting + 1) .parenClose
  | operand _ | expression _ => [.identifier]
  | items _ closing => [closing]
  | loopBody _ => [.openKeyword, .closeKeyword]
  | origin => [.fromKeyword, .string]
  | _ => []

/-- The kinds of the tokens that meet goals in a row. -/
def completionOf (goals : List Goal) : List TokenKind :=
  goals.flatMap completion

/-- The kind of the token that comes first when goals are met in front of the given kind. -/
def firstOf (next : TokenKind) (goals : List Goal) : TokenKind :=
  (completionOf goals).headD next

/-- The kinds that a completion is made of. -/
def completing : List TokenKind :=
  [.identifier, .string, .equal, .openKeyword, .closeKeyword, .fromKeyword, .nimKeyword,
    .semicolon, .parenOpen, .parenClose, .bracketClose, .braceClose]

/-- An expression does not go on with a token of the kind. -/
def endsExpression (kind : TokenKind) : Bool :=
  !(kind == .dot || kind == .arrow || kind == .parenOpen || kind == .bracketOpen ||
    kind.isComparison || kind.isAdditive)

/-- The kinds of tokens that end statements. -/
def statementEnds : List TokenKind :=
  [.endOfInput, .closeKeyword, .braceClose]

/-- The goal, and everything it may become, leaves a token of the kind to others. -/
@[simp] def precedes (next : TokenKind) : Goal → Bool
  | token kind => completing.contains kind
  | names | code _ | operand _ | loopBody _ | origin => true
  | moreNames => next != .comma
  | path => next != .dot
  | links _ | comparisons _ | terms _ | expression _ => endsExpression next
  | items _ closing => completing.contains closing && endsExpression closing
  | moreItems _ => endsExpression next && next != .comma
  | statements _ => statementEnds.contains next
  | assignment _ => endsExpression next && next != .equal
  | alternative _ => next != .elseKeyword
  | clause _ closing => next == closing && endsExpression closing && closing != .equal
  | test _ => next == .semicolon
  | external => next != .externalKeyword
  | members _ => next == .endOfInput || next == .closeKeyword
  | program _ => next == .endOfInput
  -- No list of goals holds these: a statement becomes its parts at its first token.
  | statement _ | declaration _ => false

/-- An expression that is nested too deeply may stand behind a token only. -/
@[simp] def Defers (before behind : Goal) : Prop :=
  behind = .expression 0 → ∃ kind, before = .token kind

/--
Every goal leaves to the goals behind it what they are met by, and an expression that
is nested too deeply is what comes next, behind tokens at most.
-/
@[simp] def Orderly (next : TokenKind) : List Goal → Prop
  | [] => True
  | goal :: rest =>
      goal.precedes (firstOf next rest) = true ∧ (∀ other ∈ rest, goal.Defers other) ∧
        Orderly next rest

variable {kind next closing : TokenKind} {goals front behind : List Goal} {goal : Goal}
  {room : Nat}

@[simp] theorem completionOf_nil : completionOf [] = [] :=
  rfl

/-- Goals are completed one behind the other. -/
@[simp] theorem completionOf_cons (goal : Goal) (rest : List Goal) :
    completionOf (goal :: rest) = goal.completion ++ completionOf rest :=
  rfl

@[simp] theorem firstOf_nil (next : TokenKind) : firstOf next [] = next :=
  rfl

/-- The first kind of the completion is that of the first goal, if it needs any. -/
@[simp] theorem firstOf_cons (next : TokenKind) (goal : Goal) (rest : List Goal) :
    firstOf next (goal :: rest) = goal.completion.headD (firstOf next rest) := by
  rw [firstOf, completionOf_cons]
  cases goal.completion <;> rfl

/-- Goals in a row are met first by what the front ones are met by. -/
theorem firstOf_append (next : TokenKind) (front behind : List Goal) :
    firstOf next (front ++ behind) = firstOf (firstOf next behind) front := by
  induction front with
  | nil => rfl
  | cons goal rest inductionHypothesis =>
      rw [List.cons_append, firstOf_cons, firstOf_cons, inductionHypothesis]

/-- Goals in a row are orderly together. -/
theorem Orderly.append
    (isFront : Orderly (firstOf next behind) front)
    (isBehind : Orderly next behind)
    (defers : ∀ before ∈ front, ∀ other ∈ behind, Defers before other) :
    Orderly next (front ++ behind) := by
  induction front with
  | nil =>
      exact isBehind
  | cons goal rest inductionHypothesis =>
      obtain ⟨leaves, deferring, isRest⟩ := isFront
      obtain ⟨here, later⟩ := List.forall_mem_cons.mp defers
      rw [List.cons_append, Orderly, firstOf_append]
      exact ⟨leaves, List.forall_mem_append.mpr ⟨deferring, here⟩,
        inductionHypothesis isRest later⟩

/-- Goals that are no expressions may stand behind all goals. -/
theorem Orderly.append_plain
    (isFront : Orderly (firstOf next behind) front)
    (isBehind : Orderly next behind)
    (plain : .expression 0 ∉ behind) :
    Orderly next (front ++ behind) :=
  isFront.append isBehind fun _ _ _ member same => (plain (same ▸ member)).elim

/-! ## What goals become -/

/-- What may follow an operand leaves the end of the expression to others. -/
theorem orderly_further (ends : endsExpression next = true) : Orderly next (further room) := by
  simp [further, ends]

/-- The goals of a construction are orderly. -/
theorem orderly_construction : Orderly next (construction room) := by
  simp [construction, completing, endsExpression, TokenKind.isComparison, TokenKind.isAdditive]

/-- The goals of a procedure are orderly. -/
theorem orderly_procedure : Orderly next (procedure room) := by
  simp [procedure, block, completing, statementEnds]

/-- A name and its value are orderly before what ends an expression. -/
theorem orderly_definition (ends : endsExpression next = true) :
    Orderly next (definition room) := by
  simp [definition, completing, ends]

theorem orderly_operand? (found : operand? room kind = some goals) : Orderly next goals := by
  unfold operand? at found
  split at found
  · cases found
    trivial
  split at found
  · cases found
    exact orderly_construction
  split at found
  · cases found
    exact orderly_procedure
  split at found
  · cases found
    simp [completing]
  split at found
  · cases found
    simp [completing, endsExpression, TokenKind.isComparison, TokenKind.isAdditive]
  split at found
  · cases found
    simp [completing, endsExpression, TokenKind.isComparison, TokenKind.isAdditive]
  · cases found

theorem orderly_expression?
    (ends : endsExpression next = true)
    (found : expression? room kind = some goals) :
    Orderly next goals := by
  cases room with
  | zero =>
      cases found
  | succ room =>
      obtain ⟨first, isFirst, rfl⟩ := Option.map_eq_some_iff.mp found
      exact (orderly_operand? isFirst).append_plain (orderly_further ends) (by simp [further])

theorem orderly_simple?
    (ends : endsExpression next = true)
    (noEqual : next ≠ .equal)
    (found : simple? room kind = some goals) :
    Orderly next goals := by
  obtain ⟨first, isFirst, rfl⟩ := Option.map_eq_some_iff.mp found
  have isHere : Orderly (firstOf next [assignment room]) first := orderly_expression? ends isFirst
  exact isHere.append_plain (by simp [ends, noEqual]) (by simp)

/-- What ends statements ends the parts of a statement. -/
theorem of_statementEnds (ends : statementEnds.contains next = true) :
    endsExpression next = true ∧ next ≠ .equal ∧ next ≠ .elseKeyword := by
  simp only [statementEnds, List.contains_iff_mem, List.mem_cons, List.not_mem_nil,
    or_false] at ends
  rcases ends with rfl | rfl | rfl <;> decide

theorem orderly_statement?
    (ends : statementEnds.contains next = true)
    (found : statement? room kind = some goals) :
    Orderly next goals := by
  obtain ⟨endsHere, noEqual, noElse⟩ := of_statementEnds ends
  unfold statement? at found
  split at found
  · cases found
    simp [endsHere]
  split at found
  · cases found
    exact orderly_definition endsHere
  split at found
  · cases found
    simp [forRest, completing, endsExpression, TokenKind.isComparison, TokenKind.isAdditive]
  split at found
  · cases found
    simp [whileRest, condition, completing, endsExpression, TokenKind.isComparison,
      TokenKind.isAdditive]
  split at found
  · cases found
    simp [ifRest, condition, block, completing, endsExpression, TokenKind.isComparison,
      TokenKind.isAdditive, statementEnds, noElse]
  · exact orderly_simple? endsHere noEqual found

theorem orderly_declaration?
    (ends : statementEnds.contains next = true)
    (found : declaration? room kind = some goals) :
    Orderly next goals := by
  obtain ⟨endsHere, noEqual, -⟩ := of_statementEnds ends
  have noExternal : next ≠ .externalKeyword := by
    rintro rfl
    cases ends
  unfold declaration? at found
  split at found
  · cases found
    simp [completing]
  split at found
  · cases found
    simp [classRest, completing]
  split at found
  · cases found
    simp [completing, noExternal]
  split at found
  · cases found
    exact orderly_definition endsHere
  split at found
  · cases found
    have isName : Orderly (firstOf next (procedure room)) [token .identifier] := by
      simp [completing]
    exact isName.append_plain orderly_procedure (by simp [procedure, block])
  split at found
  · exact orderly_simple? endsHere noEqual found
  · exact orderly_statement? ends found

/-- A token is taken by a goal that it stands for, or the goal becomes others. -/
theorem eq_takes_of_ofOption
    {found : Option (List Goal)}
    (takes : Step.ofOption found = .takes goals) :
    found = some goals := by
  cases found with
  | none => cases takes
  | some other =>
      cases takes
      rfl

/-- What a goal becomes is orderly. -/
theorem orderly_of_meet
    (leaves : goal.precedes next = true)
    (takes : goal.meet kind = .takes goals) :
    Orderly next goals := by
  -- A case for each goal, since a goal becomes other goals in its own way.
  cases goal with
  | token expected =>
      rw [meet] at takes
      split at takes
      · cases takes
        trivial
      · cases takes
  | names =>
      rw [meet] at takes
      split at takes
      · cases takes
        trivial
      split at takes
      · cases takes
        simp [completing]
      · cases takes
  | moreNames =>
      rw [meet] at takes
      split at takes
      · cases takes
        simpa [completing] using leaves
      · cases takes
  | path =>
      rw [meet] at takes
      split at takes
      · cases takes
        simpa [completing] using leaves
      · cases takes
  | code nesting =>
      rw [meet] at takes
      split at takes
      · cases takes
      split at takes
      · cases takes
        simp
      split at takes
      · cases takes
        cases nesting <;> simp [codeBehind]
      · cases takes
        simp
  | operand room => exact orderly_operand? (eq_takes_of_ofOption takes)
  | links room =>
      rw [meet] at takes
      split at takes
      · cases takes
        simpa [completing] using leaves
      split at takes
      · cases takes
        simpa [completing, endsExpression, TokenKind.isComparison, TokenKind.isAdditive]
          using leaves
      split at takes
      · cases takes
        simpa [completing, endsExpression, TokenKind.isComparison, TokenKind.isAdditive]
          using leaves
      · cases takes
  | comparisons room =>
      rw [meet] at takes
      split at takes
      · cases takes
        simpa using leaves
      · cases takes
  | terms room =>
      rw [meet] at takes
      split at takes
      · cases takes
        simpa using leaves
      · cases takes
  | expression room => exact orderly_expression? leaves (eq_takes_of_ofOption takes)
  | items room closing =>
      simp only [precedes, Bool.and_eq_true] at leaves
      obtain ⟨isClosing, ends⟩ := leaves
      rw [meet] at takes
      split at takes
      · cases takes
        trivial
      · obtain ⟨first, isFirst, rfl⟩ := Option.map_eq_some_iff.mp (eq_takes_of_ofOption takes)
        have isHere : Orderly (firstOf next [moreItems room, token closing]) first :=
          orderly_expression? ends isFirst
        -- The items end with a sign of their own, so a comma is theirs.
        have noComma : closing ≠ .comma := by
          rintro rfl
          cases isClosing
        refine isHere.append_plain ?_ (by simp)
        simp only [Orderly, precedes, firstOf_cons, completion, List.headD_cons, ends, isClosing,
          Bool.true_and, bne_iff_ne, Defers]
        simp [noComma]
  | moreItems room =>
      rw [meet] at takes
      split at takes
      · cases takes
        simpa using leaves
      · cases takes
  | loopBody room =>
      rw [meet] at takes
      split at takes
      · cases takes
        simp [completing, statementEnds]
      split at takes
      · cases takes
        simp [completing, statementEnds]
      · cases takes
  | statements room =>
      rw [meet] at takes
      split at takes
      · cases takes
      split at takes
      · cases takes
        simpa using leaves
      · obtain ⟨first, isFirst, rfl⟩ := Option.map_eq_some_iff.mp (eq_takes_of_ofOption takes)
        have isHere : Orderly (firstOf next [statements room]) first :=
          orderly_statement? leaves isFirst
        exact isHere.append_plain (by simpa using leaves) (by simp)
  | statement room => cases leaves
  | assignment room =>
      rw [meet] at takes
      split at takes
      · cases takes
        simp only [precedes, Bool.and_eq_true] at leaves
        simp [leaves.1]
      · cases takes
  | alternative room =>
      rw [meet] at takes
      split at takes
      · cases takes
        simp [block, completing, statementEnds]
      · cases takes
  | clause room closing =>
      simp only [precedes, Bool.and_eq_true, beq_iff_eq, bne_iff_ne] at leaves
      obtain ⟨⟨rfl, ends⟩, noEqual⟩ := leaves
      rw [meet] at takes
      split at takes
      · cases takes
      split at takes
      · cases takes
        exact orderly_definition ends
      · exact orderly_simple? ends noEqual (eq_takes_of_ofOption takes)
  | test room =>
      rw [precedes, beq_iff_eq] at leaves
      rw [meet] at takes
      split at takes
      · cases takes
      · exact orderly_expression? (leaves ▸ rfl) (eq_takes_of_ofOption takes)
  | origin =>
      rw [meet] at takes
      split at takes
      · cases takes
        simp [importedFrom, completing]
      split at takes
      · cases takes
        simp [completing]
      · cases takes
  | external =>
      rw [meet] at takes
      split at takes
      · cases takes
        trivial
      · cases takes
  | members room =>
      rw [meet] at takes
      split at takes
      · cases takes
      split at takes
      · cases takes
        exact orderly_procedure.append_plain (by simpa using leaves) (by simp)
      · cases takes
        simpa using leaves
  | declaration room => cases leaves
  | program room =>
      rw [meet] at takes
      split at takes
      · cases takes
      split at takes
      · cases takes
        simpa using leaves
      · obtain ⟨first, isFirst, rfl⟩ := Option.map_eq_some_iff.mp (eq_takes_of_ofOption takes)
        rw [precedes, beq_iff_eq] at leaves
        subst leaves
        -- Behind a declaration only the end or another declaration comes.
        have isHere : Orderly (firstOf .endOfInput [program room]) first :=
          orderly_declaration? rfl isFirst
        exact isHere.append_plain (by simp) (by simp)

/-- What goals become is orderly. -/
theorem Orderly.meetAll
    (orderly : Orderly next goals)
    {left : List Goal}
    (takes : meetAll kind goals = .takes left) :
    Orderly next left := by
  induction goals with
  | nil =>
      cases takes
  | cons goal rest inductionHypothesis =>
      obtain ⟨leaves, defers, isRest⟩ := orderly
      rw [meetAll_cons] at takes
      cases step : goal.meet kind with
      | refuses =>
          rw [step] at takes
          cases takes
      | passes =>
          rw [step] at takes
          exact inductionHypothesis isRest takes
      | takes found =>
          rw [step] at takes
          cases takes
          refine (orderly_of_meet leaves step).append isRest ?_
          -- A token becomes nothing, and behind other goals no expression is nested too deeply.
          intro before member other isOther same
          obtain ⟨expected, rfl⟩ := defers other isOther same
          rw [meet] at step
          split at step
          · cases step
            cases member
          · cases step

/-- The goals behind tokens are orderly. -/
theorem Orderly.await
    (orderly : Orderly next goals)
    {kinds : List TokenKind}
    {left : List Goal}
    (reached : await goals kinds = some left) :
    Orderly next left := by
  induction kinds generalizing goals with
  | nil =>
      cases reached
      exact orderly
  | cons kind kinds inductionHypothesis =>
      obtain ⟨middle, fed, later⟩ := Option.bind_eq_some_iff.mp reached
      unfold feed at fed
      cases step : Goal.meetAll kind goals with
      | takes found =>
          rw [step] at fed
          cases fed
          exact inductionHypothesis (orderly.meetAll step) later
      | passes =>
          rw [step] at fed
          cases fed
      | refuses =>
          rw [step] at fed
          cases fed

/-- The goal of a program is orderly. -/
theorem orderly_program (room : Nat) : Orderly .endOfInput [program room] := by
  simp

/-! ## Meeting all goals -/

/-- The goals take the kinds, and the goals that are left leave the next token to others. -/
def Clears (next : TokenKind) (goals : List Goal) (kinds : List TokenKind) : Prop :=
  ∃ left, await goals kinds = some left ∧ Goal.meetAll next left = .passes

/-- Goals in a row are cleared by kinds in a row. -/
theorem Clears.append
    {kinds more : List TokenKind}
    (clears : Clears (more.headD next) front kinds)
    (clearsMore : Clears next behind more) :
    Clears next (front ++ behind) (kinds ++ more) := by
  obtain ⟨left, reached, passes⟩ := clears
  obtain ⟨last, ended, isLast⟩ := clearsMore
  have framed := await_frame reached behind
  cases more with
  | nil =>
      cases ended
      rw [List.append_nil]
      refine ⟨left ++ behind, framed, ?_⟩
      rw [List.headD_nil] at passes
      rw [meetAll_append, passes]
      exact isLast
  | cons kind more =>
      rw [List.headD_cons] at passes
      refine ⟨last, ?_, isLast⟩
      rw [await_append, framed, Option.bind_some, await_cons, feed_of_passes passes]
      exact ended

/-- Embedded code is closed by its parentheses. -/
theorem clears_code (next : TokenKind) (nesting : Nat) :
    Clears next [code nesting] (List.replicate (nesting + 1) .parenClose) := by
  induction nesting with
  | zero => exact ⟨[], rfl, rfl⟩
  | succ nesting inductionHypothesis => exact inductionHypothesis

/-- A goal is met by its completion, unless it is an expression that is nested too deeply. -/
theorem clears_completion
    (leaves : goal.precedes next = true)
    (shallow : goal ≠ .expression 0) :
    Clears next [goal] goal.completion := by
  have left : ∀ {goals kinds}, await goals kinds = some [] → Clears next goals kinds :=
    fun reached => ⟨[], reached, rfl⟩
  have unmet : goal.meet next = .passes → Clears next [goal] [] := by
    intro passes
    refine ⟨[goal], rfl, ?_⟩
    rw [meetAll_cons, passes]
    rfl
  cases goal with
  | token kind => exact left (by simp [await_cons, feed, meetAll_cons, meet, Step.before])
  | names => exact left rfl
  | moreNames => exact unmet (by simpa [meet] using leaves)
  | path => exact unmet (by simpa [meet] using leaves)
  | code nesting => exact clears_code next nesting
  | operand room => exact left rfl
  | links room => exact unmet (by simp_all [meet, endsExpression])
  | comparisons room => exact unmet (by simp_all [meet, endsExpression])
  | terms room => exact unmet (by simp_all [meet, endsExpression])
  | expression room =>
      cases room with
      | zero => exact (shallow rfl).elim
      | succ room =>
          refine ⟨further room, rfl, ?_⟩
          simp_all [meetAll_cons, further, meet, endsExpression, Step.before]
  | items room closing =>
      exact left (by simp [await_cons, feed, meetAll_cons, meet, Step.before])
  | moreItems room => exact unmet (by simp_all [meet])
  | loopBody room => exact left rfl
  | statements room => exact unmet (by simp_all [meet, statementEnds])
  | statement room => cases leaves
  | assignment room => exact unmet (by simp_all [meet])
  | alternative room => exact unmet (by simpa [meet] using leaves)
  | clause room closing => exact unmet (by simp_all [meet])
  | test room => exact unmet (by simp_all [meet])
  | origin => exact left rfl
  | external => exact unmet (by simpa [meet] using leaves)
  | members room => exact unmet (by simp_all [meet])
  | declaration room => cases leaves
  | program room => exact unmet (by simp_all [meet])

/-- Orderly goals are met by their completion, unless one is nested too deeply. -/
theorem clears_completionOf
    (orderly : Orderly next goals)
    (shallow : .expression 0 ∉ goals) :
    Clears next goals (completionOf goals) := by
  induction goals with
  | nil =>
      exact ⟨[], rfl, rfl⟩
  | cons goal rest inductionHypothesis =>
      obtain ⟨leaves, -, isRest⟩ := orderly
      rw [List.mem_cons, not_or] at shallow
      exact (clears_completion leaves (Ne.symm shallow.1)).append
        (inductionHypothesis isRest shallow.2)

/-- An expression that is nested too deeply is never met. -/
theorem meetAll_of_deep
    (deep : .expression 0 ∈ goals)
    (kind : TokenKind) :
    Goal.meetAll kind goals = .refuses ∨
      ∃ left, Goal.meetAll kind goals = .takes left ∧ .expression 0 ∈ left := by
  induction goals with
  | nil =>
      cases deep
  | cons goal rest inductionHypothesis =>
      rw [meetAll_cons]
      rcases List.mem_cons.mp deep with rfl | later
      · exact .inl rfl
      · cases goal.meet kind with
        | takes found => exact .inr ⟨found ++ rest, rfl, List.mem_append_right _ later⟩
        | passes => exact inductionHypothesis later
        | refuses => exact .inl rfl

/-- Goals with an expression that is nested too deeply are never cleared. -/
theorem not_clears_of_deep
    (deep : .expression 0 ∈ goals)
    (next : TokenKind)
    (kinds : List TokenKind) :
    ¬Clears next goals kinds := by
  rintro ⟨left, reached, passes⟩
  induction kinds generalizing goals with
  | nil =>
      cases reached
      rcases meetAll_of_deep deep next with refuses | ⟨other, takes, -⟩
      · cases refuses.symm.trans passes
      · cases takes.symm.trans passes
  | cons kind kinds inductionHypothesis =>
      rw [await_cons, feed] at reached
      rcases meetAll_of_deep deep kind with refuses | ⟨other, takes, stays⟩
      · rw [refuses] at reached
        cases reached
      · rw [takes] at reached
        exact inductionHypothesis stays reached

/-- The kinds of a completion. -/
theorem mem_completing_of_mem_completionOf
    (orderly : Orderly next goals) :
    ∀ kind ∈ completionOf goals, kind ∈ completing := by
  induction goals with
  | nil =>
      simp
  | cons goal rest inductionHypothesis =>
      obtain ⟨leaves, -, isRest⟩ := orderly
      rw [completionOf_cons]
      refine List.forall_mem_append.mpr ⟨?_, inductionHypothesis isRest⟩
      cases goal <;> simp_all [completing]

/-! ## Line breaks -/

/-- A goal that takes a line break stays, and is no token. -/
theorem eq_of_meet_newline
    (leaves : goal.precedes next = true)
    (takes : goal.meet .newline = .takes goals) :
    goals = [goal] ∧ ∀ kind, goal ≠ .token kind := by
  cases goal with
  | token kind =>
      rw [meet] at takes
      split at takes
      · next isBreak =>
          rw [← isBreak] at leaves
          cases leaves
      · cases takes
  | items room closing =>
      rw [meet] at takes
      split at takes
      · next isBreak =>
          rw [← isBreak] at leaves
          cases leaves
      · cases room <;> cases takes
  | expression room => cases room <;> cases takes
  | test room => cases room <;> cases takes
  | clause room closing =>
      rw [meet] at takes
      split at takes
      · cases takes
      · cases room <;> cases takes
  | statement room => cases leaves
  | declaration room => cases leaves
  | code nesting | statements room | members room | program room =>
      cases takes
      exact ⟨rfl, by simp⟩
  | _ => cases takes

/-- Behind a line break no expression is awaited that is nested too deeply. -/
theorem shallow_of_newline
    (orderly : Orderly next goals)
    {left : List Goal}
    (takes : Goal.meetAll .newline goals = .takes left) :
    .expression 0 ∉ left := by
  induction goals with
  | nil =>
      cases takes
  | cons goal rest inductionHypothesis =>
      obtain ⟨leaves, defers, isRest⟩ := orderly
      rw [meetAll_cons] at takes
      cases step : goal.meet .newline with
      | refuses =>
          rw [step] at takes
          cases takes
      | passes =>
          rw [step] at takes
          exact inductionHypothesis isRest takes
      | takes found =>
          rw [step] at takes
          cases takes
          obtain ⟨rfl, noToken⟩ := eq_of_meet_newline leaves step
          rw [List.singleton_append, List.mem_cons, not_or]
          refine ⟨?_, fun member => ?_⟩
          · rintro rfl
            cases step
          · obtain ⟨kind, isToken⟩ := defers _ member rfl
            exact noToken kind isToken

end FrenchNim.Grammar.Goal
