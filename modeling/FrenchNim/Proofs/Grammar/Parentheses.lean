import FrenchNim.Proofs.Grammar.Depth
import FrenchNim.Proofs.Grammar.Standing
import FrenchNim.Proofs.Invariance

namespace FrenchNim.Grammar

/-!
# Parentheses around an expression

A pair of parentheses around an expression opens one more expression and adds
nothing to the tree. So any number of pairs may stand around an expression, as
long as the expressions nested in it and the pairs together are not too many.
Too many opening parentheses are a mistake at what stands behind them, even if
that is the end of the source.
-/

/-- Tokens with pairs of tokens around them, the outermost pair first. -/
def enclosed (inner : List Token) : List (Token × Token) → List Token
  | [] => inner
  | (opening, closing) :: pairs => opening :: (enclosed inner pairs ++ [closing])

/-- The two tokens are an opening and a closing parenthesis. -/
def AreParentheses (pair : Token × Token) : Prop :=
  pair.1.kind = .parenOpen ∧ pair.2.kind = .parenClose

variable {final : Token} {room : Nat} {value : Expression} {inner behind : List Token}

/-! ## Tokens in other places -/

/-- Tokens in other places are read as the same expression up to its places. -/
theorem read_expression_of_faces
    (isEnd : final.kind = .endOfInput)
    {tokens : List Token}
    (agree : inner.map Token.face = tokens.map Token.face)
    (found : Rule.expression.read final room (tokens ++ behind) = .ok (value, behind)) :
    ∃ tree, Rule.expression.read final room (inner ++ behind) = .ok (tree, behind) ∧
      tree.erase = value.erase := by
  let extension : Extension := ⟨fun _ => .zero, final, [], final.erase, isEnd⟩
  have exact : extension.Exact := ⟨rfl, rfl⟩
  have sameTokens : extension.extend (inner ++ behind) = extension.extend (tokens ++ behind) := by
    have same : inner.map (·.relocate extension.move) = tokens.map (·.relocate extension.move) :=
      Token.map_erase_of_map_face agree
    rw [Extension.extend, Extension.extend, List.map_append, List.map_append, same]
  have follows : ∀ later, extension.Follows (·.erase) (Rule.expression.read final room later)
      (Rule.expression.read final.erase room (extension.extend later)) :=
    fun later => followsItself .expression room later (.inl exact)
  have given := follows (tokens ++ behind)
  have moved := follows (inner ++ behind)
  rw [found] at given
  have erased := (given.resolve_left fun inexact => inexact.1 exact).2
  rw [sameTokens, erased] at moved
  rcases read : Rule.expression.read final room (inner ++ behind) with error | ⟨tree, rest⟩
  · rw [read] at moved
    cases moved.resolve_left fun inexact => inexact.1 exact
  · rw [read] at moved
    have same := (moved.resolve_left fun inexact => inexact.1 exact).2
    obtain ⟨sameTree, sameRest⟩ := Prod.mk.inj (Except.ok.inj same)
    have sameLength : behind.length = rest.length := by
      simpa [Extension.extend] using congrArg List.length sameRest
    have isPart := Rule.expression.read_suffix isEnd _ read
    have within := List.suffix_of_suffix_length_le isPart (List.suffix_append inner behind)
      sameLength.ge
    rw [within.eq_of_length sameLength.symm]
    exact ⟨tree, rfl, sameTree.symm⟩

/-! ## One pair of parentheses -/

section

attribute [local simp] Rule.course Course.run nextKind Goal.isLeaf

theorem read_primary_parenthesis
    {opening : Token}
    (opens : opening.kind = .parenOpen)
    (tokens : List Token) :
    Rule.primary.read final room (opening :: tokens) =
      (Rule.expression.read final room tokens).andThen fun value after =>
        ((Rule.expect .parenClose).read final room after).andThen fun _ rest =>
          .ok (value, rest) := by
  simp [Rule.read_course_primary, opens]

end

/-- A primary expression is a whole expression if nothing behind it goes on with it. -/
theorem read_expression_of_primary
    {tokens : List Token}
    (found : Rule.primary.read final room tokens = .ok (value, behind))
    (ends : (nextKind behind).all Goal.endsExpression) :
    Rule.expression.read final (room + 1) tokens = .ok (value, behind) := by
  rw [Rule.read_expression_succ, Rule.read_comparison, Rule.read_chain, found, Parsed.andThen_ok]
  cases behind with
  | nil =>
      simp
  | cons token rest =>
      have apart : Goal.endsExpression token.kind = true := ends
      simp only [Goal.endsExpression, Bool.not_eq_true', Bool.or_eq_false_iff, beq_eq_false_iff_ne,
        ne_eq] at apart
      simp [Rule.read_moreLinks_cons, Rule.read_moreComparisons_cons, Rule.read_moreTerms_cons,
        apart]

/-- An expression in parentheses is the expression, with one more open around it. -/
theorem read_expression_parentheses
    {pair : Token × Token}
    (areParentheses : AreParentheses pair)
    (found : Rule.expression.read final room (inner ++ pair.2 :: behind) =
      .ok (value, pair.2 :: behind))
    (ends : (nextKind behind).all Goal.endsExpression) :
    Rule.expression.read final (room + 1) (pair.1 :: inner ++ pair.2 :: behind) =
      .ok (value, behind) := by
  obtain ⟨opens, closes⟩ := areParentheses
  refine read_expression_of_primary ?_ ends
  rw [List.cons_append, read_primary_parenthesis opens, found, Parsed.andThen_ok,
    Rule.read_expect_cons, if_pos (show pair.2.kind = Expectation.parenClose.kind from closes)]
  rfl

/-- An expression in parentheses is too deep if it is too deep with one less open around it. -/
theorem tooDeep_parentheses
    {pair : Token × Token}
    (areParentheses : AreParentheses pair)
    (deep : (Rule.expression.read final room (inner ++ pair.2 :: behind)).TooDeep) :
    (Rule.expression.read final (room + 1) (pair.1 :: inner ++ pair.2 :: behind)).TooDeep := by
  rw [List.cons_append, Rule.read_expression_succ, Rule.read_comparison, Rule.read_chain,
    read_primary_parenthesis areParentheses.1]
  exact ((((deep.andThen _).andThen _).andThen _).andThen _)

/-! ## Any number of pairs -/

/-- The tokens of enclosed tokens, with others behind them. -/
theorem enclosed_cons (pair : Token × Token) (pairs : List (Token × Token)) (behind : List Token) :
    enclosed inner (pair :: pairs) ++ behind =
      pair.1 :: enclosed inner pairs ++ pair.2 :: behind := by
  rw [enclosed, List.cons_append, List.cons_append, List.append_assoc, List.singleton_append]

/-- Each pair of parentheses around an expression takes room for one more. -/
theorem read_enclosed
    {pairs : List (Token × Token)}
    (areParentheses : ∀ pair ∈ pairs, AreParentheses pair)
    (found : ∀ behind, (nextKind behind).all Goal.endsExpression →
      Rule.expression.read final room (inner ++ behind) = .ok (value, behind))
    (ends : (nextKind behind).all Goal.endsExpression) :
    Rule.expression.read final (room + pairs.length) (enclosed inner pairs ++ behind) =
      .ok (value, behind) := by
  induction pairs generalizing behind with
  | nil => exact found behind ends
  | cons pair pairs inductionHypothesis =>
      obtain ⟨outermost, others⟩ := List.forall_mem_cons.mp areParentheses
      have closing : (nextKind (pair.2 :: behind)).all Goal.endsExpression := by
        rw [nextKind_cons, outermost.2]
        rfl
      rw [enclosed_cons]
      exact read_expression_parentheses outermost (inductionHypothesis others closing) ends

/-- Parentheses around an expression are too deep if the expression has too little room in them. -/
theorem tooDeep_enclosed
    {pairs : List (Token × Token)}
    (areParentheses : ∀ pair ∈ pairs, AreParentheses pair)
    (deep : ∀ behind, nextKind behind = some .parenClose →
      (Rule.expression.read final (room - pairs.length) (inner ++ behind)).TooDeep)
    (closes : pairs = [] → nextKind behind = some .parenClose) :
    (Rule.expression.read final room (enclosed inner pairs ++ behind)).TooDeep := by
  induction pairs generalizing room behind with
  | nil => exact deep behind (closes rfl)
  | cons pair pairs inductionHypothesis =>
      obtain ⟨outermost, others⟩ := List.forall_mem_cons.mp areParentheses
      rw [enclosed_cons]
      cases room with
      | zero => exact ⟨_, Rule.read_expression_zero ..⟩
      | succ room =>
          have within : room - pairs.length = room + 1 - (pair :: pairs).length := by
            rw [List.length_cons, Nat.add_sub_add_right]
          refine tooDeep_parentheses outermost (inductionHypothesis others ?_ fun _ => ?_)
          · rwa [within]
          · rw [nextKind_cons, outermost.2]

/-! ## The depth limit -/

section

variable {newFinal closing : Token} {tokens after : List Token}

/-- Tokens in other places are read as the expression in front of all that ends it. -/
theorem exists_expression_of_faces
    (isEnd : final.kind = .endOfInput)
    (isNewEnd : newFinal.kind = .endOfInput)
    (agree : inner.map Token.face = tokens.map Token.face)
    (found : Rule.expression.read final room (tokens ++ closing :: after) =
      .ok (value, closing :: after)) :
    ∃ tree, tree.erase = value.erase ∧
      ∀ behind, (nextKind behind).all Goal.endsExpression →
        Rule.expression.read newFinal room (inner ++ behind) = .ok (tree, behind) := by
  obtain ⟨tree, read, same⟩ := read_expression_of_faces isEnd agree found
  refine ⟨tree, same, fun behind ends => ?_⟩
  refine Rule.read_standing isEnd isNewEnd ?_ read
  exact ⟨Option.some_ne_none _, ends⟩

/-- Tokens in other places are too deep where the expression is. -/
theorem tooDeep_of_faces
    (isEnd : final.kind = .endOfInput)
    (isNewEnd : newFinal.kind = .endOfInput)
    (agree : inner.map Token.face = tokens.map Token.face)
    (closes : closing.kind = .parenClose)
    (found : Rule.expression.read final room (tokens ++ closing :: after) =
      .ok (value, closing :: after))
    {small : Nat}
    (within : small ≤ room)
    (deep : (Rule.expression.read final small (tokens ++ closing :: after)).TooDeep)
    (isClosed : nextKind behind = some .parenClose) :
    (Rule.expression.read newFinal small (inner ++ behind)).TooDeep := by
  have parenthesisEnds : ∀ later, nextKind later = some .parenClose →
      (nextKind later).all Goal.endsExpression := by
    intro later next
    rw [next]
    rfl
  obtain ⟨tree, -, reads⟩ := exists_expression_of_faces isEnd isNewEnd agree found
  rcases Rule.narrows isNewEnd .expression (inner ++ behind) within with same | tooDeep
  · -- The tokens would be read in their own places, too.
    rw [reads behind (parenthesisEnds _ isClosed)] at same
    cases behind with
    | nil => cases isClosed
    | cons first rest =>
        obtain ⟨_, -, back⟩ := exists_expression_of_faces isNewEnd isEnd agree.symm same
        rw [back (closing :: after) (parenthesisEnds _ (congrArg some closes))] at deep
        exact (Parsed.not_tooDeep_ok deep).elim
  · exact tooDeep

/--
Pairs of parentheses around an expression do not change it, as long as the deepest nesting of
expressions in it leaves room for all of them. Otherwise the expression is too deep.
-/
theorem parentheses_neutral_within_limit
    (isEnd : final.kind = .endOfInput)
    (closes : closing.kind = .parenClose)
    (found : Rule.expression.read final depthLimit (tokens ++ closing :: after) =
      .ok (value, closing :: after)) :
    ∃ depth, Rule.expression.DeepestNesting final depthLimit (tokens ++ closing :: after) depth ∧
      ∀ (pairs : List (Token × Token)) (inner behind : List Token) (newFinal : Token),
        (∀ pair ∈ pairs, AreParentheses pair) →
        inner.map Token.face = tokens.map Token.face →
        newFinal.kind = .endOfInput →
        (nextKind behind).all Goal.endsExpression →
        if depth + pairs.length ≤ depthLimit then
          ∃ tree, Rule.expression.read newFinal depthLimit (enclosed inner pairs ++ behind) =
            .ok (tree, behind) ∧ tree.erase = value.erase
        else
          ∃ position, Rule.expression.read newFinal depthLimit (enclosed inner pairs ++ behind) =
            .error (.tooDeep position) := by
  obtain ⟨depth, fits, deepest⟩ :=
    Rule.exists_deepestNesting isEnd (found ▸ Parsed.not_tooDeep_ok)
  refine ⟨depth, deepest, fun pairs inner behind newFinal areParentheses agree isNewEnd ends => ?_⟩
  have within : depthLimit - pairs.length ≤ depthLimit := Nat.sub_le _ _
  split
  · next enough =>
      have shallow := (deepest.le_iff isEnd within).mp (Nat.le_sub_of_add_le enough)
      have narrowed := (Rule.narrows isEnd _ _ within).resolve_right shallow
      obtain ⟨tree, same, reads⟩ :=
        exists_expression_of_faces isEnd isNewEnd agree (narrowed.trans found)
      have read := read_enclosed areParentheses reads ends
      rw [Nat.sub_add_cancel (by omega)] at read
      exact ⟨tree, read, same⟩
  · next tooMany =>
      have opened : 1 ≤ depth := deepest.2 Rule.Nests.here
      have deep : (Rule.expression.read final (depthLimit - pairs.length)
          (tokens ++ closing :: after)).TooDeep :=
        Classical.not_not.mp (mt (deepest.le_iff isEnd within).mpr (by omega))
      refine tooDeep_enclosed areParentheses (fun later isClosed => ?_) fun empty => ?_
      · exact tooDeep_of_faces isEnd isNewEnd agree closes found within deep isClosed
      · subst empty
        exact (tooMany fits).elim

end

/-- The tokens of `f(a)`, in which two expressions are nested. -/
def smallCall : List Token :=
  [.bare .identifier "f", .bare .parenOpen "(", .bare .identifier "a", .bare .parenClose ")"]

/-- The expression `f(a)`. -/
def smallCallTree : Expression :=
  .invocation (.identifier ⟨"f", .zero⟩) [.identifier ⟨"a", .zero⟩] .zero

/-- Pairs of parentheses. -/
def parenthesisPairs (count : Nat) : List (Token × Token) :=
  List.replicate count (.bare .parenOpen "(", .bare .parenClose ")")

/-- A call may stand in 1022 pairs of parentheses, and not in one more. -/
theorem parentheses_neutral_within_limit_call :
    Rule.expression.read (.endOfInput .zero) depthLimit (smallCall ++ [.bare .parenClose ")"]) =
      .ok (smallCallTree, [.bare .parenClose ")"]) ∧
    (∃ tree, Rule.expression.read (.endOfInput .zero) depthLimit
      (enclosed smallCall (parenthesisPairs 1022)) = .ok (tree, []) ∧
        tree.erase = smallCallTree.erase) ∧
    ∃ position, Rule.expression.read (.endOfInput .zero) depthLimit
      (enclosed smallCall (parenthesisPairs 1023)) = .error (.tooDeep position) := by
  have found : Rule.expression.read (.endOfInput .zero) depthLimit
      (smallCall ++ [.bare .parenClose ")"]) = .ok (smallCallTree, [.bare .parenClose ")"]) := by
    cbv
  obtain ⟨depth, deepest, neutral⟩ := parentheses_neutral_within_limit rfl rfl found
  have foundInTwo : Rule.expression.read (.endOfInput .zero) 2
      (smallCall ++ [.bare .parenClose ")"]) = .ok (smallCallTree, [.bare .parenClose ")"]) := by
    cbv
  have deepInOne : (Rule.expression.read (.endOfInput .zero) 1
      (smallCall ++ [.bare .parenClose ")"])).TooDeep :=
    ⟨.zero, by cbv⟩
  have atMost := (deepest.le_iff rfl (by decide)).mpr (foundInTwo ▸ Parsed.not_tooDeep_ok)
  have above := mt (deepest.le_iff rfl (by decide)).mp (not_not_intro deepInOne)
  obtain rfl : depth = 2 := by omega
  have enclosedCall : ∀ count, if 2 + count ≤ depthLimit then
      ∃ tree, Rule.expression.read (.endOfInput .zero) depthLimit
        (enclosed smallCall (parenthesisPairs count)) = .ok (tree, []) ∧
          tree.erase = smallCallTree.erase
      else ∃ position, Rule.expression.read (.endOfInput .zero) depthLimit
        (enclosed smallCall (parenthesisPairs count)) = .error (.tooDeep position) := by
    intro count
    have areParentheses : ∀ pair ∈ parenthesisPairs count, AreParentheses pair := by
      intro pair member
      obtain rfl := List.eq_of_mem_replicate member
      exact ⟨rfl, rfl⟩
    have outcome := neutral (parenthesisPairs count) smallCall [] (.endOfInput .zero)
      areParentheses rfl rfl rfl
    rwa [parenthesisPairs, List.length_replicate, List.append_nil] at outcome
  refine ⟨found, ?_, ?_⟩
  · have within := enclosedCall 1022
    rwa [if_pos (by decide)] at within
  · have beyond := enclosedCall 1023
    rwa [if_neg (by decide)] at beyond

/-! ## Parentheses that stay open -/

/-- Opening parentheses that take all the room are too deep at what stands behind them. -/
theorem read_openings
    {openings : List Token}
    (opens : ∀ token ∈ openings, token.kind = .parenOpen)
    (behind : List Token) :
    Rule.expression.read final openings.length (openings ++ behind) =
      .error (.tooDeep (current final behind).span.first) := by
  induction openings with
  | nil =>
      exact Rule.read_expression_zero final behind
  | cons opening others inductionHypothesis =>
      obtain ⟨opensFirst, opensOthers⟩ := List.forall_mem_cons.mp opens
      rw [List.length_cons, List.cons_append, Rule.read_expression_succ, Rule.read_comparison,
        Rule.read_chain, read_primary_parenthesis opensFirst, inductionHypothesis opensOthers]
      rfl

/-- A program of opening parentheses that take all the room is too deep at its end. -/
theorem programWithin_openings
    {openings : List Token}
    (opens : ∀ token ∈ openings, token.kind = .parenOpen)
    (present : openings ≠ [])
    (isEnd : final.kind = .endOfInput) :
    programWithin openings.length (openings ++ [final]) = .error (.tooDeep final.span.first) := by
  have unended : ∀ token ∈ openings, token.kind ≠ .endOfInput := by
    intro token member
    rw [opens token member]
    decide
  have read : Rule.expression.read final openings.length (openings ++ []) =
      .error (.tooDeep final.span.first) :=
    read_openings opens []
  rw [List.append_nil] at read
  obtain ⟨opening, others, rfl⟩ := List.exists_cons_of_ne_nil present
  have isOpening := opens opening List.mem_cons_self
  have noBreak : skipNewlines (opening :: others) = opening :: others := by
    rw [skipNewlines, List.dropWhile_cons_of_neg (by simp [isOpening])]
  rw [programWithin_concat _ unended isEnd, noBreak, declarations_cons,
    Rule.read_declaration_cons, Rule.read_statement_cons]
  simp only [isOpening, reduceCtorEq, ↓reduceIte]
  rw [Rule.read_simple, read]
  rfl

end FrenchNim.Grammar

namespace FrenchNim.Lexer

/-- Every opening parenthesis is a piece of its own. -/
theorem pieces_openings (count : Nat) (behind : Source) :
    pieces (List.replicate count (.char '(') ++ behind) =
      List.replicate count (.token .parenOpen "(" [.char '(']) ++ pieces behind := by
  induction count with
  | zero =>
      rfl
  | succ count inductionHypothesis =>
      rw [List.replicate_succ, List.cons_append, pieces_cons, List.replicate_succ,
        List.cons_append, ← inductionHypothesis]
      rfl

/-- The tokens of opening parentheses, with a skipped text behind them. -/
theorem kinds_openings (position : Position) (count : Nat) (skipped : Source) :
    (tokensAt position (List.replicate count (.token .parenOpen "(" [.char '(']) ++
      [.trivia skipped])).map (·.kind) = List.replicate count .parenOpen := by
  induction count generalizing position with
  | zero =>
      rfl
  | succ count inductionHypothesis =>
      rw [List.replicate_succ, List.cons_append, tokensAt, List.map_cons, inductionHypothesis,
        List.replicate_succ]

end FrenchNim.Lexer

namespace FrenchNim

/-- Opening parentheses that take all the room are too deep at the end of the source. -/
theorem parseProgram_openings
    {skipped : Source}
    (isTrivia : Lexer.pieces skipped = [.trivia skipped]) :
    parseProgram (List.replicate Grammar.depthLimit (.char '(') ++ skipped) =
      .error (.grammatical (.tooDeep (Position.start.after
        (List.replicate Grammar.depthLimit (.char '(') ++ skipped)))) := by
  have cut := Lexer.pieces_openings Grammar.depthLimit skipped
  have kinds := Lexer.kinds_openings .start Grammar.depthLimit skipped
  rw [isTrivia] at cut
  rw [← cut] at kinds
  have length := congrArg List.length kinds
  rw [List.length_map, List.length_replicate] at length
  generalize List.replicate Grammar.depthLimit (Rune.char '(') ++ skipped = text at *
  have terminated : ∀ piece ∈ Lexer.pieces text, piece.isTerminated = true := by
    intro piece member
    rw [cut] at member
    rcases List.mem_append.mp member with isOpening | isSkipped
    · rw [List.eq_of_mem_replicate isOpening]
      rfl
    · rw [List.mem_singleton.mp isSkipped]
      rfl
  have lexed := Lexer.lex_eq_ok_iff.mpr ⟨terminated, by rw [length]; decide, rfl⟩
  have present : Lexer.tokensAt .start (Lexer.pieces text) ≠ [] := by
    intro empty
    rw [empty] at length
    cases length
  have deep := Grammar.programWithin_openings
    (fun token member => List.eq_of_mem_replicate (kinds ▸ List.mem_map_of_mem member)) present
    (show (Token.endOfInput (Position.start.after text)).kind = .endOfInput from rfl)
  rw [length] at deep
  rw [parseProgram_of_lex_ok lexed, parseTokens, deep]
  rfl

end FrenchNim
