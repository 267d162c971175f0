import FrenchNim.Proofs.Token.Lines
import FrenchNim.Text.Trim

namespace FrenchNim

/-!
# Texts behind one another

A text that ends with a line break, outside of strings and block comments, is cut
into the same pieces whatever follows it. So is any other text whose strings and
comments end, if a line break is put behind it, or another rune that goes on with
nothing. A text of white space has no tokens but line breaks.
-/

namespace Piece

/-- The piece is a block comment that is not closed. -/
def isOpenComment : Piece → Bool
  | trivia (slash :: star :: body) =>
      slash.toChar = '/' && star.toChar = '*' &&
        !(['/', '*'].isPrefixOf (body.reverse.map Rune.toChar))
  | _ => false

/-- The piece is a comment up to the end of its line. -/
def isLineComment : Piece → Bool
  | trivia (slash :: second :: _) => slash.toChar = '/' && second.toChar = '/'
  | _ => false

/-- The piece is a comment that would go on with the rune. -/
def isCommentBefore (next : Rune) (piece : Piece) : Bool :=
  piece.isOpenComment || piece.isLineComment && isInLine next.toChar

/-- A text without line breaks does not end with one. -/
theorem getLast?_ne_lineBreak
    {text : Source}
    (noBreak : ∀ rune ∈ text, rune.toChar ≠ '\n') :
    text.getLast? ≠ some lineBreak := by
  intro isLast
  exact noBreak lineBreak (List.mem_of_getLast? isLast) rfl

/-- A run of runes that are no line breaks holds none. -/
theorem run_ne_lineBreak
    {accept : Char → Bool}
    (refused : accept '\n' = false)
    {text : Source} :
    ∀ rune ∈ run accept text, rune.toChar ≠ '\n' := by
  intro rune member isBreak
  have accepted := mem_run (List.mem_map_of_mem member)
  rw [isBreak, refused] at accepted
  cases accepted

/-- A string that ends has its quote at the end. -/
theorem getLast?_cutString
    {quote : Char}
    (noBreak : quote ≠ '\n')
    (value : List Char)
    (covered rest : Source)
    (terminated : (cutString quote value covered rest).1.isTerminated = true) :
    (cutString quote value covered rest).1.text.getLast? ≠ some lineBreak := by
  fun_induction cutString quote value covered rest with
  | case1 => cases terminated
  | case2 value covered rune rest isQuote =>
      rw [text, List.reverse_cons, List.getLast?_concat]
      rintro isBreak
      cases Option.some.inj isBreak
      exact noBreak isQuote.symm
  | case3 => cases terminated
  | case4 value covered rune noQuote escapes escaped rest inductionHypothesis =>
      exact inductionHypothesis terminated
  | case5 value covered rune rest noQuote plain inductionHypothesis =>
      exact inductionHypothesis terminated

/-- A block comment covers what was read of it before. -/
theorem exists_text_of_cutBlockComment
    (covered rest : Source) :
    ∃ body, (cutBlockComment covered rest).1 = .trivia (covered.reverse ++ body) := by
  fun_induction cutBlockComment covered rest with
  | case1 covered => exact ⟨[], by simp⟩
  | case2 covered star slash rest closed => exact ⟨[star, slash], by simp⟩
  | case3 covered star slash rest notClosed inductionHypothesis =>
      obtain ⟨body, found⟩ := inductionHypothesis
      exact ⟨star :: body, by simp [found]⟩
  | case4 covered last => exact ⟨[last], by simp⟩

/-- A comment that ends with a line break is not closed. -/
theorem isOpenComment_of_lineBreak
    {slash star : Rune}
    {body : Source}
    (isSlash : slash.toChar = '/')
    (isStar : star.toChar = '*')
    (ends : (slash :: star :: body).getLast? = some lineBreak) :
    isOpenComment (.trivia (slash :: star :: body)) = true := by
  rw [isOpenComment, isSlash, isStar]
  cases reversed : body.reverse with
  | nil =>
      rfl
  | cons last others =>
      have split : body = others.reverse ++ [last] := by
        rw [← List.reverse_cons, ← reversed, List.reverse_reverse]
      rw [split, ← List.cons_append, ← List.cons_append, List.getLast?_concat] at ends
      cases Option.some.inj ends
      rfl

/-- An accepted rune is no line break if line breaks are refused. -/
theorem toChar_ne_lineBreak
    {accept : Char → Bool}
    (refused : accept '\n' = false)
    {rune : Rune}
    (accepted : accept rune.toChar = true) :
    rune.toChar ≠ '\n' := by
  intro isBreak
  rw [isBreak, refused] at accepted
  cases accepted

theorem cutNumber_ne_lineBreak
    {first : Rune}
    (isFirst : isDigit first.toChar = true)
    (rest : Source) :
    ∀ rune ∈ (cutNumber first rest).1.text, rune.toChar ≠ '\n' := by
  have digits : ∀ {first : Rune}, isDigit first.toChar = true → ∀ more : Source,
      ∀ rune ∈ first :: run isDigit more, rune.toChar ≠ '\n' := fun isFirst _ =>
    List.forall_mem_cons.mpr ⟨toChar_ne_lineBreak rfl isFirst, run_ne_lineBreak rfl⟩
  unfold cutNumber
  split
  · next dot digit more _ =>
      split
      · next isFraction =>
          rw [Bool.and_eq_true, decide_eq_true_eq] at isFraction
          refine List.forall_mem_append.mpr ⟨digits isFirst rest, ?_⟩
          refine List.forall_mem_cons.mpr ⟨?_, digits isFraction.2 more⟩
          rw [isFraction.1]
          decide
      · exact digits isFirst rest
  · exact digits isFirst rest

/-- No operator of two characters ends with a line break. -/
theorem operator?_ne_lineBreak
    {c : Char}
    {next : Option Char}
    {kind : TokenKind}
    (isOperator : operator? c next = some (kind, true)) :
    next ≠ some '\n' := by
  rintro rfl
  unfold operator? at isOperator
  split at isOperator
  all_goals simp at isOperator

theorem cutSlash_eq_lineBreak
    {slash : Rune}
    {rest : Source}
    (isSlash : slash.toChar = '/')
    (closed : (cutSlash slash rest).1.isOpenComment = false) :
    (cutSlash slash rest).1.text.getLast? ≠ some lineBreak := by
  have noBreak : slash.toChar ≠ '\n' := by
    rw [isSlash]
    decide
  unfold cutSlash at closed ⊢
  split
  · exact getLast?_ne_lineBreak (List.forall_mem_singleton.mpr noBreak)
  · next second more =>
      simp only at closed
      split
      · next isLine =>
          refine getLast?_ne_lineBreak (List.forall_mem_cons.mpr ⟨noBreak, ?_⟩)
          refine List.forall_mem_cons.mpr ⟨?_, run_ne_lineBreak rfl⟩
          rw [isLine]
          decide
      next notLine =>
      rw [if_neg notLine] at closed
      split
      · next isBlock =>
          rw [if_pos isBlock] at closed
          obtain ⟨body, found⟩ := exists_text_of_cutBlockComment [second, slash] more
          rw [found] at closed ⊢
          intro ends
          cases (isOpenComment_of_lineBreak isSlash isBlock ends).symm.trans closed
      · exact getLast?_ne_lineBreak (List.forall_mem_singleton.mpr noBreak)

/-- A piece that ends with a line break is one, or a string or comment without an end. -/
theorem cut_eq_lineBreak
    {first : Rune}
    {rest : Source}
    (terminated : (cut first rest).1.isTerminated = true)
    (closed : (cut first rest).1.isOpenComment = false)
    (ends : (cut first rest).1.text.getLast? = some lineBreak) :
    (cut first rest).1 = .token .newline "\n" [lineBreak] := by
  unfold cut at terminated closed ends ⊢
  cases isOperator : operator? first.toChar (rest.head?.map Rune.toChar) with
  | some found =>
      obtain ⟨kind, long⟩ := found
      cases long with
      | false =>
          simp only [isOperator] at ends ⊢
          cases Option.some.inj ends
          cases isOperator
          rfl
      | true =>
          simp only [isOperator] at ends
          cases rest with
          | nil =>
              obtain ⟨second, isNext, -⟩ := operator?_long isOperator
              cases isNext
          | cons second more =>
              cases Option.some.inj ends
              exact (operator?_ne_lineBreak isOperator rfl).elim
  | none =>
      simp only [isOperator] at terminated closed ends
      -- No other piece that is terminated and closed ends with a line break.
      exfalso
      by_cases isQuote : (first.toChar = '"' || first.toChar = '\'') = true
      · rw [if_pos isQuote] at terminated ends
        refine getLast?_cutString ?_ [] [first] rest terminated ends
        rintro isBreak
        rw [isBreak] at isQuote
        cases isQuote
      rw [if_neg isQuote] at closed ends
      by_cases isSlash : first.toChar = '/'
      · rw [if_pos isSlash] at closed ends
        exact cutSlash_eq_lineBreak isSlash closed ends
      rw [if_neg isSlash] at ends
      by_cases blank : isBlank first.toChar = true
      · rw [if_pos blank] at ends
        exact getLast?_ne_lineBreak (List.forall_mem_cons.mpr
          ⟨toChar_ne_lineBreak rfl blank, run_ne_lineBreak rfl⟩) ends
      rw [if_neg blank] at ends
      by_cases letter : isLetter first.toChar = true
      · rw [if_pos letter] at ends
        exact getLast?_ne_lineBreak (List.forall_mem_cons.mpr
          ⟨toChar_ne_lineBreak rfl letter, run_ne_lineBreak rfl⟩) ends
      rw [if_neg letter] at ends
      by_cases digit : isDigit first.toChar = true
      · rw [if_pos digit] at ends
        exact getLast?_ne_lineBreak (cutNumber_ne_lineBreak digit rest) ends
      rw [if_neg digit] at ends
      cases Option.some.inj ends
      cases isOperator

/-! ## A rune that is put behind a text -/

/-- A string that ends does not depend on what follows it. -/
theorem cutString_append
    (quote : Char)
    (value : List Char)
    (covered rest more : Source)
    (terminated : (cutString quote value covered rest).1.isTerminated = true) :
    cutString quote value covered (rest ++ more) =
      ((cutString quote value covered rest).1, (cutString quote value covered rest).2 ++ more) := by
  fun_induction cutString quote value covered rest with
  | case1 => cases terminated
  | case2 value covered rune rest isQuote =>
      exact cutString_closed value covered (rest ++ more) isQuote
  | case3 => cases terminated
  | case4 value covered rune noQuote escapes escaped rest inductionHypothesis =>
      rw [List.cons_append, List.cons_append,
        cutString_escaped value covered (rest ++ more) noQuote escapes]
      exact inductionHypothesis terminated
  | case5 value covered rune rest noQuote plain inductionHypothesis =>
      rw [List.cons_append, cutString_plain value covered (rest ++ more) noQuote plain]
      exact inductionHypothesis terminated

/-- A block comment is closed, whatever follows it, or it takes the whole text. -/
theorem cutBlockComment_append (covered rest : Source) :
    (∀ more, cutBlockComment covered (rest ++ more) =
      ((cutBlockComment covered rest).1, (cutBlockComment covered rest).2 ++ more)) ∨
    cutBlockComment covered rest = (.trivia (covered.reverse ++ rest), []) ∧
      ¬['*', '/'] <:+ rest.map Rune.toChar := by
  fun_induction cutBlockComment covered rest with
  | case1 covered =>
      exact .inr ⟨by simp, by simp⟩
  | case2 covered star slash rest closed =>
      refine .inl fun more => ?_
      rw [List.cons_append, List.cons_append, cutBlockComment, if_pos closed]
  | case3 covered star slash rest notClosed inductionHypothesis =>
      refine inductionHypothesis.imp (fun append more => ?_) (fun unclosed => ⟨?_, ?_⟩)
      · rw [List.cons_append, List.cons_append, cutBlockComment, if_neg notClosed]
        exact append more
      · simp [unclosed.1]
      · rw [List.map_cons, List.suffix_cons_iff]
        rintro (whole | inner)
        · simp only [List.map_cons, List.cons.injEq] at whole
          exact notClosed (by simp [← whole.1, ← whole.2.1])
        · exact unclosed.2 inner
  | case4 covered last =>
      exact .inr ⟨by simp, fun ends => absurd ends.length_le (by simp)⟩

/-- The rune goes on with no blank, word, number or operator, and starts or ends no comment. -/
structure Separates (stop : Rune) : Prop where
  blank : isBlank stop.toChar = false
  word : continuesWord stop.toChar = false
  operator : ∀ c, operator? c (some stop.toChar) = operator? c none
  fraction : stop.toChar ≠ '.'
  comment : stop.toChar ≠ '/' ∧ stop.toChar ≠ '*'

theorem Separates.digit {stop : Rune} (separates : Separates stop) :
    isDigit stop.toChar = false :=
  (Bool.or_eq_false_iff.mp separates.word).2

theorem separates_lineBreak : Separates lineBreak where
  blank := rfl
  word := rfl
  operator c := by
    unfold operator?
    split <;> rfl
  fraction := by decide
  comment := by decide

/-- What a text is cut into does not depend on the rune behind it. -/
def EndsAt (stop : Rune) (cutOff : Source → Piece × Source) (rest : Source) : Prop :=
  ∀ behind, cutOff (rest ++ stop :: behind) =
    ((cutOff rest).1, (cutOff rest).2 ++ stop :: behind)

/-- What a text is cut into does not depend on a line break behind it. -/
def EndsBefore (cutOff : Source → Piece × Source) (rest : Source) : Prop :=
  ∀ behind, cutOff (rest ++ lineBreak :: behind) =
    ((cutOff rest).1, (cutOff rest).2 ++ lineBreak :: behind)

section

variable {stop : Rune}

theorem cutNumber_endsAt (separates : Separates stop) (first : Rune) (rest : Source) :
    EndsAt stop (cutNumber first) rest := by
  intro behind
  have noFraction : (stop.toChar = '.') = False := eq_false separates.fraction
  unfold cutNumber
  simp only [run_append_cons separates.digit, afterRun_append_cons separates.digit]
  cases afterRun isDigit rest with
  | nil =>
      cases behind with
      | nil => rfl
      | cons next behind => simp [noFraction]
  | cons dot more =>
      cases more with
      | nil => simp [separates.digit]
      | cons digit more =>
          by_cases fraction : (dot.toChar = '.' && isDigit digit.toChar) = true
          · simp only [List.cons_append, if_pos fraction, run_append_cons separates.digit,
              afterRun_append_cons separates.digit]
          · simp only [List.cons_append, if_neg fraction]

/-- A run that ends does not depend on what follows its end. -/
theorem run_append_of_afterRun
    {accept : Char → Bool}
    {text : Source}
    (ended : afterRun accept text ≠ [])
    (behind : Source) :
    run accept (text ++ behind) = run accept text ∧
      afterRun accept (text ++ behind) = afterRun accept text ++ behind := by
  unfold run afterRun at *
  induction text with
  | nil => exact (ended rfl).elim
  | cons rune rest inductionHypothesis =>
      rw [List.cons_append, List.takeWhile_cons, List.takeWhile_cons, List.dropWhile_cons,
        List.dropWhile_cons]
      rw [List.dropWhile_cons] at ended
      split
      · next accepted =>
          rw [if_pos accepted] at ended
          obtain ⟨sameRun, sameRest⟩ := inductionHypothesis ended
          exact ⟨congrArg _ sameRun, sameRest⟩
      · exact ⟨rfl, rfl⟩

/-- A slash and what it starts, unless that is a comment that goes on. -/
theorem cutSlash_endsAt
    (separates : Separates stop)
    {slash : Rune}
    (isSlash : slash.toChar = '/')
    (rest : Source) :
    EndsAt stop (cutSlash slash) rest ∨
      (cutSlash slash rest).1.isCommentBefore stop = true ∧ (cutSlash slash rest).2 = [] := by
  cases rest with
  | nil =>
      left
      intro behind
      unfold cutSlash
      simp only [List.nil_append, if_neg separates.comment.1, if_neg separates.comment.2]
  | cons second more =>
      unfold EndsAt cutSlash
      simp only [List.cons_append]
      by_cases isLine : second.toChar = '/'
      · simp only [if_pos isLine]
        by_cases ended : afterRun isInLine more = []
        · by_cases inLine : isInLine stop.toChar = true
          · exact .inr ⟨by simp [isCommentBefore, isLineComment, isSlash, isLine, inLine], ended⟩
          · rw [Bool.not_eq_true] at inLine
            exact .inl fun behind => by
              rw [run_append_cons inLine, afterRun_append_cons inLine]
        · exact .inl fun behind => by
            rw [(run_append_of_afterRun ended _).1, (run_append_of_afterRun ended _).2]
      simp only [if_neg isLine]
      by_cases isBlock : second.toChar = '*'
      · simp only [if_pos isBlock]
        refine (cutBlockComment_append [second, slash] more).imp
          (fun append behind => append (stop :: behind)) (fun ⟨all, unclosed⟩ => ?_)
        rw [all]
        refine ⟨?_, rfl⟩
        rw [← List.reverse_prefix, ← List.isPrefixOf_iff_prefix, Bool.not_eq_true] at unclosed
        rw [isCommentBefore, Bool.or_eq_true]
        exact .inl (by simpa [isOpenComment, isSlash, isBlock] using unclosed)
      · simp only [if_neg isBlock]
        exact .inl fun behind => rfl

/-- A terminated piece ends in front of a separator, unless it is a comment that goes on. -/
theorem cut_endsAt
    (separates : Separates stop)
    {first : Rune}
    {rest : Source}
    (terminated : (cut first rest).1.isTerminated = true) :
    EndsAt stop (cut first) rest ∨
      (cut first rest).1.isCommentBefore stop = true ∧ (cut first rest).2 = [] := by
  have next : ∀ behind : Source,
      operator? first.toChar ((rest ++ stop :: behind).head?.map Rune.toChar) =
        operator? first.toChar (rest.head?.map Rune.toChar) := by
    intro behind
    cases rest with
    | nil => exact separates.operator first.toChar
    | cons second more => rfl
  unfold EndsAt cut at *
  simp only [next]
  split
  · exact .inl fun behind => rfl
  · next isOperator =>
      cases rest with
      | nil =>
          obtain ⟨second, isNext, -⟩ := operator?_long isOperator
          cases isNext
      | cons second more =>
          exact .inl fun behind => rfl
  next noOperator =>
  simp only [noOperator] at terminated
  split
  · next isQuote =>
      rw [if_pos isQuote] at terminated
      exact .inl fun behind => cutString_append _ [] [first] rest _ terminated
  split
  · next isSlash => exact cutSlash_endsAt separates isSlash rest
  left
  intro behind
  split
  · rw [run_append_cons separates.blank, afterRun_append_cons separates.blank]
  split
  · unfold cutWord
    rw [run_append_cons separates.word, afterRun_append_cons separates.word]
  split
  · exact cutNumber_endsAt separates first rest behind
  · rfl

end

/-- A line break goes on with block comments alone. -/
theorem isCommentBefore_lineBreak (piece : Piece) :
    piece.isCommentBefore lineBreak = piece.isOpenComment := by
  rw [isCommentBefore, lineBreak_toChar, show isInLine '\n' = false from rfl, Bool.and_false,
    Bool.or_false]

/-- A terminated piece ends before a line break that follows, unless it is an open comment. -/
theorem cut_endsBefore
    {first : Rune}
    {rest : Source}
    (terminated : (cut first rest).1.isTerminated = true) :
    EndsBefore (cut first) rest ∨
      (cut first rest).1.isOpenComment = true ∧ (cut first rest).2 = [] := by
  rw [← isCommentBefore_lineBreak]
  exact cut_endsAt separates_lineBreak terminated

end Piece

namespace Lexer

/-- The text ends inside of a block comment. -/
def endsInComment (text : Source) : Bool :=
  (pieces text).getLast?.any Piece.isOpenComment

/-- A text that ends with a line break, outside of strings and comments, ends with its token. -/
theorem pieces_eq_concat
    {text : Source}
    (ends : text.getLast? = some lineBreak)
    (terminated : ∀ piece ∈ pieces text, piece.isTerminated = true)
    (closed : endsInComment text = false) :
    ∃ before, pieces text = before ++ [Piece.token .newline "\n" [lineBreak]] := by
  rcases List.eq_nil_or_concat (pieces text) with empty | ⟨before, last, split⟩
  · have whole := text_pieces text
    rw [empty] at whole
    rw [← whole] at ends
    cases ends
  · rw [List.concat_eq_append] at split
    have member : last ∈ pieces text := by
      rw [split]
      simp
    obtain ⟨first, rest, rfl⟩ := exists_cut_of_mem_pieces member
    have whole := text_pieces text
    rw [split, List.flatMap_append, List.flatMap_singleton] at whole
    rw [endsInComment, split, List.getLast?_concat] at closed
    have present := List.getLast?_eq_some_getLast (Piece.cut_text_ne_nil first rest)
    rw [← whole, List.getLast?_append, present, Option.some_or, ← present] at ends
    rw [split, Piece.cut_eq_lineBreak (terminated _ member) closed ends]
    exact ⟨before, rfl⟩

/-- The pieces of such a text are followed by the pieces of what follows it. -/
theorem pieces_append
    {text : Source}
    (ends : text.getLast? = some lineBreak)
    (terminated : ∀ piece ∈ pieces text, piece.isTerminated = true)
    (closed : endsInComment text = false)
    (more : Source) :
    pieces (text ++ more) = pieces text ++ pieces more := by
  obtain ⟨before, split⟩ := pieces_eq_concat ends terminated closed
  have whole := text_pieces text
  rw [split, List.flatMap_append, List.flatMap_singleton, Piece.text] at whole
  have found : pieces (before.flatMap Piece.text ++ lineBreak :: []) =
      before ++ [Piece.token .newline "\n" [lineBreak]] := by
    rw [whole, split]
  have continued := pieces_lineBreak found rfl more
  rw [pieces_lineBreak_cons] at continued
  rw [split, List.append_assoc, List.singleton_append, ← continued, ← whole, List.append_assoc]
  rfl

/-- A text whose strings and comments end has the same pieces in front of a separator. -/
theorem pieces_append_cons
    {stop : Rune}
    (separates : Piece.Separates stop)
    {text : Source}
    (terminated : ∀ piece ∈ pieces text, piece.isTerminated = true)
    (closed : (pieces text).getLast?.any (Piece.isCommentBefore stop) = false)
    (behind : Source) :
    pieces (text ++ stop :: behind) = pieces text ++ pieces (stop :: behind) := by
  fun_induction pieces text with
  | case1 =>
      rfl
  | case2 first rest inductionHypothesis =>
      obtain ⟨here, later⟩ := List.forall_mem_cons.mp terminated
      rcases Piece.cut_endsAt separates here with ends | ⟨isOpen, isLast⟩
      · rw [List.cons_append, pieces_cons, ends behind, List.cons_append]
        refine congrArg _ (inductionHypothesis later ?_)
        cases isNext : (pieces (Piece.cut first rest).2).getLast? with
        | none =>
            rfl
        | some last =>
            rw [List.getLast?_cons, isNext] at closed
            exact closed
      · rw [isLast, pieces_nil, List.getLast?_singleton, Option.any_some, isOpen] at closed
        cases closed

/-- A text whose strings and comments end has the same pieces in front of a line break. -/
theorem pieces_append_lineBreak
    {text : Source}
    (terminated : ∀ piece ∈ pieces text, piece.isTerminated = true)
    (closed : endsInComment text = false)
    (behind : Source) :
    pieces (text ++ lineBreak :: behind) =
      pieces text ++ .token .newline "\n" [lineBreak] :: pieces behind := by
  rw [endsInComment, ← funext Piece.isCommentBefore_lineBreak] at closed
  rw [pieces_append_cons Piece.separates_lineBreak terminated closed, pieces_lineBreak_cons]

end Lexer

/-! ## White space -/

theorem ne_of_isWhiteSpace
    {c other : Char}
    (white : isWhiteSpace c = true)
    (visible : isWhiteSpace other = false) :
    c ≠ other := by
  rintro rfl
  cases white.symm.trans visible

/-- The visible characters among the first 128 are not white space. -/
theorem toNat_of_isWhiteSpace
    {c : Char}
    (white : isWhiteSpace c = true) :
    c.toNat ≤ 0x20 ∨ 0x7F < c.toNat := by
  simp only [isWhiteSpace, Bool.or_eq_true, Bool.and_eq_true, decide_eq_true_eq] at white
  omega

/-- White space does not lie between two visible characters of the first 128. -/
theorem not_between_of_isWhiteSpace
    {low high c : Char}
    (white : isWhiteSpace c = true)
    (above : 0x20 < low.toNat)
    (below : high.toNat ≤ 0x7F) :
    (low ≤ c && c ≤ high) = false := by
  rw [← Bool.not_eq_true, Bool.and_eq_true, decide_eq_true_eq, decide_eq_true_eq]
  rintro ⟨lower, upper⟩
  have aboveLow : low.toNat ≤ c.toNat := lower
  have belowHigh : c.toNat ≤ high.toNat := upper
  have code := toNat_of_isWhiteSpace white
  omega

/-- White space is no letter. -/
theorem isLetter_of_isWhiteSpace
    {c : Char}
    (white : isWhiteSpace c = true) :
    isLetter c = false := by
  have noAccent : accentedLetters.contains c = false := by
    have visible : accentedLetters.all (!isWhiteSpace ·) = true := by
      decide
    rw [← Bool.not_eq_true, List.contains_iff_mem]
    intro member
    have noSpace := List.all_eq_true.mp visible c member
    rw [white] at noSpace
    cases noSpace
  rw [isLetter, not_between_of_isWhiteSpace white (by decide) (by decide),
    not_between_of_isWhiteSpace white (by decide) (by decide),
    decide_eq_false (ne_of_isWhiteSpace white (by decide)), noAccent]
  rfl

/-- White space starts no operator but the line break. -/
theorem operator?_of_isWhiteSpace
    {c : Char}
    (white : isWhiteSpace c = true)
    (noBreak : c ≠ '\n')
    (next : Option Char) :
    operator? c next = none := by
  unfold operator?
  split
  all_goals first
    | rfl
    | exact (noBreak rfl).elim
    | exact absurd white (by decide)

/-- White space is a line break or no token. -/
theorem Piece.cut_of_isWhiteSpace
    {first : Rune}
    (white : isWhiteSpace first.toChar = true)
    (rest : Source) :
    (cut first rest).1 = .token .newline "\n" [lineBreak] ∨
      ∃ more, (cut first rest).1 = .trivia (first :: more) := by
  by_cases isBreak : first.toChar = '\n'
  · cases toChar_eq_lineBreak.mp isBreak
    exact .inl rfl
  · right
    have noDigit : isDigit first.toChar = false :=
      not_between_of_isWhiteSpace white (by decide) (by decide)
    have noQuote : (first.toChar = '"' || first.toChar = '\'') = false := by
      rw [decide_eq_false (ne_of_isWhiteSpace white (by decide)),
        decide_eq_false (ne_of_isWhiteSpace white (by decide))]
      rfl
    have noSlash : first.toChar ≠ '/' := ne_of_isWhiteSpace white (by decide)
    unfold cut
    simp only [operator?_of_isWhiteSpace white isBreak, noQuote, noDigit, if_neg noSlash,
      isLetter_of_isWhiteSpace white]
    split
    · next impossible => cases impossible
    split
    · exact ⟨_, rfl⟩
    · exact ⟨[], by simp⟩

namespace Lexer

/-- The pieces of white space are line breaks and skipped runes that start no comment. -/
theorem pieces_of_isWhiteSpace
    {text : Source}
    (white : ∀ rune ∈ text, isWhiteSpace rune.toChar = true) :
    ∀ piece ∈ pieces text, piece = .token .newline "\n" [lineBreak] ∨
      ∃ first more, piece = .trivia (first :: more) ∧ first.toChar ≠ '/' := by
  fun_induction pieces text with
  | case1 =>
      simp
  | case2 first rest inductionHypothesis =>
      have isFirst := white first List.mem_cons_self
      refine List.forall_mem_cons.mpr ⟨?_, inductionHypothesis fun rune member => ?_⟩
      · refine (Piece.cut_of_isWhiteSpace isFirst rest).imp_right ?_
        rintro ⟨more, found⟩
        exact ⟨first, more, found, ne_of_isWhiteSpace isFirst (by decide)⟩
      · refine white rune ?_
        rw [← Piece.text_cut first rest]
        exact List.mem_append_right _ member

end Lexer

end FrenchNim
