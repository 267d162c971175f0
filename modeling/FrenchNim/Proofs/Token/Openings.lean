import FrenchNim.Proofs.Token.Written

namespace FrenchNim

/-!
# What a text ends inside of

At its end a text stands inside of a string, inside of a block comment, or inside of
neither. A line break changes nothing about that, and what closes the string or the
comment closes it behind the line break. What was read before stays as it is.
-/

namespace Piece

/-! ## Strings -/

/-- A string that is still open behind a line break is closed by its quote. -/
theorem cutString_open
    {quote : Char}
    (isQuote : quote = '"' ∨ quote = '\'')
    (value : List Char)
    (covered rest : Source)
    (isOpen : (cutString quote value covered rest).1.isTerminated = false) :
    (∃ whole, cutString quote value covered (rest ++ [lineBreak]) = (.unterminated whole, [])) ∧
      ∀ more, ∃ literal whole,
        cutString quote value covered (rest ++ lineBreak :: .char quote :: more) =
          (.token .string literal whole, more) := by
  have noBreak : (lineBreak : Rune).toChar ≠ quote := by
    rcases isQuote with rfl | rfl <;> decide
  have noBackslash : (lineBreak : Rune).toChar ≠ '\\' := by
    decide
  have closed : (Rune.char quote).toChar = quote :=
    rfl
  fun_induction cutString quote value covered rest with
  | case1 value covered =>
      refine ⟨⟨_, cutString_plain value covered [] noBreak noBackslash⟩, fun more => ?_⟩
      rw [List.nil_append, cutString_plain value covered _ noBreak noBackslash,
        cutString_closed _ _ more closed]
      exact ⟨_, _, rfl⟩
  | case2 => cases isOpen
  | case3 value covered rune noQuote escapes =>
      refine ⟨⟨_, cutString_escaped value covered [] noQuote escapes lineBreak⟩, fun more => ?_⟩
      rw [List.singleton_append, cutString_escaped value covered _ noQuote escapes,
        cutString_closed _ _ more closed]
      exact ⟨_, _, rfl⟩
  | case4 value covered rune noQuote escapes escaped rest inductionHypothesis =>
      have step : ∀ behind : Source,
          cutString quote value covered (rune :: escaped :: rest ++ behind) =
            cutString quote (unescape escaped.toChar :: value) (escaped :: rune :: covered)
              (rest ++ behind) :=
        fun behind => cutString_escaped value covered (rest ++ behind) noQuote escapes escaped
      simp only [step]
      exact inductionHypothesis isOpen
  | case5 value covered rune rest noQuote plain inductionHypothesis =>
      have step : ∀ behind : Source,
          cutString quote value covered (rune :: rest ++ behind) =
            cutString quote (rune.toChar :: value) (rune :: covered) (rest ++ behind) :=
        fun behind => cutString_plain value covered (rest ++ behind) noQuote plain
      simp only [step]
      exact inductionHypothesis isOpen

/-- A quote starts a string. -/
theorem cut_quote
    {first : Rune}
    {quote : Char}
    (isQuote : quote = '"' ∨ quote = '\'')
    (isFirst : first.toChar = quote)
    (behind : Source) :
    cut first behind = cutString quote [] [first] behind := by
  unfold cut
  rw [isFirst]
  rcases isQuote with rfl | rfl
  · rfl
  · rfl

/-- What a slash starts is skipped. -/
theorem isTerminated_cutSlash (slash : Rune) (rest : Source) :
    (cutSlash slash rest).1.isTerminated = true := by
  unfold cutSlash
  split
  · rfl
  · next second more =>
      split
      · rfl
      split
      · obtain ⟨body, found⟩ := exists_text_of_cutBlockComment [second, slash] more
        rw [found]
        rfl
      · rfl

theorem isTerminated_cutNumber (first : Rune) (rest : Source) :
    (cutNumber first rest).1.isTerminated = true := by
  unfold cutNumber
  split
  · split <;> rfl
  · rfl

/-- Only a quote starts a string. -/
theorem exists_quote_of_cut
    {first : Rune}
    {rest : Source}
    (isOpen : (cut first rest).1.isTerminated = false) :
    ∃ quote, (quote = '"' ∨ quote = '\'') ∧ first.toChar = quote := by
  by_cases isQuote : (first.toChar = '"' || first.toChar = '\'') = true
  · exact ⟨_, by simpa using isQuote, rfl⟩
  exfalso
  rw [← Bool.not_eq_true] at isOpen
  apply isOpen
  unfold cut
  split
  · rfl
  · rfl
  rw [if_neg isQuote]
  split
  · exact isTerminated_cutSlash first rest
  split
  · rfl
  split
  · rfl
  split
  · exact isTerminated_cutNumber first rest
  · rfl

/-! ## Block comments -/

/-- A comment that is still open behind a line break is closed by its end. -/
theorem cutBlockComment_open
    (covered rest : Source)
    (isAll : (cutBlockComment covered rest).2 = [])
    (isOpen : ¬['*', '/'] <:+ rest.map Rune.toChar) :
    (∃ whole, cutBlockComment covered (rest ++ [lineBreak]) = (.trivia whole, [])) ∧
      ∀ more, ∃ whole,
        cutBlockComment covered (rest ++ lineBreak :: .char '*' :: .char '/' :: more) =
          (.trivia whole, more) := by
  have ended : ∀ covered more, ∃ whole,
      cutBlockComment covered (lineBreak :: .char '*' :: .char '/' :: more) =
        (.trivia whole, more) := by
    intro covered more
    rw [cutBlockComment, if_neg (by decide), cutBlockComment, if_pos (by decide)]
    exact ⟨_, rfl⟩
  fun_induction cutBlockComment covered rest with
  | case1 covered => exact ⟨⟨_, rfl⟩, ended covered⟩
  | case2 covered star slash rest closed =>
      cases isAll
      rw [Bool.and_eq_true, decide_eq_true_eq, decide_eq_true_eq] at closed
      exact (isOpen ⟨[], by simp [closed.1, closed.2]⟩).elim
  | case3 covered star slash rest notClosed inductionHypothesis =>
      have step : ∀ behind : Source,
          cutBlockComment covered (star :: slash :: rest ++ behind) =
            cutBlockComment (star :: covered) (slash :: rest ++ behind) := by
        intro behind
        rw [List.cons_append, List.cons_append, cutBlockComment, if_neg notClosed]
      simp only [step]
      refine inductionHypothesis isAll fun isSuffix => isOpen ?_
      exact isSuffix.trans (List.suffix_cons _ _)
  | case4 covered last =>
      have notClosed : ¬(last.toChar = '*' && lineBreak.toChar = '/') = true := by
        simp
      have step : ∀ behind : Source,
          cutBlockComment covered ([last] ++ lineBreak :: behind) =
            cutBlockComment (last :: covered) (lineBreak :: behind) := by
        intro behind
        rw [List.singleton_append, cutBlockComment, if_neg notClosed]
      simp only [step]
      exact ⟨⟨_, rfl⟩, ended _⟩

/-- A slash and a star start a comment. -/
theorem cut_comment
    {slash star : Rune}
    (isSlash : slash.toChar = '/')
    (isStar : star.toChar = '*')
    (behind : Source) :
    cut slash (star :: behind) = cutBlockComment [star, slash] behind := by
  unfold cut
  rw [isSlash]
  change cutSlash slash (star :: behind) = _
  unfold cutSlash
  simp only [isStar]
  rfl

/-- An open comment takes the whole text, which does not end like a comment. -/
theorem exists_of_isOpenComment
    {first : Rune}
    {rest : Source}
    (isOpen : (cut first rest).1.isOpenComment = true)
    (isAll : (cut first rest).2 = []) :
    ∃ star body, rest = star :: body ∧ first.toChar = '/' ∧ star.toChar = '*' ∧
      ¬['*', '/'] <:+ body.map Rune.toChar := by
  have whole := text_cut first rest
  rw [isAll, List.append_nil] at whole
  unfold isOpenComment at isOpen
  split at isOpen
  · next slash star body shape =>
      rw [shape, text, List.cons.injEq] at whole
      obtain ⟨rfl, rfl⟩ := whole
      simp only [Bool.and_eq_true, decide_eq_true_eq, Bool.not_eq_true', ← Bool.not_eq_true,
        List.isPrefixOf_iff_prefix] at isOpen
      obtain ⟨⟨isSlash, isStar⟩, noEnd⟩ := isOpen
      refine ⟨star, body, rfl, isSlash, isStar, fun isSuffix => noEnd ?_⟩
      rw [List.map_reverse]
      exact List.reverse_prefix.mpr isSuffix
  · cases isOpen

/-- The kind of the token that the piece is, or would be if it ended. -/
def kind? : Piece → Option TokenKind
  | trivia _ => none
  | token kind _ _ => some kind
  | unterminated _ => some .string

end Piece

/-! ## Closing what is open -/

namespace Lexer

/-- The kinds of the tokens of a text, where a string without an end counts as one. -/
def kindsOf (text : Source) : List TokenKind :=
  (pieces text).filterMap Piece.kind?

/-- All strings of the text end. -/
def HasStringEnds (text : Source) : Prop :=
  ∀ piece ∈ pieces text, piece.isTerminated = true

/--
The closing ends the string or the comment that the text and a line break end in,
and behind it the scanner starts anew.
-/
structure IsClosedBy (text closing : Source) : Prop where
  /-- Whatever follows the line break, the tokens in front of it stay as they are. -/
  kept : ∀ more, kindsOf (text ++ [lineBreak]) <+: kindsOf (text ++ lineBreak :: more)
  closed : ∀ more, kindsOf (text ++ lineBreak :: (closing ++ more)) =
    kindsOf (text ++ [lineBreak]) ++ kindsOf more
  terminated : ∀ more, HasStringEnds more →
    HasStringEnds (text ++ lineBreak :: (closing ++ more))

/-- What closes a text, if nothing in it or a string or a comment is open. -/
def closings : List (List Char) :=
  [[], ['"'], ['\''], ['*', '/']]

@[simp] theorem kindsOf_nil : kindsOf [] = [] := by
  rw [kindsOf, pieces_nil, List.filterMap_nil]

@[simp] theorem kindsOf_lineBreak (behind : Source) :
    kindsOf (lineBreak :: behind) = .newline :: kindsOf behind := by
  unfold kindsOf
  rw [pieces_lineBreak_cons]
  rfl

theorem kindsOf_cons (first : Rune) (rest : Source) :
    kindsOf (first :: rest) =
      (Piece.cut first rest).1.kind?.toList ++ kindsOf (Piece.cut first rest).2 := by
  unfold kindsOf
  rw [pieces_cons, List.filterMap_cons]
  cases (Piece.cut first rest).1.kind? <;> rfl

theorem hasStringEnds_cons
    {first : Rune}
    {rest : Source}
    (here : (Piece.cut first rest).1.isTerminated = true)
    (later : HasStringEnds (Piece.cut first rest).2) :
    HasStringEnds (first :: rest) := by
  unfold HasStringEnds
  rw [pieces_cons]
  exact List.forall_mem_cons.mpr ⟨here, later⟩

section

variable {first : Rune} {rest closing : Source}

/-- A piece that ends in front of the line break opens nothing. -/
theorem IsClosedBy.cons
    (ends : Piece.EndsBefore (Piece.cut first) rest)
    (terminated : (Piece.cut first rest).1.isTerminated = true)
    (isClosed : IsClosedBy (Piece.cut first rest).2 closing) :
    IsClosedBy (first :: rest) closing := by
  have kinds : ∀ behind, kindsOf (first :: rest ++ lineBreak :: behind) =
      (Piece.cut first rest).1.kind?.toList ++
        kindsOf ((Piece.cut first rest).2 ++ lineBreak :: behind) := by
    intro behind
    rw [List.cons_append, kindsOf_cons, ends behind]
  refine ⟨fun more => ?_, fun more => ?_, fun more isMore => ?_⟩
  · rw [kinds, kinds, List.prefix_append_right_inj]
    exact isClosed.kept more
  · rw [kinds, kinds, isClosed.closed, List.append_assoc]
  · refine hasStringEnds_cons ?_ ?_
    · rw [List.append_eq, ends]
      exact terminated
    · rw [List.append_eq, ends]
      exact isClosed.terminated more isMore

/-- A piece that takes the line break, too, ends with the closing behind it. -/
theorem isClosedBy_of_open
    (kind : Option TokenKind)
    (same : ∀ behind, (Piece.cut first (rest ++ lineBreak :: behind)).1.kind? = kind)
    (taken : (Piece.cut first (rest ++ [lineBreak])).2 = [])
    (closed : ∀ more, ∃ piece, piece.isTerminated = true ∧
      Piece.cut first (rest ++ lineBreak :: (closing ++ more)) = (piece, more)) :
    IsClosedBy (first :: rest) closing := by
  have kinds : ∀ behind, kindsOf (first :: rest ++ lineBreak :: behind) =
      kind.toList ++ kindsOf (Piece.cut first (rest ++ lineBreak :: behind)).2 := by
    intro behind
    rw [List.cons_append, kindsOf_cons, same behind]
  have whole : kindsOf (first :: rest ++ [lineBreak]) = kind.toList := by
    rw [kinds, taken, kindsOf_nil, List.append_nil]
  refine ⟨fun more => ?_, fun more => ?_, fun more isMore => ?_⟩
  · rw [whole, kinds]
    exact List.prefix_append _ _
  · obtain ⟨piece, -, isCut⟩ := closed more
    rw [whole, kinds, isCut]
  · obtain ⟨piece, terminated, isCut⟩ := closed more
    refine hasStringEnds_cons ?_ ?_
    · rw [List.append_eq, isCut]
      exact terminated
    · rw [List.append_eq, isCut]
      exact isMore

/-- A string is closed by its quote. -/
theorem isClosedBy_of_string
    {quote : Char}
    (isQuote : quote = '"' ∨ quote = '\'')
    (isFirst : first.toChar = quote)
    (isOpen : (Piece.cut first rest).1.isTerminated = false) :
    IsClosedBy (first :: rest) [.char quote] := by
  have isCut := Piece.cut_quote isQuote isFirst
  rw [isCut] at isOpen
  obtain ⟨⟨whole, taken⟩, closed⟩ := Piece.cutString_open isQuote [] [first] rest isOpen
  refine isClosedBy_of_open (some .string) (fun behind => ?_) ?_ fun more => ?_
  · rw [isCut]
    obtain ⟨literal, text, left, found⟩ | ⟨text, left, found⟩ :=
      Piece.cutString_string quote [] [first] (rest ++ lineBreak :: behind)
    · rw [found]
      rfl
    · rw [found]
      rfl
  · rw [isCut, taken]
  · obtain ⟨literal, text, found⟩ := closed more
    exact ⟨_, rfl, (isCut _).trans found⟩

/-- A comment is closed by a star and a slash. -/
theorem isClosedBy_of_comment
    (isOpen : (Piece.cut first rest).1.isOpenComment = true)
    (isAll : (Piece.cut first rest).2 = []) :
    IsClosedBy (first :: rest) [.char '*', .char '/'] := by
  obtain ⟨star, body, rfl, isSlash, isStar, noEnd⟩ := Piece.exists_of_isOpenComment isOpen isAll
  have isCut := Piece.cut_comment isSlash isStar
  rw [isCut] at isAll
  obtain ⟨⟨whole, taken⟩, closed⟩ := Piece.cutBlockComment_open _ body isAll noEnd
  refine isClosedBy_of_open none (fun behind => ?_) ?_ fun more => ?_
  · obtain ⟨text, found⟩ :=
      Piece.exists_text_of_cutBlockComment [star, first] (body ++ lineBreak :: behind)
    rw [List.cons_append, isCut, found]
    rfl
  · rw [List.cons_append, isCut, taken]
  · obtain ⟨text, found⟩ := closed more
    exact ⟨_, rfl, (isCut _).trans found⟩

end

/-- A text that ends in front of the line break needs no closing. -/
theorem isClosedBy_nil : IsClosedBy [] [] := by
  refine ⟨fun more => ?_, fun more => ?_, fun more isMore => ?_⟩
  · simp
  · simp
  · unfold HasStringEnds
    rw [List.nil_append, pieces_lineBreak_cons]
    exact List.forall_mem_cons.mpr ⟨rfl, isMore⟩

/-- Behind a line break every text is closed by a quote, by the end of a comment, or by nothing. -/
theorem exists_closing (text : Source) :
    ∃ closing ∈ closings, IsClosedBy text (closing.map .char) := by
  fun_induction pieces text with
  | case1 => exact ⟨[], by decide, isClosedBy_nil⟩
  | case2 first rest inductionHypothesis =>
      cases terminated : (Piece.cut first rest).1.isTerminated with
      | false =>
          obtain ⟨quote, isQuote, isFirst⟩ := Piece.exists_quote_of_cut terminated
          refine ⟨[quote], ?_, isClosedBy_of_string isQuote isFirst terminated⟩
          rcases isQuote with rfl | rfl
          · decide
          · decide
      | true =>
          rcases Piece.cut_endsBefore terminated with ends | ⟨isOpen, isAll⟩
          · obtain ⟨closing, member, isClosed⟩ := inductionHypothesis
            exact ⟨closing, member, isClosed.cons ends terminated⟩
          · exact ⟨['*', '/'], by decide, isClosedBy_of_comment isOpen isAll⟩

end Lexer

end FrenchNim
