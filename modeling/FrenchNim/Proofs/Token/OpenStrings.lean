import FrenchNim.Proofs.Token.Escapes
import FrenchNim.Proofs.Token.Limit
import FrenchNim.Proofs.Token.Openings

namespace FrenchNim

/-!
# Strings without an end

A string lasts up to the first of its quotes that is not escaped. Without such a
quote it takes the rest of the text and the text has no tokens. So the error is
about a quote behind a text that has tokens, and outside of all comments, since
a quote goes on with nothing else that the text in front of it could end with.
-/

namespace Piece

/-! ## What takes in the rune behind it -/

/-- A string without an end takes the rest of the text. -/
theorem exists_of_not_isTerminated
    {quote : Char}
    {value : List Char}
    {covered rest : Source}
    (isOpen : (cutString quote value covered rest).1.isTerminated = false) :
    ∃ whole, cutString quote value covered rest = (.unterminated whole, []) := by
  fun_induction cutString quote value covered rest with
  | case1 => exact ⟨_, rfl⟩
  | case2 => cases isOpen
  | case3 => exact ⟨_, rfl⟩
  | case4 value covered rune noQuote escapes escaped rest inductionHypothesis =>
      exact inductionHypothesis isOpen
  | case5 value covered rune rest noQuote plain inductionHypothesis =>
      exact inductionHypothesis isOpen

theorem length_cutString_cons_le
    (quote : Char)
    (value : List Char)
    (covered : Source)
    (next : Rune)
    (behind : Source) :
    (cutString quote value covered (next :: behind)).2.length ≤ behind.length := by
  by_cases isQuote : next.toChar = quote
  · rw [cutString_closed value covered behind isQuote]
  by_cases escapes : next.toChar = '\\'
  · cases behind with
    | nil =>
        rw [cutString.eq_def]
        simp only [if_neg isQuote, if_pos escapes, List.length_nil, Nat.le_refl]
    | cons escaped behind =>
        rw [cutString_escaped value covered behind isQuote escapes]
        exact (length_cutString_le _ _ _ behind).trans (Nat.le_succ _)
  · rw [cutString_plain value covered behind isQuote escapes]
    exact length_cutString_le _ _ _ behind

/-- A string without an end takes in what follows. -/
theorem cutString_takes
    {quote : Char}
    {value : List Char}
    {covered rest : Source}
    (isOpen : (cutString quote value covered rest).1.isTerminated = false)
    (next : Rune)
    (behind : Source) :
    (cutString quote value covered (rest ++ next :: behind)).2.length ≤ behind.length := by
  fun_induction cutString quote value covered rest with
  | case1 value covered => exact length_cutString_cons_le quote value covered next behind
  | case2 => cases isOpen
  | case3 value covered rune noQuote escapes =>
      rw [List.singleton_append, cutString_escaped value covered behind noQuote escapes]
      exact length_cutString_le _ _ _ behind
  | case4 value covered rune noQuote escapes escaped rest inductionHypothesis =>
      rw [List.cons_append, List.cons_append,
        cutString_escaped value covered _ noQuote escapes]
      exact inductionHypothesis isOpen
  | case5 value covered rune rest noQuote plain inductionHypothesis =>
      rw [List.cons_append, cutString_plain value covered _ noQuote plain]
      exact inductionHypothesis isOpen

/-- A block comment without an end takes in what follows. -/
theorem cutBlockComment_takes
    {covered rest : Source}
    (isAll : (cutBlockComment covered rest).2 = [])
    (isOpen : ¬['*', '/'] <:+ rest.map Rune.toChar)
    (next : Rune)
    (behind : Source) :
    (cutBlockComment covered (rest ++ next :: behind)).2.length ≤ behind.length := by
  fun_induction cutBlockComment covered rest with
  | case1 covered => exact length_cutBlockComment_cons_le covered next behind
  | case2 covered star slash rest closed =>
      cases isAll
      rw [Bool.and_eq_true, decide_eq_true_eq, decide_eq_true_eq] at closed
      exact (isOpen ⟨[], by simp [closed.1, closed.2]⟩).elim
  | case3 covered star slash rest notClosed inductionHypothesis =>
      rw [List.cons_append, List.cons_append, cutBlockComment, if_neg notClosed]
      refine inductionHypothesis isAll fun isSuffix => isOpen ?_
      exact isSuffix.trans (List.suffix_cons _ _)
  | case4 covered last =>
      rw [List.singleton_append, cutBlockComment]
      split
      · exact Nat.le_refl _
      · exact length_cutBlockComment_cons_le (last :: covered) next behind

/-- Two slashes start a comment up to the end of the line. -/
theorem cut_lineComment
    {slash second : Rune}
    (isSlash : slash.toChar = '/')
    (isSecond : second.toChar = '/')
    (behind : Source) :
    cut slash (second :: behind) =
      (.trivia (slash :: second :: run isInLine behind), afterRun isInLine behind) := by
  unfold cut
  rw [isSlash]
  change cutSlash slash (second :: behind) = _
  unfold cutSlash
  simp only [if_pos isSecond]

/-- A line comment that takes the whole text starts with two slashes. -/
theorem exists_of_isLineComment
    {first : Rune}
    {rest : Source}
    (isLine : (cut first rest).1.isLineComment = true)
    (isAll : (cut first rest).2 = []) :
    ∃ second body, rest = second :: body ∧ first.toChar = '/' ∧ second.toChar = '/' := by
  have whole := text_cut first rest
  rw [isAll, List.append_nil] at whole
  unfold isLineComment at isLine
  split at isLine
  · next slash second body shape =>
      rw [shape, text, List.cons.injEq] at whole
      obtain ⟨rfl, rfl⟩ := whole
      rw [Bool.and_eq_true, decide_eq_true_eq, decide_eq_true_eq] at isLine
      exact ⟨second, body, rfl, isLine⟩
  · cases isLine

/-- A comment that goes on with a rune takes it in. -/
theorem cut_takes_of_isCommentBefore
    {next first : Rune}
    {rest : Source}
    (goesOn : (cut first rest).1.isCommentBefore next = true)
    (isAll : (cut first rest).2 = [])
    (behind : Source) :
    (cut first (rest ++ next :: behind)).2.length ≤ behind.length := by
  rw [isCommentBefore, Bool.or_eq_true, Bool.and_eq_true] at goesOn
  rcases goesOn with isOpen | ⟨isLine, inLine⟩
  · obtain ⟨star, body, rfl, isSlash, isStar, noEnd⟩ := exists_of_isOpenComment isOpen isAll
    rw [cut_comment isSlash isStar] at isAll
    rw [List.cons_append, cut_comment isSlash isStar]
    exact cutBlockComment_takes isAll noEnd next behind
  · obtain ⟨second, body, rfl, isSlash, isSecond⟩ := exists_of_isLineComment isLine isAll
    rw [cut_lineComment isSlash isSecond] at isAll
    rw [List.cons_append, cut_lineComment isSlash isSecond]
    have passed : afterRun isInLine (body ++ next :: behind) = afterRun isInLine behind := by
      change List.dropWhile _ body = [] at isAll
      rw [afterRun, List.dropWhile_append, isAll, List.isEmpty_nil, if_pos rfl,
        List.dropWhile_cons, if_pos inLine]
      rfl
    rw [passed]
    exact (List.dropWhile_suffix _).length_le

/-- A string without an end takes in any rune. -/
theorem cut_takes_of_not_isTerminated
    {first : Rune}
    {rest : Source}
    (isOpen : (cut first rest).1.isTerminated = false)
    (next : Rune)
    (behind : Source) :
    (cut first (rest ++ next :: behind)).2.length ≤ behind.length := by
  obtain ⟨quote, isQuote, isFirst⟩ := exists_quote_of_cut isOpen
  rw [cut_quote isQuote isFirst] at isOpen ⊢
  exact cutString_takes isOpen next behind

end Piece

namespace Lexer

/-! ## The pieces in front of a separator -/

/--
Pieces that end in front of a separator are the pieces of the text there, and that text ends
outside of strings and comments.
-/
theorem pieces_of_append_cons
    {stop : Rune}
    (separates : Piece.Separates stop)
    {behind : Source} :
    ∀ {before after : List Piece} {front : Source},
      pieces (front ++ stop :: behind) = before ++ after →
      before.flatMap Piece.text = front →
      pieces front = before ∧ (∀ piece ∈ before, piece.isTerminated = true) ∧
        before.getLast?.any (Piece.isCommentBefore stop) = false
  | [], _, _, _, covered => by
      cases covered
      exact ⟨pieces_nil, by simp, rfl⟩
  | piece :: before, after, [], found, covered => by
      rw [List.nil_append, pieces_cons, List.cons_append] at found
      have nonempty := Piece.cut_text_ne_nil stop behind
      rw [(List.cons.inj found).1] at nonempty
      exact (nonempty (List.append_eq_nil_iff.mp covered).1).elim
  | piece :: before, after, first :: rest, found, covered => by
      rw [List.cons_append, pieces_cons, List.cons_append] at found
      obtain ⟨isPiece, later⟩ := List.cons.inj found
      -- What is left behind the piece is at least the separator and what follows it.
      have whole := Piece.text_cut first (rest ++ stop :: behind)
      rw [isPiece, ← List.cons_append, ← covered, List.flatMap_cons, List.append_assoc] at whole
      have left := List.append_cancel_left whole
      have notTaken : ¬(Piece.cut first (rest ++ stop :: behind)).2.length ≤ behind.length := by
        rw [left, List.length_append, List.length_cons]
        omega
      have terminated : (Piece.cut first rest).1.isTerminated = true := by
        by_contra isOpen
        rw [Bool.not_eq_true] at isOpen
        exact notTaken (Piece.cut_takes_of_not_isTerminated isOpen stop behind)
      rcases Piece.cut_endsAt separates terminated with ends | ⟨goesOn, isAll⟩
      · rw [ends behind] at isPiece later left
        obtain ⟨same, othersTerminated, closed⟩ :=
          pieces_of_append_cons separates later (List.append_cancel_right left).symm
        cases isPiece
        refine ⟨by rw [pieces_cons, same],
          List.forall_mem_cons.mpr ⟨terminated, othersTerminated⟩, ?_⟩
        cases before with
        | nil =>
            rw [List.getLast?_singleton, Option.any_some, Bool.eq_false_iff]
            intro goesOn
            have isAll : (Piece.cut first rest).2 = [] := (List.append_cancel_right left)
            exact notTaken (Piece.cut_takes_of_isCommentBefore goesOn isAll behind)
        | cons next others => rwa [List.getLast?_cons_cons]
      · exact (notTaken (Piece.cut_takes_of_isCommentBefore goesOn isAll behind)).elim

/-- The text ends inside of a comment, of a line or of a block. -/
def endsInsideComment (text : Source) : Bool :=
  (pieces text).getLast?.any fun piece => piece.isOpenComment || piece.isLineComment

/-! ## Where the scanner finds a string without an end -/

/-- A string without an end is the last piece. -/
theorem pieces_of_not_isTerminated
    {first : Rune}
    {rest : Source}
    (isOpen : (Piece.cut first rest).1.isTerminated = false) :
    pieces (first :: rest) = [(Piece.cut first rest).1] ∧
      (Piece.cut first rest).1 = .unterminated (first :: rest) := by
  have whole := Piece.text_cut first rest
  obtain ⟨quote, isQuote, isFirst⟩ := Piece.exists_quote_of_cut isOpen
  rw [Piece.cut_quote isQuote isFirst] at isOpen
  obtain ⟨text, isCut⟩ := Piece.exists_of_not_isTerminated isOpen
  rw [pieces_cons]
  rw [Piece.cut_quote isQuote isFirst, isCut] at whole ⊢
  rw [List.append_nil] at whole
  exact ⟨by rw [pieces_nil], congrArg _ whole⟩

/-- All pieces of a text end, or all but the last, which is a string. -/
theorem terminated_or_exists_unterminated (text : Source) :
    (∀ piece ∈ pieces text, piece.isTerminated = true) ∨
      ∃ before last, pieces text = before ++ [Piece.unterminated last] ∧
        ∀ piece ∈ before, piece.isTerminated = true := by
  fun_induction pieces text with
  | case1 => exact .inl (by simp)
  | case2 first rest inductionHypothesis =>
      rw [← pieces_cons]
      cases terminated : (Piece.cut first rest).1.isTerminated with
      | false =>
          obtain ⟨sole, isAll⟩ := pieces_of_not_isTerminated terminated
          exact .inr ⟨[], first :: rest, by rw [sole, isAll, List.nil_append], by simp⟩
      | true =>
          rw [pieces_cons]
          refine inductionHypothesis.imp (fun all => List.forall_mem_cons.mpr ⟨terminated, all⟩) ?_
          rintro ⟨before, last, found, all⟩
          exact ⟨_ :: before, last, by rw [found, List.cons_append],
            List.forall_mem_cons.mpr ⟨terminated, all⟩⟩

/-- The scanner without a limit stops at a string without an end. -/
theorem scanUnlimited_of_pieces
    {position : Position}
    {read : List Token}
    {text : Source}
    {before : List Piece}
    {last : Source}
    (found : pieces text = before ++ [Piece.unterminated last])
    (terminated : ∀ piece ∈ before, piece.isTerminated = true) :
    (scanUnlimited position read text).result =
      .error (.unterminatedString (position.after (before.flatMap Piece.text))
        (position.after text).line) := by
  -- The induction is on the pieces in front of the string, which the scan leaves behind.
  induction before generalizing position read text with
  | nil =>
      cases text with
      | nil =>
          rw [pieces_nil] at found
          cases found
      | cons first rest =>
          rw [pieces_cons] at found
          have isCut := (List.cons.inj found).1
          have isOpen : (Piece.cut first rest).1.isTerminated = false := by
            rw [isCut]
            rfl
          rw [(pieces_of_not_isTerminated isOpen).2] at isCut
          cases isCut
          have shape : Piece.cut first rest =
              (.unterminated (first :: rest), (Piece.cut first rest).2) :=
            Prod.ext (pieces_of_not_isTerminated isOpen).2 rfl
          rw [scanUnlimited_unterminated position read shape, List.flatMap_nil, Position.after_nil]
  | cons piece before inductionHypothesis =>
      cases text with
      | nil =>
          rw [pieces_nil] at found
          cases found
      | cons first rest =>
          obtain ⟨here, others⟩ := List.forall_mem_cons.mp terminated
          rw [pieces_cons] at found
          obtain ⟨isCut, later⟩ := List.cons.inj found
          have whole := Piece.text_cut first rest
          have shape : Piece.cut first rest = (piece, (Piece.cut first rest).2) :=
            Prod.ext isCut rfl
          rw [isCut] at whole
          rw [← whole, List.flatMap_cons, Position.after_append, Position.after_append, whole]
          cases piece with
          | trivia text =>
              rw [scanUnlimited_trivia position read shape]
              exact inductionHypothesis later others
          | token kind literal text =>
              rw [scanUnlimited_token position read shape]
              exact inductionHypothesis later others
          | unterminated text => cases here

/-- A text has no tokens because of a string without an end, if few pieces in front of it do. -/
theorem lexWithin_eq_unterminatedString
    {limit : Nat}
    {text : Source}
    {place : Position}
    {line : Int} :
    lexWithin limit text = .error (.unterminatedString place line) ↔
      ∃ before last, pieces text = before ++ [Piece.unterminated last] ∧
        (∀ piece ∈ before, piece.isTerminated = true) ∧
        (tokensAt .start before).length ≤ limit ∧
        place = Position.start.after (before.flatMap Piece.text) ∧
        line = (Position.start.after text).line := by
  have completed : (lexUnlimited text).completed = tokensAt .start (pieces text) := by
    rw [lexUnlimited, completed_scanUnlimited, List.reverse_nil, List.nil_append]
  have counted {before : List Piece} {last : Source}
      (found : pieces text = before ++ [Piece.unterminated last])
      (all : ∀ piece ∈ before, piece.isTerminated = true) :
      tokensAt .start (pieces text) = tokensAt .start before := by
    rw [found, tokensAt_append all, tokensAt, List.append_nil]
  constructor
  · intro failed
    have few : (tokensAt .start (pieces text)).length ≤ limit := by
      rw [lexWithin_eq_within, Unlimited.within, completed] at failed
      split at failed
      · cases failed
      · next none => exact List.getElem?_eq_none_iff.mp none
    rcases terminated_or_exists_unterminated text with all | ⟨before, last, found, all⟩
    · rw [lexWithin_eq_ok_iff.mpr ⟨all, few, rfl⟩] at failed
      cases failed
    · rw [lexWithin_eq_within, Unlimited.within_of_le (completed ▸ few), lexUnlimited,
        scanUnlimited_of_pieces found all] at failed
      cases failed
      rw [counted found all] at few
      exact ⟨before, last, found, all, few, rfl, rfl⟩
  · rintro ⟨before, last, found, all, few, rfl, rfl⟩
    rw [← counted found all, ← completed] at few
    rw [lexWithin_eq_within, Unlimited.within_of_le few]
    exact scanUnlimited_of_pieces found all

end Lexer

/-! ## Where a string without an end starts -/

namespace IsQuoteByte

/-- The character of a quote. -/
theorem isQuote {byte : UInt8} (isByte : IsQuoteByte byte) :
    Char.ofNat byte.toNat = '"' ∨ Char.ofNat byte.toNat = '\'' := by
  rcases isByte with rfl | rfl
  · exact .inl rfl
  · exact .inr rfl

theorem exists_of_isQuote {quote : Char} (isQuote : quote = '"' ∨ quote = '\'') :
    ∃ byte, IsQuoteByte byte ∧ Char.ofNat byte.toNat = quote := by
  rcases isQuote with rfl | rfl
  · exact ⟨0x22, .inl rfl, rfl⟩
  · exact ⟨0x27, .inr rfl, rfl⟩

end IsQuoteByte

namespace Piece

section

variable {quote : Char} (isQuote : quote = '"' ∨ quote = '\'')

include isQuote

theorem separates_quote : Separates (.char quote) where
  blank := by rcases isQuote with rfl | rfl <;> decide
  word := by rcases isQuote with rfl | rfl <;> decide
  operator c := by
    unfold operator?
    rcases isQuote with rfl | rfl <;> split <;> rfl
  fraction := by rcases isQuote with rfl | rfl <;> decide
  comment := by rcases isQuote with rfl | rfl <;> decide

/-- Comments of both kinds go on with a quote. -/
theorem isCommentBefore_quote :
    isCommentBefore (.char quote) = fun piece => piece.isOpenComment || piece.isLineComment := by
  have inLine : isInLine (Rune.char quote).toChar = true := by
    rcases isQuote with rfl | rfl <;> decide
  funext piece
  rw [isCommentBefore, inLine, Bool.and_true]

/-- A quote starts a string without an end if all quotes of its kind behind it are escaped. -/
theorem isTerminated_cut_quote (rest : Source) :
    (cut (.char quote) rest).1.isTerminated = false ↔ rest.QuotesEscaped quote := by
  rw [cut_quote isQuote rfl, isTerminated_cutString]

end

end Piece

namespace Lexer

section

variable {input front behind : Bytes} {quote : UInt8}

/-- The text in front of a string without an end is read to its end, outside of comments. -/
theorem exists_bytes_of_unterminated
    {before : List Piece}
    {last : Source}
    (found : pieces (.ofBytes input) = before ++ [Piece.unterminated last]) :
    ∃ front quote behind, input = front ++ quote :: behind ∧ IsQuoteByte quote ∧
      pieces (.ofBytes front) = before ∧ endsInsideComment (.ofBytes front) = false ∧
      QuotesEscaped quote behind := by
  obtain ⟨rest, whole, later⟩ := exists_text_of_pieces found
  cases rest with
  | nil =>
      rw [pieces_nil] at later
      cases later
  | cons first rest =>
      rw [pieces_cons] at later
      have isOpen : (Piece.cut first rest).1.isTerminated = false := by
        rw [(List.cons.inj later).1]
        rfl
      obtain ⟨quote, isQuote, isFirst⟩ := Piece.exists_quote_of_cut isOpen
      cases Rune.eq_char isFirst (by rcases isQuote with rfl | rfl <;> decide)
      obtain ⟨byte, isByte, rfl⟩ := IsQuoteByte.exists_of_isQuote isQuote
      obtain ⟨front, behind, split, isFront, rfl⟩ :=
        Source.exists_bytes_of_ascii isByte.isAscii whole
      rw [whole] at found
      obtain ⟨same, -, closed⟩ :=
        pieces_of_append_cons (Piece.separates_quote isQuote) found rfl
      rw [Piece.isCommentBefore_quote isQuote] at closed
      refine ⟨front, byte, behind, split, isByte, ?_, ?_, ?_⟩
      · rw [isFront, same]
      · rw [endsInsideComment, isFront, same, closed]
      · rw [Piece.isTerminated_cut_quote isQuote, Source.quotesEscaped_ofBytes isByte] at isOpen
        exact isOpen

/-- A quote behind a text that is read to its end starts a string, which is the last piece. -/
theorem pieces_of_quotesEscaped
    (isByte : IsQuoteByte quote)
    (terminated : ∀ piece ∈ pieces (.ofBytes front), piece.isTerminated = true)
    (closed : endsInsideComment (.ofBytes front) = false)
    (escaped : QuotesEscaped quote behind) :
    ∃ last, pieces (.ofBytes (front ++ quote :: behind)) =
      pieces (.ofBytes front) ++ [Piece.unterminated last] := by
  have isQuote := isByte.isQuote
  rw [endsInsideComment, ← Piece.isCommentBefore_quote isQuote] at closed
  rw [← Source.quotesEscaped_ofBytes isByte, ← Piece.isTerminated_cut_quote isQuote] at escaped
  obtain ⟨sole, isAll⟩ := pieces_of_not_isTerminated escaped
  rw [Source.ofBytes_append_ascii isByte.isAscii,
    pieces_append_cons (Piece.separates_quote isQuote) terminated closed, sole, isAll]
  exact ⟨_, rfl⟩

/-- The place behind the first bytes of an input. -/
theorem after_ofBytes_front (isByte : IsQuoteByte quote) :
    Position.start.after (.ofBytes front) =
      .ofOffset (front ++ quote :: behind) front.length := by
  rw [Position.after_eq_ofOffset (Source.ofBytes_append_ascii isByte.isAscii front behind),
    Source.byteSize_ofBytes]

end

/--
A text has no tokens because of a string without an end exactly if the string starts with a quote
behind a text that has tokens and ends outside of comments, and all quotes of its kind behind it
are escaped. The error counts the lines of the whole text.
-/
theorem lex_eq_unterminatedString_iff (input : Bytes) (place : Position) (line : Int) :
    lex (.ofBytes input) = .error (.unterminatedString place line) ↔
      (∃ front quote behind, input = front ++ quote :: behind ∧ IsQuoteByte quote ∧
        place = .ofOffset input front.length ∧
        (∃ tokens, lex (.ofBytes front) = .ok tokens) ∧
        endsInsideComment (.ofBytes front) = false ∧
        QuotesEscaped quote behind) ∧
      line = 1 + input.count lineBreakByte := by
  have lines : (Position.start.after (.ofBytes input)).line = 1 + input.count lineBreakByte := by
    rw [Position.after_ofBytes input .start rfl]
    rfl
  rw [lex, lexWithin_eq_unterminatedString, lines]
  constructor
  · rintro ⟨before, last, found, all, few, rfl, isLine⟩
    obtain ⟨front, quote, behind, rfl, isByte, rfl, closed, escaped⟩ :=
      exists_bytes_of_unterminated found
    refine ⟨⟨front, quote, behind, rfl, isByte, ?_, ?_, closed, escaped⟩, isLine⟩
    · rw [text_pieces, after_ofBytes_front isByte]
    · exact ⟨_, lex_eq_ok_iff.mpr ⟨all, few, rfl⟩⟩
  · rintro ⟨⟨front, quote, behind, rfl, isByte, rfl, ⟨tokens, lexed⟩, closed, escaped⟩, isLine⟩
    obtain ⟨all, few, -⟩ := lex_eq_ok_iff.mp lexed
    obtain ⟨last, found⟩ := pieces_of_quotesEscaped isByte all closed escaped
    refine ⟨_, last, found, all, few, ?_, isLine⟩
    rw [text_pieces, after_ofBytes_front isByte]

/-- An escaped quote, and a letter that is cut off by the end of the text. -/
example :
    lex (.ofBytes [0x2B, 0x0A, 0x22, 0x5C, 0x22, 0x0A, 0xC3]) =
      .error (.unterminatedString ⟨2, 2, 0⟩ 3) := by
  cbv

end Lexer

end FrenchNim
