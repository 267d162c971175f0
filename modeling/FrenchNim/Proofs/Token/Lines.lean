import FrenchNim.Proofs.Text.Decoding
import FrenchNim.Proofs.Token.Lexemes

namespace FrenchNim

/-!
# Pieces before a line break

A piece is cut by looking at its runes and at most two runes behind it. If it
ends before a line break, it does not depend on anything behind that line break.
The same holds for the bytes of a rune. So a text can be continued behind a line
break that is a token without changing the tokens up to there.
-/

@[simp] theorem lineBreak_toChar : lineBreak.toChar = '\n' :=
  rfl

namespace Piece

/--
What a way of cutting makes of a text up to a line break: if it leaves the line
break, it leaves it whatever follows.
-/
def StopsBefore (cutOff : Source → Piece × Source) (front : Source) : Prop :=
  ∀ behind, behind.length < (cutOff (front ++ lineBreak :: behind)).2.length →
    ∃ piece rest, ∀ other,
      cutOff (front ++ lineBreak :: other) = (piece, rest ++ lineBreak :: other)

/-- A run ends in front of a rune that is refused, whatever follows. -/
theorem run_append_cons
    {accept : Char → Bool}
    {stop : Rune}
    (refused : accept stop.toChar = false)
    (front behind : Source) :
    run accept (front ++ stop :: behind) = run accept front := by
  unfold run
  induction front with
  | nil =>
      simp [refused]
  | cons rune rest inductionHypothesis =>
      rw [List.cons_append, List.takeWhile_cons, List.takeWhile_cons, inductionHypothesis]

/-- A run ends before a character that is refused. -/
theorem afterRun_append_cons
    {accept : Char → Bool}
    {stop : Rune}
    (refused : accept stop.toChar = false)
    (front behind : Source) :
    afterRun accept (front ++ stop :: behind) = afterRun accept front ++ stop :: behind := by
  unfold afterRun
  induction front with
  | nil =>
      simp [refused]
  | cons rune rest inductionHypothesis =>
      rw [List.cons_append, List.dropWhile_cons, List.dropWhile_cons]
      split
      · exact inductionHypothesis
      · rfl

/-- A run that refuses line breaks ends before the first one. -/
theorem run_lineBreak
    {accept : Char → Bool}
    (refused : accept '\n' = false)
    (front behind : Source) :
    run accept (front ++ lineBreak :: behind) = run accept front :=
  run_append_cons refused front behind

/-- Behind such a run, the line break is still there. -/
theorem afterRun_lineBreak
    {accept : Char → Bool}
    (refused : accept '\n' = false)
    (front behind : Source) :
    afterRun accept (front ++ lineBreak :: behind) =
      afterRun accept front ++ lineBreak :: behind :=
  afterRun_append_cons refused front behind

/-- Cutting a string leaves no more than there was. -/
theorem length_cutString_le (quote : Char) (value : List Char) (covered rest : Source) :
    (cutString quote value covered rest).2.length ≤ rest.length := by
  fun_induction cutString quote value covered rest <;> simp_all <;> omega

/-- Cutting a comment leaves no more than there was. -/
theorem length_cutBlockComment_le (covered rest : Source) :
    (cutBlockComment covered rest).2.length ≤ rest.length := by
  fun_induction cutBlockComment covered rest <;> simp_all <;> omega

/-- A string that is closed before a line break. -/
theorem cutString_stopsBefore
    {quote : Char}
    (noBreak : quote ≠ '\n') :
    ∀ (front : Source) (value : List Char) (covered : Source),
      StopsBefore (cutString quote value covered) front
  | [], value, covered => by
      intro behind left
      have shorter := length_cutString_le quote ('\n' :: value) (lineBreak :: covered) behind
      rw [List.nil_append, cutString_plain value covered behind
        (show lineBreak.toChar ≠ quote from noBreak.symm) (by decide)] at left
      exact (Nat.not_lt.mpr shorter left).elim
  | rune :: rest, value, covered => by
      intro behind left
      rw [List.cons_append] at left
      by_cases closed : rune.toChar = quote
      · refine ⟨.token .string (String.ofList value.reverse) (rune :: covered).reverse, rest,
          fun other => ?_⟩
        exact cutString_closed value covered _ closed
      by_cases escapes : rune.toChar = '\\'
      · cases rest with
        | nil =>
            have shorter := length_cutString_le quote (unescape '\n' :: value)
              (lineBreak :: rune :: covered) behind
            rw [List.nil_append, cutString_escaped value covered behind closed escapes] at left
            exact (Nat.not_lt.mpr shorter left).elim
        | cons escaped more =>
            rw [List.cons_append, cutString_escaped value covered _ closed escapes] at left
            obtain ⟨piece, rest, stops⟩ := cutString_stopsBefore noBreak more
              (unescape escaped.toChar :: value) (escaped :: rune :: covered) behind left
            refine ⟨piece, rest, fun other => ?_⟩
            rw [List.cons_append, List.cons_append,
              cutString_escaped value covered _ closed escapes]
            exact stops other
      · rw [cutString_plain value covered _ closed escapes] at left
        obtain ⟨piece, rest', stops⟩ := cutString_stopsBefore noBreak rest
          (rune.toChar :: value) (rune :: covered) behind left
        refine ⟨piece, rest', fun other => ?_⟩
        rw [List.cons_append, cutString_plain value covered _ closed escapes]
        exact stops other

/-- A block comment that is open at a rune takes it in. -/
theorem length_cutBlockComment_cons_le (covered : Source) (next : Rune) (behind : Source) :
    (cutBlockComment covered (next :: behind)).2.length ≤ behind.length := by
  cases behind with
  | nil =>
      simp [cutBlockComment]
  | cons second behind =>
      rw [cutBlockComment]
      split
      · exact Nat.le_succ _
      · exact length_cutBlockComment_le (next :: covered) (second :: behind)

/-- A block comment that is closed before a line break. -/
theorem cutBlockComment_stopsBefore :
    ∀ (front : Source) (covered : Source), StopsBefore (cutBlockComment covered) front
  | [], covered => by
      intro behind left
      have shorter := length_cutBlockComment_cons_le covered lineBreak behind
      rw [List.nil_append] at left
      omega
  | [last], covered => by
      intro behind left
      have shorter := length_cutBlockComment_cons_le (last :: covered) lineBreak behind
      rw [List.singleton_append, cutBlockComment, lineBreak_toChar] at left
      simp at left
      omega
  | star :: slash :: more, covered => by
      intro behind left
      rw [List.cons_append, List.cons_append, cutBlockComment] at left
      by_cases closed : (star.toChar = '*' && slash.toChar = '/') = true
      · refine ⟨.trivia (slash :: star :: covered).reverse, more, fun other => ?_⟩
        rw [List.cons_append, List.cons_append, cutBlockComment, if_pos closed]
      · rw [if_neg closed] at left
        obtain ⟨piece, rest, stops⟩ :=
          cutBlockComment_stopsBefore (slash :: more) (star :: covered) behind left
        refine ⟨piece, rest, fun other => ?_⟩
        rw [List.cons_append, List.cons_append, cutBlockComment, if_neg closed]
        exact stops other

/-- A number ends before a line break. -/
theorem cutNumber_stopsBefore (first : Rune) (front : Source) :
    StopsBefore (cutNumber first) front := by
  intro _ _
  have numberRun := run_lineBreak (show isDigit '\n' = false from rfl)
  have numberRest := afterRun_lineBreak (show isDigit '\n' = false from rfl)
  unfold cutNumber
  simp only [numberRun, numberRest]
  cases afterRun isDigit front with
  | nil =>
      refine ⟨spelled .number (first :: run isDigit front), [], fun other => ?_⟩
      cases other with
      | nil => rfl
      | cons next other => rfl
  | cons dot more =>
      cases more with
      | nil =>
          refine ⟨spelled .number (first :: run isDigit front), [dot], fun other => ?_⟩
          simp [isDigit]
      | cons digit more =>
          by_cases fraction : (dot.toChar = '.' && isDigit digit.toChar) = true
          · refine ⟨spelled .number
              (first :: run isDigit front ++ dot :: digit :: run isDigit more),
              afterRun isDigit more, fun other => ?_⟩
            simp only [List.cons_append, if_pos fraction, numberRun, numberRest]
          · refine ⟨spelled .number (first :: run isDigit front), dot :: digit :: more,
              fun other => ?_⟩
            simp only [List.cons_append, if_neg fraction]

/-- A slash and what it starts before a line break. -/
theorem cutSlash_stopsBefore (slash : Rune) (front : Source) :
    StopsBefore (cutSlash slash) front := by
  intro behind left
  cases front with
  | nil =>
      exact ⟨.trivia [slash], [], fun other => rfl⟩
  | cons second more =>
      unfold cutSlash at left ⊢
      simp only [List.cons_append] at left ⊢
      by_cases isLine : second.toChar = '/'
      · refine ⟨.trivia (slash :: second :: run isInLine more), afterRun isInLine more,
          fun other => ?_⟩
        rw [if_pos isLine, run_lineBreak rfl, afterRun_lineBreak rfl]
      rw [if_neg isLine] at left
      by_cases isBlock : second.toChar = '*'
      · rw [if_pos isBlock] at left
        obtain ⟨piece, rest, stops⟩ :=
          cutBlockComment_stopsBefore more [second, slash] behind left
        refine ⟨piece, rest, fun other => ?_⟩
        rw [if_neg isLine, if_pos isBlock]
        exact stops other
      · refine ⟨.trivia [slash], second :: more, fun other => ?_⟩
        rw [if_neg isLine, if_neg isBlock]
        rfl

/-- A piece that ends before a line break does not depend on what follows. -/
theorem cut_stopsBefore (first : Rune) (front : Source) : StopsBefore (cut first) front := by
  intro behind left
  have next : ∀ other : Source, (front ++ lineBreak :: other).head?.map Rune.toChar =
      some ((front.head?.map Rune.toChar).getD '\n') := by
    intro other
    cases front <;> rfl
  unfold cut at left ⊢
  simp only [next] at left ⊢
  split at left
  · exact ⟨_, front, fun other => rfl⟩
  · cases front with
    | nil =>
        simp at left
    | cons second more =>
        exact ⟨spelled _ [first, second], more, fun other => rfl⟩
  · split at left
    · next isQuote =>
        simp only [if_pos isQuote]
        refine cutString_stopsBefore ?_ front [] [first] behind left
        rintro isBreak
        rw [isBreak] at isQuote
        cases isQuote
    next noQuote =>
    simp only [if_neg noQuote]
    split at left
    · next isSlash =>
        simp only [if_pos isSlash]
        exact cutSlash_stopsBefore first front behind left
    next noSlash =>
    simp only [if_neg noSlash]
    split at left
    · next blank =>
        simp only [if_pos blank, run_lineBreak (show isBlank '\n' = false from rfl),
          afterRun_lineBreak (show isBlank '\n' = false from rfl)]
        exact ⟨_, _, fun other => rfl⟩
    next noBlank =>
    simp only [if_neg noBlank]
    split at left
    · next letter =>
        simp only [if_pos letter, cutWord, run_lineBreak (show continuesWord '\n' = false from rfl),
          afterRun_lineBreak (show continuesWord '\n' = false from rfl)]
        exact ⟨_, _, fun other => rfl⟩
    next noLetter =>
    simp only [if_neg noLetter]
    split at left
    · next digit =>
        simp only [if_pos digit]
        exact cutNumber_stopsBefore first front behind left
    next noDigit =>
    simp only [if_neg noDigit]
    exact ⟨_, front, fun other => rfl⟩

end Piece

namespace Lexer

/-- Pieces up to a line break do not depend on what follows the line break. -/
theorem pieces_lineBreak
    {behind : Source} :
    ∀ {before after : List Piece} {front : Source},
      pieces (front ++ lineBreak :: behind) = before ++ after →
      before.flatMap Piece.text = front →
      ∀ other, pieces (front ++ lineBreak :: other) = before ++ pieces (lineBreak :: other)
  | [], _, _, _, covered, _ => by
      cases covered
      rfl
  | piece :: before, after, [], found, covered, other => by
      rw [List.nil_append, pieces_cons, List.cons_append] at found
      have nonempty := Piece.cut_text_ne_nil lineBreak behind
      rw [(List.cons.inj found).1] at nonempty
      exact (nonempty (List.append_eq_nil_iff.mp covered).1).elim
  | piece :: before, after, first :: more, found, covered, other => by
      rw [List.cons_append, pieces_cons, List.cons_append] at found
      obtain ⟨isPiece, later⟩ := List.cons.inj found
      have whole := Piece.text_cut first (more ++ lineBreak :: behind)
      rw [isPiece, ← List.cons_append, ← covered, List.flatMap_cons, List.append_assoc] at whole
      have left := List.append_cancel_left whole
      obtain ⟨piece', rest, stops⟩ := Piece.cut_stopsBefore first more behind (by
        rw [left]
        simp only [List.length_append, List.length_cons]
        omega)
      have here := stops behind
      rw [here] at isPiece left later
      have rest_eq : before.flatMap Piece.text = rest :=
        (List.append_cancel_right left).symm
      have continued := pieces_lineBreak later rest_eq other
      rw [List.cons_append, pieces_cons, stops other]
      rw [continued, ← isPiece]
      rfl

/-- A split of the pieces is a split of the text. -/
theorem exists_text_of_pieces :
    ∀ {before after : List Piece} {text : Source}, pieces text = before ++ after →
      ∃ rest, text = before.flatMap Piece.text ++ rest ∧ pieces rest = after
  | [], _, text, found => ⟨text, rfl, found⟩
  | piece :: before, after, [], found => by
      rw [pieces_nil] at found
      cases found
  | piece :: before, after, first :: rest, found => by
      rw [pieces_cons, List.cons_append] at found
      obtain ⟨isPiece, later⟩ := List.cons.inj found
      obtain ⟨text, covered, known⟩ := exists_text_of_pieces later
      refine ⟨text, ?_, known⟩
      rw [List.flatMap_cons, List.append_assoc, ← covered, ← isPiece, Piece.text_cut]

/-- Behind pieces that are terminated, the tokens of the others follow. -/
theorem tokensAt_append
    {position : Position}
    {before : List Piece}
    (terminated : ∀ piece ∈ before, piece.isTerminated = true)
    (after : List Piece) :
    tokensAt position (before ++ after) =
      tokensAt position before ++
        tokensAt (position.after (before.flatMap Piece.text)) after := by
  induction before generalizing position with
  | nil =>
      rfl
  | cons piece before inductionHypothesis =>
      obtain ⟨first, rest⟩ := List.forall_mem_cons.mp terminated
      cases piece with
      | trivia text =>
          simp [tokensAt, Piece.text, inductionHypothesis rest, Position.after_append]
      | token kind literal text =>
          simp [tokensAt, Piece.text, inductionHypothesis rest, Position.after_append]
      | unterminated text =>
          cases first

/-- The last token is the token of a piece. -/
theorem exists_last_piece
    {position : Position}
    {all : List Piece}
    {last : Token}
    (isLast : (tokensAt position all).getLast? = some last) :
    ∃ before text after,
      all = before ++ Piece.token last.kind last.literal text :: after ∧
      tokensAt position all =
        tokensAt position (before ++ [Piece.token last.kind last.literal text]) := by
  induction all generalizing position with
  | nil =>
      cases isLast
  | cons piece rest inductionHypothesis =>
      cases piece with
      | trivia text =>
          obtain ⟨before, covered, after, split, same⟩ := inductionHypothesis isLast
          exact ⟨.trivia text :: before, covered, after, by rw [split]; rfl, same⟩
      | token kind literal text =>
          rw [tokensAt, List.getLast?_cons] at isLast
          cases later : (tokensAt (position.after text) rest).getLast? with
          | none =>
              rw [later] at isLast
              cases isLast
              refine ⟨[], text, rest, rfl, ?_⟩
              rw [tokensAt, List.getLast?_eq_none_iff.mp later]
              rfl
          | some other =>
              rw [later] at isLast
              cases isLast
              obtain ⟨before, covered, after, split, same⟩ := inductionHypothesis later
              refine ⟨.token kind literal text :: before, covered, after, by rw [split]; rfl, ?_⟩
              rw [tokensAt, same]
              rfl
      | unterminated text =>
          cases isLast

/-- A line break is a piece of its own. -/
theorem pieces_lineBreak_cons (behind : Source) :
    pieces (lineBreak :: behind) =
      .token .newline "\n" [lineBreak] :: pieces behind := by
  rw [pieces_cons]
  rfl

/-- The token of a line break stands at a line break of the text. -/
theorem exists_lineBreak_of_piece
    {text : Source}
    {literal : String}
    {covered : Source}
    {after : List Piece}
    (found : pieces text = .token .newline literal covered :: after) :
    ∃ behind, text = lineBreak :: behind := by
  have held := pieces_holdLexemes text
  rw [found] at held
  obtain ⟨lexeme, spelled⟩ := held _ List.mem_cons_self
  have shown := (spelled (by decide)).symm.trans lexeme.literal_of_newline
  have sole : covered = [lineBreak] := by
    have chars : covered.map Rune.toChar = ['\n'] := String.ofList_injective shown
    obtain ⟨rune, rest, rfl, isBreak, isRest⟩ := List.map_eq_cons_iff.mp chars
    cases List.map_eq_nil_iff.mp isRest
    cases rune with
    | char value =>
        cases isBreak
        rfl
    | stray byte =>
        exact absurd isBreak (show Rune.replacement ≠ '\n' by decide)
  have whole := text_pieces text
  rw [found, List.flatMap_cons, Piece.text, sole] at whole
  exact ⟨_, whole.symm⟩

/--
Tokens up to a line break stay the same when the text behind the line break is
replaced.
-/
theorem lex_lineBreak
    {text : Source}
    {tokens : List Token}
    {last : Token}
    (lexed : lex text = .ok tokens)
    (isLast : tokens.dropLast.getLast? = some last)
    (isBreak : last.kind = .newline) :
    ∃ front behind, ∃ (line : List Token) (final : Token),
      text = front ++ lineBreak :: behind ∧
      tokens = line ++ [final] ∧
      final.kind = .endOfInput ∧
      (∀ token ∈ line, token.kind ≠ .endOfInput) ∧
      line.getLast? = some last ∧
      ∀ other more, lex (front ++ lineBreak :: other) = .ok more →
        ∃ rest, more = line ++ rest := by
  obtain ⟨terminated, -, rfl⟩ := lex_eq_ok_iff.mp lexed
  rw [List.dropLast_concat] at isLast
  obtain ⟨before, covered, after, split, same⟩ := exists_last_piece isLast
  obtain ⟨rest, whole, later⟩ := exists_text_of_pieces split
  rw [isBreak] at later
  obtain ⟨behind, rfl⟩ := exists_lineBreak_of_piece later
  have isToken : Piece.token last.kind last.literal covered =
      .token .newline "\n" [lineBreak] := by
    rw [pieces_lineBreak_cons] at later
    rw [isBreak]
    exact (List.cons.inj later).1.symm
  have terminatedFront : ∀ piece ∈ before ++ [Piece.token last.kind last.literal covered],
      piece.isTerminated = true := by
    intro piece member
    refine terminated piece ?_
    rw [split, List.append_cons]
    exact List.mem_append_left _ member
  refine ⟨before.flatMap Piece.text, behind, tokensAt .start (pieces text), _, whole, rfl, rfl,
    ?_, isLast, ?_⟩
  · intro token member
    exact (tokensAt_lexemes (pieces_holdLexemes text) token member).kind_ne_endOfInput
  · intro other more lexedMore
    obtain ⟨-, -, rfl⟩ := lex_eq_ok_iff.mp lexedMore
    rw [whole] at split
    rw [pieces_lineBreak split rfl other, pieces_lineBreak_cons, ← isToken, same,
      List.append_cons before _ (pieces other)]
    rw [tokensAt_append terminatedFront, List.append_assoc]
    exact ⟨_, rfl⟩

end Lexer

end FrenchNim
