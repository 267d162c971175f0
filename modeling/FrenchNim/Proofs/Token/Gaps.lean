import FrenchNim.Proofs.Token.Extents

namespace FrenchNim

/-!
# What stands between the tokens

The tokens of a text and the gaps around them make up the whole text: the tokens
cover intervals of bytes that stand one behind the other, and every gap is text
that the scanner may skip. Outside of comments no rune is skipped that a token
could start with, other than an exclamation mark that is no part of `!=`.
-/

/-- A character that the spelling of some token starts with. -/
def startsToken (c : Char) : Bool :=
  isLetter c || isDigit c || c = '"' || c = '\'' ||
    operators.any fun entry => entry.2.toList.head? = some c

/-- The opening of a line comment. -/
def lineCommentOpening : Source := [.char '/', .char '/']

/-- The opening of a block comment. -/
def blockCommentOpening : Source := [.char '/', .char '*']

/-- The end of a block comment. -/
def blockCommentEnd : Source := [.char '*', .char '/']

/--
A text without tokens, the runes of it that stand outside of comments, and what follows it.

A line comment ends before a line break or with the input, a block comment at
the first end behind its opening, or with the input if there is none.
-/
inductive Skipped : Source → Source → Source → Prop where
  | nil {behind : Source} : Skipped [] [] behind
  | blank {rune : Rune} {rest bare behind : Source}
      (blank : isBlank rune.toChar = true)
      (later : Skipped rest bare behind) :
      Skipped (rune :: rest) (rune :: bare) behind
  | exclamation {rest bare behind : Source}
      (alone : (rest ++ behind).head? ≠ some (.char '='))
      (later : Skipped rest bare behind) :
      Skipped (.char '!' :: rest) (.char '!' :: bare) behind
  | slash {rest bare behind : Source}
      (noLineComment : (rest ++ behind).head? ≠ some (.char '/'))
      (noBlockComment : (rest ++ behind).head? ≠ some (.char '*'))
      (later : Skipped rest bare behind) :
      Skipped (.char '/' :: rest) (.char '/' :: bare) behind
  | lineComment {body rest bare behind : Source}
      (inLine : lineBreak ∉ body)
      (ended : rest ++ behind = [] ∨ (rest ++ behind).head? = some lineBreak)
      (later : Skipped rest bare behind) :
      Skipped (lineCommentOpening ++ body ++ rest) bare behind
  | blockComment {body rest bare behind : Source}
      (endsFirst : ¬ blockCommentEnd <:+: body ++ [.char '*'])
      (later : Skipped rest bare behind) :
      Skipped (blockCommentOpening ++ body ++ blockCommentEnd ++ rest) bare behind
  | openComment {body : Source}
      (endless : ¬ blockCommentEnd <:+: body) :
      Skipped (blockCommentOpening ++ body) [] []
  | unknown {rune : Rune} {rest bare behind : Source}
      (startsNone : startsToken rune.toChar = false)
      (noSlash : rune ≠ .char '/')
      (later : Skipped rest bare behind) :
      Skipped (rune :: rest) (rune :: bare) behind

/-- Outside of comments, nothing is skipped that starts a token, exclamation marks apart. -/
theorem Skipped.startsToken_eq_false
    {gap bare behind : Source}
    (skipped : Skipped gap bare behind) :
    ∀ rune ∈ bare, rune ≠ .char '!' → startsToken rune.toChar = false := by
  induction skipped with
  | nil => exact List.forall_mem_nil _
  | blank blank later inductionHypothesis =>
      refine List.forall_mem_cons.mpr ⟨fun _ => ?_, inductionHypothesis⟩
      simp only [isBlank, Bool.or_eq_true, decide_eq_true_eq] at blank
      rcases blank with (isSpace | isTab) | isReturn
      · rw [isSpace]
        decide
      · rw [isTab]
        decide
      · rw [isReturn]
        decide
  | exclamation alone later inductionHypothesis =>
      exact List.forall_mem_cons.mpr ⟨fun other => (other rfl).elim, inductionHypothesis⟩
  | slash noLineComment noBlockComment later inductionHypothesis =>
      exact List.forall_mem_cons.mpr ⟨fun _ => by decide, inductionHypothesis⟩
  | lineComment inLine ended later inductionHypothesis => exact inductionHypothesis
  | blockComment endsFirst later inductionHypothesis => exact inductionHypothesis
  | openComment endless => exact List.forall_mem_nil _
  | unknown startsNone noSlash later inductionHypothesis =>
      exact List.forall_mem_cons.mpr ⟨fun _ => startsNone, inductionHypothesis⟩

/-- A rune that is read as a valid character is this character. -/
theorem Rune.eq_char
    {rune : Rune}
    {c : Char}
    (isChar : rune.toChar = c)
    (valid : c ≠ Rune.replacement) :
    rune = .char c := by
  cases rune with
  | char value => exact congrArg Rune.char isChar
  | stray byte => exact (valid isChar.symm).elim

/-! ## What the scanner skips -/

/-- The text may be skipped together with any further text that is skipped behind it. -/
def Skips (text rest : Source) : Prop :=
  ∀ ⦃gap bare behind : Source⦄, gap ++ behind = rest → Skipped gap bare behind →
    ∃ wider, Skipped (text ++ gap) wider behind

/-- A rune that may stand before skipped text may be skipped. -/
theorem skips_rune
    {rune : Rune}
    {rest : Source}
    (step : ∀ {gap bare behind : Source}, gap ++ behind = rest → Skipped gap bare behind →
      Skipped (rune :: gap) (rune :: bare) behind) :
    Skips [rune] rest :=
  fun _ bare _ isRest later => ⟨rune :: bare, step isRest later⟩

/-- A character that is no operator starts none, or it is an exclamation mark that stands alone. -/
theorem operator?_eq_none
    {c : Char}
    {next : Option Char}
    (isNone : operator? c next = none) :
    (c = '!' ∧ next ≠ some '=') ∨
      (operators.any fun entry => entry.2.toList.head? = some c) = false := by
  unfold operator? at isNone
  split at isNone
  all_goals try split at isNone
  all_goals try cases isNone
  · next other => exact .inl ⟨rfl, other⟩
  · right
    simp [operators]
    grind

namespace Piece

/-- If the piece is no token, it may be skipped before the text behind it. -/
def MaySkip : Piece × Source → Prop
  | (.trivia text, rest) => Skips text rest
  | _ => True

theorem cutString_maySkip (quote : Char) (value : List Char) (covered rest : Source) :
    MaySkip (cutString quote value covered rest) := by
  fun_induction cutString quote value covered rest with
  | case1 => exact trivial
  | case2 => exact trivial
  | case3 => exact trivial
  | case4 => assumption
  | case5 => assumption

/-- A block comment may be skipped if what was read of it does not end it. -/
theorem cutBlockComment_maySkip
    {covered rest body : Source}
    (read : covered.reverse = blockCommentOpening ++ body)
    (goesOn : ¬ blockCommentEnd <:+: body ++ rest.take 1) :
    MaySkip (cutBlockComment covered rest) := by
  fun_induction cutBlockComment covered rest generalizing body with
  | case1 covered =>
      rintro gap bare behind isEnd -
      obtain ⟨rfl, rfl⟩ := List.append_eq_nil_iff.mp isEnd
      rw [List.take_nil, List.append_nil] at goesOn
      rw [read, List.append_nil]
      exact ⟨_, .openComment goesOn⟩
  | case2 covered star slash rest ends =>
      rintro gap bare behind - later
      rw [Bool.and_eq_true, decide_eq_true_eq, decide_eq_true_eq] at ends
      obtain rfl := Rune.eq_char ends.1 (by decide)
      obtain rfl := Rune.eq_char ends.2 (by decide)
      refine ⟨bare, ?_⟩
      simpa [read, blockCommentEnd] using Skipped.blockComment goesOn later
  | case3 covered star slash rest endsNot inductionHypothesis =>
      refine @inductionHypothesis (body ++ [star]) (by simp [read]) fun ends => ?_
      rcases List.infix_concat_iff.mp ends with atEnd | before
      · obtain ⟨front, whole⟩ := atEnd
        rw [List.append_assoc] at whole
        obtain ⟨rfl, rfl⟩ : star = .char '*' ∧ slash = .char '/' := by
          simpa [blockCommentEnd, eq_comm] using (List.append_inj' whole rfl).2
        exact endsNot rfl
      · exact goesOn before
  | case4 covered last =>
      rintro gap bare behind isEnd -
      obtain ⟨rfl, rfl⟩ := List.append_eq_nil_iff.mp isEnd
      have whole : (last :: covered).reverse = blockCommentOpening ++ (body ++ [last]) := by
        simp [read]
      rw [whole, List.append_nil]
      exact ⟨_, .openComment goesOn⟩

theorem skips_line
    (body : Source) :
    Skips (lineCommentOpening ++ run isInLine body) (afterRun isInLine body) := by
  intro gap bare behind isRest later
  refine ⟨bare, .lineComment (fun isBreak => ?_) ?_ later⟩
  · have inLine := mem_run (List.mem_map_of_mem (f := Rune.toChar) isBreak)
    exact absurd inLine (by decide)
  · rw [isRest]
    have ends := List.head?_dropWhile_not (fun rune : Rune => isInLine rune.toChar) body
    unfold afterRun
    cases found : body.dropWhile (isInLine ·.toChar) with
    | nil => exact .inl rfl
    | cons rune more =>
        rw [found, List.head?_cons] at ends
        refine .inr (congrArg some (toChar_eq_lineBreak.mp ?_))
        simpa [isInLine] using ends

theorem cutSlash_maySkip
    {slash : Rune}
    (isSlash : slash.toChar = '/')
    (rest : Source) :
    MaySkip (cutSlash slash rest) := by
  obtain rfl := Rune.eq_char isSlash (by decide)
  unfold cutSlash
  split
  · exact skips_rune fun isEnd later => .slash (by simp [isEnd]) (by simp [isEnd]) later
  · next second more =>
    split
    · next isSecond =>
        obtain rfl := Rune.eq_char isSecond (by decide)
        exact skips_line more
    split
    · next isSecond =>
        obtain rfl := Rune.eq_char isSecond (by decide)
        refine @cutBlockComment_maySkip _ _ [] rfl fun ends => ?_
        have short := ends.length_le
        simp [blockCommentEnd] at short
    · next noLine noBlock =>
        refine skips_rune fun isRest later => .slash ?_ ?_ later
        · rw [isRest]
          rintro same
          cases same
          exact noLine rfl
        · rw [isRest]
          rintro same
          cases same
          exact noBlock rfl

theorem skips_blanks
    {text : Source}
    (blank : ∀ rune ∈ text, isBlank rune.toChar = true)
    (rest : Source) :
    Skips text rest := by
  induction text with
  | nil => exact fun gap bare behind _ later => ⟨bare, later⟩
  | cons rune more inductionHypothesis =>
      obtain ⟨isBlank, others⟩ := List.forall_mem_cons.mp blank
      intro gap bare behind isRest later
      obtain ⟨wider, skipped⟩ := inductionHypothesis others isRest later
      exact ⟨_, .blank isBlank skipped⟩

/-- Whatever the scanner cuts off a text without making a token of it may be skipped. -/
theorem cut_maySkip (first : Rune) (rest : Source) : MaySkip (cut first rest) := by
  unfold cut
  split
  · exact trivial
  · exact trivial
  next noOperator =>
  split
  · exact cutString_maySkip _ _ _ _
  next noQuote =>
  split
  · next isSlash => exact cutSlash_maySkip isSlash rest
  next noSlash =>
  split
  · next isFirst =>
      refine skips_blanks (List.forall_mem_cons.mpr ⟨isFirst, fun rune member => ?_⟩) _
      exact mem_run (List.mem_map_of_mem member)
  split
  · exact trivial
  next noLetter =>
  split
  · unfold cutNumber
    split
    · split <;> exact trivial
    · exact trivial
  next noDigit =>
  rcases operator?_eq_none noOperator with ⟨isMark, alone⟩ | startsNone
  · obtain rfl := Rune.eq_char isMark (by decide)
    refine skips_rune fun isRest later => .exclamation ?_ later
    rintro same
    rw [isRest] at same
    rw [same] at alone
    exact alone rfl
  · refine skips_rune fun isRest later => .unknown ?_ ?_ later
    · rw [Bool.not_eq_true] at noLetter noDigit noQuote
      rw [startsToken, noLetter, noDigit, startsNone, Bool.false_or, Bool.false_or, noQuote,
        Bool.or_false]
    · rintro rfl
      exact noSlash rfl

end Piece

/-! ## The tokens and the gaps of a text -/

/-- Tokens that stand in a text from the given offset on, with skipped text around them. -/
inductive Laid : Int → List Token → Source → Prop where
  | done {offset : Int} {gap bare : Source}
      (skipped : Skipped gap bare []) :
      Laid offset [] gap
  | token {offset : Int} {gap bare lexeme behind : Source} {token : Token} {tokens : List Token}
      (skipped : Skipped gap bare (lexeme ++ behind))
      (nonempty : lexeme ≠ [])
      (first : token.span.first.offset = offset + gap.byteSize)
      (last : token.span.last.offset = offset + (gap ++ lexeme.dropLast).byteSize)
      (later : Laid (offset + (gap ++ lexeme).byteSize) tokens behind) :
      Laid offset (token :: tokens) (gap ++ (lexeme ++ behind))

/-- Text that may be skipped makes the first gap longer. -/
theorem Laid.skip
    {offset : Int}
    {tokens : List Token}
    {text rest : Source}
    (skips : Skips text rest)
    (laid : Laid (offset + text.byteSize) tokens rest) :
    Laid offset tokens (text ++ rest) := by
  cases laid with
  | done skipped =>
      obtain ⟨wider, longer⟩ := skips (List.append_nil rest) skipped
      exact .done longer
  | token skipped nonempty first last later =>
      obtain ⟨wider, longer⟩ := skips rfl skipped
      rw [← List.append_assoc]
      refine .token longer nonempty ?_ ?_ ?_
      · rw [first, Source.byteSize_append]
        omega
      · rw [last, List.append_assoc, Source.byteSize_append text]
        omega
      · rw [List.append_assoc, Source.byteSize_append text, Int.natCast_add, ← Int.add_assoc]
        exact later

namespace Lexer

/-- The tokens of a text stand in it. -/
theorem laid_tokensAt
    {text : Source}
    (terminated : ∀ piece ∈ pieces text, piece.isTerminated = true)
    (position : Position) :
    Laid position.offset (tokensAt position (pieces text)) text := by
  fun_induction pieces text generalizing position with
  | case1 => exact .done .nil
  | case2 first rest inductionHypothesis =>
      obtain ⟨ends, others⟩ := List.forall_mem_cons.mp terminated
      have whole := Piece.text_cut first rest
      have nonempty := Piece.cut_text_ne_nil first rest
      have maySkip := Piece.cut_maySkip first rest
      generalize Piece.cut first rest = cut at *
      obtain ⟨piece, behind⟩ := cut
      have later := inductionHypothesis others (position.after piece.text)
      rw [Position.offset_after] at later
      rw [← whole]
      cases piece with
      | trivia text => exact .skip maySkip later
      | token kind literal text =>
          exact @Laid.token _ [] [] _ _ _ _ .nil nonempty (by simp [Source.byteSize_nil])
            (Position.offset_after _ _) later
      | unterminated text => cases ends

end Lexer

/-! ## Intervals of bytes -/

/-- The width of the rune that a byte string starts with. -/
def headWidth (bytes : Bytes) : Nat :=
  ((Source.ofBytes bytes).head?.map Rune.width).getD 0

/-- The offset behind the last rune of a token. -/
def Token.stop (input : Bytes) (token : Token) : Int :=
  token.span.last.offset + headWidth (input.drop token.span.last.offset.toNat)

/-- The intervals from the given offset to the first token, between tokens, and behind the last. -/
def gaps (input : Bytes) (start : Int) : List Token → List (Int × Int)
  | [] => [(start, input.length)]
  | token :: rest => (start, token.span.first.offset) :: gaps input (token.stop input) rest

/-- An interval of the input that holds skipped text and nothing that starts a token. -/
structure IsGap (input : Bytes) (start stop : Int) : Prop where
  nonnegative : 0 ≤ start
  forward : start ≤ stop
  within : stop ≤ input.length
  skipped : ∃ bare,
    Skipped (.ofBytes ((input.take stop.toNat).drop start.toNat)) bare
      (.ofBytes (input.drop stop.toNat)) ∧
    ∀ rune ∈ bare, rune ≠ .char '!' → startsToken rune.toChar = false

/-- Tokens that cover intervals of the input, one behind the other, with gaps around them. -/
structure Partition (input : Bytes) (start : Int) (tokens : List Token) : Prop where
  nonempty : ∀ token ∈ tokens, token.span.first.offset < token.stop input
  apart : tokens.Pairwise fun before behind => before.stop input ≤ behind.span.first.offset
  gap : ∀ interval ∈ gaps input start tokens, IsGap input interval.1 interval.2

/-- Skipped text of the input is a gap. -/
theorem Skipped.isGap
    {input : Bytes}
    {passed gap bare behind : Source}
    (skipped : Skipped gap bare behind)
    (decoded : Source.ofBytes input = passed ++ (gap ++ behind)) :
    IsGap input passed.byteSize (passed.byteSize + gap.byteSize) := by
  have size := Source.byteSize_ofBytes input
  rw [decoded, Source.byteSize_append, Source.byteSize_append] at size
  have fromStart := Source.ofBytes_drop decoded
  have upToStop := Source.ofBytes_take fromStart
  have fromStop := Source.ofBytes_drop fromStart
  rw [List.drop_drop] at fromStop
  refine ⟨by omega, by omega, by omega, bare, ?_, skipped.startsToken_eq_false⟩
  rw [← Int.natCast_add, Int.toNat_natCast, Int.toNat_natCast, List.drop_take,
    Nat.add_sub_cancel_left, upToStop, fromStop]
  exact skipped

/-- The offset behind a token is the offset behind its lexeme. -/
theorem Token.stop_eq
    {input : Bytes}
    {passed lexeme behind : Source}
    {token : Token}
    (nonempty : lexeme ≠ [])
    (decoded : Source.ofBytes input = passed ++ (lexeme ++ behind))
    (last : token.span.last.offset = (passed ++ lexeme.dropLast).byteSize) :
    token.stop input = (passed ++ lexeme).byteSize := by
  have split : passed ++ lexeme.dropLast ++ (lexeme.getLast nonempty :: behind) =
      passed ++ (lexeme ++ behind) := by
    conv_rhs => rw [← List.dropLast_concat_getLast nonempty]
    simp
  have fromLast := Source.ofBytes_drop (decoded.trans split.symm)
  have width := congrArg Source.byteSize (List.dropLast_concat_getLast nonempty)
  rw [Source.byteSize_append, Source.byteSize_cons, Source.byteSize_nil] at width
  unfold Token.stop headWidth
  rw [last, Int.toNat_natCast, fromLast, Source.byteSize_append, Source.byteSize_append, ← width]
  simp only [List.head?_cons, Option.map_some, Option.getD_some]
  omega

/-- Tokens that stand in what is left of the input part it. -/
theorem Laid.partition
    {input : Bytes}
    {offset : Int}
    {tokens : List Token}
    {text passed : Source}
    (laid : Laid offset tokens text)
    (decoded : Source.ofBytes input = passed ++ text)
    (start : offset = passed.byteSize) :
    Partition input offset tokens ∧ ∀ token ∈ tokens, offset ≤ token.span.first.offset := by
  induction laid generalizing passed with
  | @done offset gap bare skipped =>
      have size := Source.byteSize_ofBytes input
      rw [decoded, Source.byteSize_append] at size
      refine ⟨⟨List.forall_mem_nil _, .nil, List.forall_mem_singleton.mpr ?_⟩,
        List.forall_mem_nil _⟩
      have isGap : IsGap input passed.byteSize (passed.byteSize + gap.byteSize) :=
        skipped.isGap (by simpa using decoded)
      rwa [← Int.natCast_add, size, ← start] at isGap
  | @token offset gap bare lexeme behind token tokens skipped nonempty first last _
      inductionHypothesis =>
      have wide := Source.length_le_byteSize lexeme
      have some := List.length_pos_iff.mpr nonempty
      have atLexeme : Source.ofBytes input = passed ++ gap ++ (lexeme ++ behind) := by
        simpa using decoded
      have atBehind : Source.ofBytes input = passed ++ (gap ++ lexeme) ++ behind := by
        simpa using decoded
      have stop : token.stop input = offset + (gap ++ lexeme).byteSize := by
        rw [Token.stop_eq nonempty atLexeme ?_, start, List.append_assoc, Source.byteSize_append passed, Int.natCast_add]
        rw [last, start, List.append_assoc, Source.byteSize_append passed, Int.natCast_add]
      obtain ⟨later, above⟩ := inductionHypothesis atBehind
        (by rw [start, Source.byteSize_append passed, Int.natCast_add])
      rw [← stop] at later above
      rw [Source.byteSize_append] at stop
      have isGap := skipped.isGap decoded
      rw [← start, ← first] at isGap
      refine ⟨⟨List.forall_mem_cons.mpr ⟨by omega, later.nonempty⟩,
        List.pairwise_cons.mpr ⟨above, later.apart⟩,
        List.forall_mem_cons.mpr ⟨isGap, later.gap⟩⟩,
        List.forall_mem_cons.mpr ⟨by omega, fun other member => ?_⟩⟩
      have next := above other member
      omega

/--
The tokens of an input cover nonempty intervals of it, one behind the other.
All that stands before, between and behind them is blanks, comments, lone
exclamation marks, slashes that open no comment, and runes that start no token.
-/
theorem lex_partition
    {input : Bytes}
    {tokens : List Token}
    (lexed : lex (.ofBytes input) = .ok tokens) :
    Partition input 0 (tokens.filter (·.kind ≠ .endOfInput)) := by
  obtain ⟨terminated, -, rfl⟩ := Lexer.lex_eq_ok_iff.mp lexed
  have lexemes := Lexer.pieces_holdLexemes (.ofBytes input)
  have noEnd : ((Lexer.tokensAt .start (Lexer.pieces (.ofBytes input))).filter
      (·.kind ≠ .endOfInput)) = Lexer.tokensAt .start (Lexer.pieces (.ofBytes input)) :=
    List.filter_eq_self.mpr fun token member =>
      decide_eq_true (Lexer.tokensAt_lexemes lexemes token member).kind_ne_endOfInput
  rw [List.filter_append, noEnd, Token.endOfInput, List.filter_cons_of_neg (by simp),
    List.filter_nil, List.append_nil]
  have fromStart : Source.ofBytes input = [] ++ Source.ofBytes input := rfl
  exact ((Lexer.laid_tokensAt terminated .start).partition fromStart rfl).1

/-- A lone slash, a string with a letter of two bytes, a comment that hides a sign, and `!=`. -/
def hiddenSign : Bytes :=
  [0x2F, 0x22, 0xC3, 0xA9, 0x22, 0x2F, 0x2A, 0x2B, 0x2A, 0x2F, 0x21, 0x3D]

/-- The gaps hold the slash, the comment, and nothing. -/
theorem lex_partition_hiddenSign :
    ∃ tokens, lex (.ofBytes hiddenSign) = .ok tokens ∧
      Partition hiddenSign 0 (tokens.filter (·.kind ≠ .endOfInput)) ∧
      gaps hiddenSign 0 (tokens.filter (·.kind ≠ .endOfInput)) = [(0, 1), (5, 10), (12, 12)] := by
  have lexed : lex (.ofBytes hiddenSign) = .ok
      [⟨.string, "é", ⟨⟨1, 1, 1⟩, ⟨4, 1, 3⟩⟩⟩, ⟨.notEqual, "!=", ⟨⟨10, 1, 9⟩, ⟨11, 1, 10⟩⟩⟩,
        .endOfInput ⟨12, 1, 11⟩] := by
    cbv
  exact ⟨_, lexed, lex_partition lexed, by cbv⟩

end FrenchNim
