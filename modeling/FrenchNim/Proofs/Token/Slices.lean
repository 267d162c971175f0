import Mathlib
import FrenchNim.Proofs.Text.Decoding
import FrenchNim.Proofs.Token.Extents
import FrenchNim.Proofs.Token.Gaps
import FrenchNim.Proofs.Token.Openings
import FrenchNim.Proofs.Token.Positions

namespace FrenchNim

/-!
# The bytes of a token

The slice of a token runs from the first byte of its lexeme to the first byte of
the last rune. So it is the whole lexeme exactly if that rune takes one byte, and
this fails for names that end in an accented letter alone: they lose their last
byte. Strings end with a quote, and all other lexemes with an ASCII character.
-/

namespace Source

theorem toBytes_append (left right : Source) :
    (left ++ right).toBytes = left.toBytes ++ right.toBytes :=
  List.flatMap_append

theorem toBytes_cons (rune : Rune) (rest : Source) :
    toBytes (rune :: rest) = rune.bytes ++ toBytes rest :=
  List.flatMap_cons

theorem length_toBytes (text : Source) : text.toBytes.length = text.byteSize := by
  induction text with
  | nil =>
      rfl
  | cons rune rest inductionHypothesis =>
      rw [toBytes_cons, List.length_append, Rune.length_bytes, inductionHypothesis, byteSize_cons]

/-- A text without stray bytes has the bytes of what it is shown as. -/
theorem ofString_shown
    {text : Source}
    (valid : ∀ c ∈ text.map Rune.toChar, c ≠ Rune.replacement) :
    ofString (shown text) = text := by
  unfold ofString shown
  rw [String.toList_ofList, List.map_map]
  refine (List.map_congr_left fun rune member => ?_).trans (List.map_id text)
  exact (Rune.eq_char rfl (valid _ (List.mem_map_of_mem member))).symm

end Source

/-! ## The last rune of a lexeme -/

/-- ASCII characters take one byte. -/
theorem utf8Size_of_le
    {c high : Char}
    (below : c ≤ high)
    (isAscii : high.val ≤ 0x7F) :
    c.utf8Size = 1 :=
  if_pos (UInt32.le_trans below isAscii)

theorem utf8Size_of_isDigit
    {c : Char}
    (digit : isDigit c = true) :
    c.utf8Size = 1 := by
  have bounds : '0' ≤ c ∧ c ≤ '9' := by
    simpa [isDigit] using digit
  exact utf8Size_of_le bounds.2 (by decide)

/-- Accented letters take two bytes. -/
theorem utf8Size_of_accented
    {c : Char}
    (accented : c ∈ accentedLetters) :
    c.utf8Size = 2 := by
  have wide : accentedLetters.all (·.utf8Size = 2) = true := by
    decide
  exact of_decide_eq_true (List.all_eq_true.mp wide c accented)

/-- Letters and digits take one byte, accented letters apart. -/
theorem utf8Size_of_continuesWord
    {c : Char}
    (continues : Piece.continuesWord c = true) :
    c.utf8Size = 1 ∨ c ∈ accentedLetters := by
  rcases Bool.or_eq_true_iff.mp continues with letter | digit
  · simp only [isLetter, Bool.or_eq_true, Bool.and_eq_true, decide_eq_true_eq,
      List.contains_iff_mem] at letter
    rcases letter with ((small | large) | rfl) | accented
    · exact .inl (utf8Size_of_le small.2 (by decide))
    · exact .inl (utf8Size_of_le large.2 (by decide))
    · exact .inl rfl
    · exact .inr accented
  · exact .inl (utf8Size_of_isDigit digit)

/-- Digits and dots take one byte. -/
theorem IsNumeral.utf8Size
    {text : List Char}
    (isNumeral : IsNumeral text) :
    ∀ c ∈ text, c.utf8Size = 1 := by
  rcases isNumeral with whole | ⟨whole, fraction, rfl, isWhole, isFraction⟩
  · exact fun c member => utf8Size_of_isDigit (whole.2 c member)
  · refine List.forall_mem_append.mpr
      ⟨fun c member => utf8Size_of_isDigit (isWhole.2 c member), ?_⟩
    exact List.forall_mem_cons.mpr
      ⟨rfl, fun c member => utf8Size_of_isDigit (isFraction.2 c member)⟩

/-- Operators take one byte for each character. -/
theorem utf8Size_of_operator
    {kind : TokenKind}
    {literal : String}
    (listed : (kind, literal) ∈ operators) :
    ∀ c ∈ literal.toList, c.utf8Size = 1 := by
  have ascii : ∀ entry ∈ operators, entry.2.toList.all (·.utf8Size = 1) = true := by
    decide
  exact fun c member => of_decide_eq_true (List.all_eq_true.mp (ascii _ listed) c member)

/-- No reserved word ends in an accented letter. -/
theorem Keyword.utf8Size_last
    {word : String}
    (reserved : Keyword.kindOf word ≠ .identifier)
    {c : Char}
    (isLast : word.toList.getLast? = some c) :
    c.utf8Size = 1 := by
  have plain : ∀ keyword ∈ Keyword.table,
      keyword.word.toList.getLast?.all (·.utf8Size = 1) = true := by
    decide
  obtain ⟨keyword, listed, same, -⟩ := Keyword.exists_of_kindOf reserved
  have lastOfKeyword := plain keyword listed
  rw [same, isLast] at lastOfKeyword
  exact of_decide_eq_true lastOfKeyword

/--
All characters of a lexeme that is no string take one byte, accented letters apart, and only a
name ends in an accented letter.
-/
theorem Lexeme.utf8Size
    {kind : TokenKind}
    {literal : String}
    (lexeme : Lexeme kind literal)
    (noString : kind ≠ .string) :
    (∀ c ∈ literal.toList, c.utf8Size = 1 ∨ c ∈ accentedLetters) ∧
      (kind ≠ .identifier → ∀ c ∈ literal.toList.getLast?, c.utf8Size = 1) := by
  cases lexeme with
  | operator listed =>
      have ascii := utf8Size_of_operator listed
      exact ⟨fun c member => .inl (ascii c member),
        fun _ c isLast => ascii c (List.mem_of_getLast? isLast)⟩
  | string => exact absurd rfl noString
  | @word text isWord =>
      refine ⟨?_, fun reserved c isLast => Keyword.utf8Size_last reserved isLast⟩
      rw [String.toList_ofList]
      cases text with
      | nil => exact isWord.elim
      | cons first rest =>
          refine List.forall_mem_cons.mpr ⟨utf8Size_of_continuesWord ?_,
            fun c member => utf8Size_of_continuesWord (isWord.2 c member)⟩
          simp [Piece.continuesWord, isWord.1]
  | @number text isNumeral =>
      rw [String.toList_ofList]
      have ascii := isNumeral.utf8Size
      exact ⟨fun c member => .inl (ascii c member),
        fun _ c isLast => ascii c (List.mem_of_getLast? isLast)⟩

/-! ## The quotes of a string -/

namespace Piece

/-- A string that ends covers what was read before, and a quote at the end. -/
theorem exists_closing_of_cutString
    {quote : Char}
    {value : List Char}
    {covered rest text : Source}
    {kind : TokenKind}
    {literal : String}
    (isToken : (cutString quote value covered rest).1 = .token kind literal text) :
    ∃ inner, ∃ closing : Rune, closing.toChar = quote ∧
      text = covered.reverse ++ inner ++ [closing] := by
  fun_induction cutString quote value covered rest with
  | case1 => cases isToken
  | case2 value covered closing rest isQuote =>
      cases isToken
      exact ⟨[], closing, isQuote, by simp⟩
  | case3 => cases isToken
  | case4 value covered backslash noQuote isBackslash escaped rest inductionHypothesis =>
      obtain ⟨inner, closing, isQuote, rfl⟩ := inductionHypothesis isToken
      exact ⟨backslash :: escaped :: inner, closing, isQuote, by simp⟩
  | case5 value covered rune rest noQuote noBackslash inductionHypothesis =>
      obtain ⟨inner, closing, isQuote, rfl⟩ := inductionHypothesis isToken
      exact ⟨rune :: inner, closing, isQuote, by simp⟩

/-- A token of this piece is not a string. -/
def IsNoString : Piece → Prop
  | token kind _ _ => kind ≠ .string
  | _ => True

theorem cutBlockComment_isNoString (covered rest : Source) :
    (cutBlockComment covered rest).1.IsNoString := by
  obtain ⟨body, found⟩ := exists_text_of_cutBlockComment covered rest
  rw [found]
  exact trivial

theorem cutSlash_isNoString (slash : Rune) (rest : Source) :
    (cutSlash slash rest).1.IsNoString := by
  unfold cutSlash
  split
  · exact trivial
  split
  · exact trivial
  split
  · exact cutBlockComment_isNoString _ _
  · exact trivial

theorem cutNumber_isNoString (first : Rune) (rest : Source) :
    (cutNumber first rest).1.IsNoString := by
  have noString : TokenKind.number ≠ .string := by
    decide
  unfold cutNumber
  split
  · split
    · exact noString
    · exact noString
  · exact noString

/-- Only a quote starts a string. -/
theorem cut_isNoString
    {first : Rune}
    (noQuote : ¬(first.toChar = '"' || first.toChar = '\'') = true)
    (rest : Source) :
    (cut first rest).1.IsNoString := by
  have noOperator : ∀ entry ∈ operators, entry.1 ≠ .string := by
    decide
  unfold cut
  split
  · next isOperator =>
      exact noOperator _ (operator?_short isOperator)
  · next isOperator =>
      obtain ⟨second, -, listed⟩ := operator?_long isOperator
      exact noOperator _ listed
  rw [if_neg noQuote]
  split
  · exact cutSlash_isNoString first rest
  split
  · exact trivial
  split
  · exact Keyword.kindOf_ne (by decide) (by decide) _
  split
  · exact cutNumber_isNoString first rest
  · exact trivial

/-- A string has the same quote at both ends. -/
theorem exists_quotes_of_cut
    {first : Rune}
    {rest text : Source}
    {literal : String}
    (isToken : (cut first rest).1 = .token .string literal text) :
    ∃ quote inner, (quote = '"' ∨ quote = '\'') ∧
      text = .char quote :: (inner ++ [Rune.char quote]) := by
  by_cases isQuote : (first.toChar = '"' || first.toChar = '\'') = true
  · have quoted : first.toChar = '"' ∨ first.toChar = '\'' := by
      simpa using isQuote
    have valid : first.toChar ≠ Rune.replacement := by
      rintro same
      rw [same] at quoted
      exact absurd quoted (by decide)
    rw [cut_quote quoted rfl] at isToken
    obtain ⟨inner, closing, isClosing, rfl⟩ := exists_closing_of_cutString isToken
    refine ⟨first.toChar, inner, quoted, ?_⟩
    rw [← Rune.eq_char rfl valid, Rune.eq_char isClosing valid, ← Rune.eq_char rfl valid]
    rfl
  · have noString := cut_isNoString isQuote rest
    rw [isToken] at noString
    exact absurd rfl noString

end Piece

/-! ## Slices -/

/-- The token is a name, and its last letter is no ASCII letter. -/
def Token.EndsAccented (token : Token) : Prop :=
  token.kind = .identifier ∧ ∃ c ∈ token.literal.toList.getLast?, c ∈ accentedLetters

/-- The slice of a token holds all bytes of its lexeme but those behind the first of the last rune. -/
theorem Token.Covers.slice_eq
    {input : Bytes}
    {token : Token}
    {before front behind : Source}
    {last : Rune}
    (covers : token.Covers input before (front ++ [last]))
    (whole : before ++ (front ++ [last] ++ behind) = .ofBytes input) :
    token.slice input = front.toBytes ++ last.bytes.take 1 := by
  have bytes : input = before.toBytes ++ (front.toBytes ++ (last.bytes ++ behind.toBytes)) := by
    rw [← Source.toBytes_ofBytes input, ← whole, Source.toBytes_append, List.append_assoc,
      Source.toBytes_append, List.singleton_append]
    rfl
  have start : token.span.first.offset.toNat = before.toBytes.length := by
    rw [covers.first, Source.length_toBytes]
    rfl
  have stop : (token.span.last.offset + 1).toNat =
      before.toBytes.length + (front.toBytes.length + 1) := by
    rw [covers.last, List.dropLast_concat, Source.byteSize_append, Source.length_toBytes,
      Source.length_toBytes]
    rfl
  have present : 1 ≤ last.bytes.length := by
    rw [Rune.length_bytes]
    simpa [Source.byteSize_cons, Source.byteSize_nil] using Source.length_le_byteSize [last]
  simp only [slice, start, stop, Nat.add_sub_cancel_left]
  rw [bytes, List.drop_left, List.take_length_add_append, List.take_append_of_le_length present]

/-- The lexeme of a token that is no string has the bytes of its literal. -/
theorem ofString_literal
    {kind : TokenKind}
    {literal : String}
    {text : Source}
    (lexeme : Lexeme kind literal)
    (noString : kind ≠ .string)
    (spelled : literal = Source.shown text) :
    Source.ofString literal = text := by
  have sizes := (lexeme.utf8Size noString).1
  rw [spelled, Source.shown, String.toList_ofList] at sizes
  rw [spelled]
  refine Source.ofString_shown fun c member same => ?_
  rcases sizes c member with ascii | accented
  · rw [same] at ascii
    exact absurd ascii (by decide)
  · rw [same] at accented
    exact absurd accented (by decide)

/-- A character of one byte has no byte behind the first one. -/
theorem Rune.take_bytes_of_ascii
    {c : Char}
    (ascii : c.utf8Size = 1) :
    (Rune.char c).bytes.take 1 = (Rune.char c).bytes := by
  refine List.take_of_length_le ?_
  rw [Rune.length_bytes, Rune.width, ascii]

/-- A character of two bytes has one byte behind the first one. -/
theorem Rune.exists_take_bytes_of_wide
    {c : Char}
    (wide : c.utf8Size = 2) :
    ∃ byte, (Rune.char c).bytes = (Rune.char c).bytes.take 1 ++ [byte] := by
  have length : (Rune.char c).bytes.length = 2 := by
    rw [Rune.length_bytes, Rune.width, wide]
  obtain ⟨first, second, same⟩ := List.length_eq_two.mp length
  exact ⟨second, by rw [same]; rfl⟩

section Pieces

variable
    {input : Bytes}
    {front back : List Piece}
    {token : Token}
    {lexeme : Source}

/-- The slice of a token that is no string, at the place of its piece. -/
theorem slice_of_piece
    (cut : Lexer.pieces (.ofBytes input) =
      front ++ Piece.token token.kind token.literal lexeme :: back)
    (covers : token.Covers input (front.flatMap Piece.text) lexeme)
    (noString : token.kind ≠ .string) :
    lexeme = .ofString token.literal ∧
      (¬token.EndsAccented → token.slice input = lexeme.toBytes) ∧
      (token.EndsAccented → ∃ byte, lexeme.toBytes = token.slice input ++ [byte]) := by
  have whole := Lexer.text_pieces (.ofBytes input)
  have holds := Lexer.pieces_holdLexemes (.ofBytes input) (.token token.kind token.literal lexeme)
    (by simp [cut])
  rw [cut, List.flatMap_append, List.flatMap_cons, Piece.text] at whole
  have spelled := ofString_literal holds.1 noString (holds.2 noString)
  have sizes := holds.1.utf8Size noString
  rcases List.eq_nil_or_concat' token.literal.toList with empty | ⟨chars, c, literal⟩
  · refine absurd ?_ covers.nonempty
    rw [← spelled, Source.ofString, empty]
    rfl
  have isLast : token.literal.toList.getLast? = some c := by
    rw [literal, List.getLast?_concat]
  have shape : lexeme = chars.map .char ++ [.char c] := by
    rw [← spelled, Source.ofString, literal, List.map_append]
    rfl
  obtain rfl := shape
  have slice := covers.slice_eq whole
  rw [slice, Source.toBytes_append]
  refine ⟨spelled.symm, fun notAccented => ?_, fun endsAccented => ?_⟩
  · have ascii : c.utf8Size = 1 := by
      by_cases isName : token.kind = .identifier
      · refine (sizes.1 c (List.mem_of_getLast? isLast)).resolve_right fun accented => ?_
        exact notAccented ⟨isName, c, isLast, accented⟩
      · exact sizes.2 isName c isLast
    rw [Rune.take_bytes_of_ascii ascii]
    exact congrArg _ (List.append_nil _).symm
  · obtain ⟨-, letter, isLetter, accented⟩ := endsAccented
    cases isLast.symm.trans isLetter
    obtain ⟨byte, bytes⟩ := Rune.exists_take_bytes_of_wide (utf8Size_of_accented accented)
    refine ⟨byte, ?_⟩
    rw [List.append_assoc, ← bytes]
    exact congrArg _ (List.append_nil _)

/-- The slice of a string is its lexeme, and has the same quote at both ends. -/
theorem slice_of_stringPiece
    (cut : Lexer.pieces (.ofBytes input) =
      front ++ .token token.kind token.literal lexeme :: back)
    (covers : token.Covers input (front.flatMap Piece.text) lexeme)
    (isString : token.kind = .string) :
    token.slice input = lexeme.toBytes ∧
      ∃ quote inner, (quote = 0x22 ∨ quote = 0x27) ∧
        token.slice input = quote :: (inner ++ [quote]) := by
  have whole := Lexer.text_pieces (.ofBytes input)
  obtain ⟨first, rest, isCut⟩ := Lexer.exists_cut_of_mem_pieces
    (show Piece.token token.kind token.literal lexeme ∈ Lexer.pieces (.ofBytes input) by simp [cut])
  rw [isString] at isCut
  obtain ⟨quote, inner, isQuote, rfl⟩ := Piece.exists_quotes_of_cut isCut.symm
  rw [cut, List.flatMap_append, List.flatMap_cons, Piece.text, ← List.cons_append] at whole
  rw [← List.cons_append] at covers
  have slice := covers.slice_eq whole
  obtain ⟨byte, isByte, bytes⟩ : ∃ byte, (byte = 0x22 ∨ byte = 0x27) ∧
      (Rune.char quote).bytes = [byte] := by
    rcases isQuote with rfl | rfl
    · exact ⟨0x22, .inl rfl, by decide⟩
    · exact ⟨0x27, .inr rfl, by decide⟩
  have quotes : token.slice input = byte :: (Source.toBytes inner ++ [byte]) := by
    rw [slice, Source.toBytes_cons, bytes]
    rfl
  refine ⟨?_, byte, Source.toBytes inner, isByte, quotes⟩
  rw [quotes, Source.toBytes_cons, Source.toBytes_append, Source.toBytes_cons, bytes]
  rfl

end Pieces

/--
The slice of a token is its whole lexeme, unless it is a name that ends in an accented letter: the
slice of such a name lacks the last byte. The lexeme is the literal for all tokens but strings, and
the slice of a string starts and ends with the same quote.
-/
theorem Lexer.slice_of_lex
    {input : Bytes}
    {tokens : List Token}
    (lexed : lex (.ofBytes input) = .ok tokens)
    {token : Token}
    (member : token ∈ tokens)
    (notEnd : token.kind ≠ .endOfInput) :
    ∃ front lexeme back,
      pieces (.ofBytes input) = front ++ .token token.kind token.literal lexeme :: back ∧
      token.Covers input (front.flatMap Piece.text) lexeme ∧
      (token.slice input = lexeme.toBytes ↔ ¬token.EndsAccented) ∧
      (token.EndsAccented → ∃ byte, lexeme.toBytes = token.slice input ++ [byte]) ∧
      (token.kind ≠ .string → lexeme = .ofString token.literal) ∧
      (token.kind = .string → ∃ quote inner, (quote = 0x22 ∨ quote = 0x27) ∧
        token.slice input = quote :: (inner ++ [quote])) := by
  obtain ⟨front, lexeme, back, cut, span⟩ := exists_piece_of_lex lexed member notEnd
  have covers := covers_of_pieces cut span
  refine ⟨front, lexeme, back, cut, covers, ?_⟩
  by_cases isString : token.kind = .string
  · have noName : ¬token.EndsAccented := by
      rintro ⟨isName, -⟩
      rw [isString] at isName
      cases isName
    obtain ⟨whole, quotes⟩ := slice_of_stringPiece cut covers isString
    exact ⟨iff_of_true whole noName, fun accented => absurd accented noName,
      fun noString => absurd isString noString, fun _ => quotes⟩
  · obtain ⟨spelled, whole, short⟩ := slice_of_piece cut covers isString
    refine ⟨⟨fun same accented => ?_, whole⟩, short, fun _ => spelled,
      fun isString' => absurd isString' isString⟩
    obtain ⟨byte, longer⟩ := short accented
    rw [← same] at longer
    simp at longer

namespace Lexer

/-- A name that ends in an accented letter, and a string with such a letter at its end. -/
def accentedEnds : Bytes := [0xC3, 0xA0, 0x27, 0xC3, 0xA0, 0x27]

/-- The slice of the string is whole, and that of the name lacks a byte. -/
theorem slice_of_lex_accentedEnds :
    ∃ tokens, lex (.ofBytes accentedEnds) = .ok tokens ∧
      ∃ name ∈ tokens, ∃ text ∈ tokens, ∃ lexeme,
        lexeme = Source.ofString "à" ∧
        (name.slice accentedEnds = lexeme.toBytes ↔ ¬name.EndsAccented) ∧
        (∃ byte, lexeme.toBytes = name.slice accentedEnds ++ [byte]) ∧
        ∃ quote inner, (quote = 0x22 ∨ quote = 0x27) ∧
          text.slice accentedEnds = quote :: (inner ++ [quote]) := by
  have lexed : lex (.ofBytes accentedEnds) = .ok
      [⟨.identifier, "à", ⟨⟨0, 1, 0⟩, ⟨0, 1, 0⟩⟩⟩, ⟨.string, "à", ⟨⟨2, 1, 1⟩, ⟨5, 1, 3⟩⟩⟩,
        .endOfInput ⟨6, 1, 4⟩] := by
    have cut : pieces (.ofBytes accentedEnds) =
        [.token .identifier "à" [.char 'à'],
          .token .string "à" [.char '\'', .char 'à', .char '\'']] := by
      cbv
    rw [lex_eq_ok_iff, cut]
    exact ⟨by decide, by decide, by cbv⟩
  have accented : Token.EndsAccented ⟨.identifier, "à", ⟨⟨0, 1, 0⟩, ⟨0, 1, 0⟩⟩⟩ :=
    ⟨rfl, 'à', by decide, by decide⟩
  obtain ⟨-, lexeme, -, -, -, whole, short, spelled, -⟩ :=
    slice_of_lex lexed (List.mem_cons_self ..) (by decide)
  obtain ⟨-, -, -, -, -, -, -, -, quotes⟩ :=
    slice_of_lex lexed (List.mem_cons_of_mem _ (List.mem_cons_self ..)) (by decide)
  exact ⟨_, lexed, _, List.mem_cons_self .., _, List.mem_cons_of_mem _ (List.mem_cons_self ..),
    lexeme, spelled (by decide), whole, short accented, quotes rfl⟩

/-- The slice of a name that consists of one accented letter is not its literal. -/
theorem slice_ne_literal :
    ∃ tokens, lex (.ofBytes [0xC3, 0xA9]) = .ok tokens ∧
      ∃ token ∈ tokens, token.kind = .identifier ∧ token.literal = "é" ∧
        token.slice [0xC3, 0xA9] = [0xC3] ∧
        token.slice [0xC3, 0xA9] ≠ (Source.ofString token.literal).toBytes := by
  have lexed : lex (.ofBytes [0xC3, 0xA9]) = .ok
      [⟨.identifier, "é", ⟨⟨0, 1, 0⟩, ⟨0, 1, 0⟩⟩⟩, .endOfInput ⟨2, 1, 1⟩] := by
    have cut : pieces (.ofBytes [0xC3, 0xA9]) = [.token .identifier "é" [.char 'é']] := by
      cbv
    rw [lex_eq_ok_iff, cut]
    exact ⟨by decide, by decide, by cbv⟩
  exact ⟨_, lexed, _, List.mem_cons_self .., rfl, rfl, by decide, by decide⟩

end Lexer

end FrenchNim
