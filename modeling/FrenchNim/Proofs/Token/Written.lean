import Mathlib
import FrenchNim.Grammar.RawCode
import FrenchNim.Grammar.Reading
import FrenchNim.Proofs.Token.Joining
import FrenchNim.Proofs.Token.Spelling

namespace FrenchNim

/-!
# Tokens that are written and scanned again

Embedded code is written token by token. The scanner finds the tokens of the
written text again, up to the first string that holds a quote or a backslash:
strings are written as they are, and the scanner gives both characters a meaning.
-/

namespace RawCode

/-- The text of tokens, with the gaps in front of them. -/
def writtenAll (wanted : Bool) : List Token → String
  | [] => ""
  | token :: rest => gap wanted token ++ written token ++ writtenAll (wantsGap token) rest

/-- A text that means itself between double quotes. -/
def IsPlain (value : String) : Prop :=
  ∀ c ∈ value.toList, c ≠ '"' ∧ c ≠ '\\'

instance (value : String) : Decidable (IsPlain value) :=
  inferInstanceAs (Decidable (∀ c ∈ value.toList, c ≠ '"' ∧ c ≠ '\\'))

/-- The strings among the tokens mean themselves between double quotes. -/
def PlainStrings (tokens : List Token) : Prop :=
  ∀ token ∈ tokens, token.kind = .string → IsPlain token.literal

end RawCode

/-! ## Strings between double quotes -/

namespace Piece

/-- A plain text between quotes is cut as a whole. -/
theorem cutString_plainText (rest : List Char) :
    ∀ (text value : List Char) (covered : Source),
      (∀ c ∈ text, c ≠ '"' ∧ c ≠ '\\') →
      ∃ whole, cutString '"' value covered ((text ++ '"' :: rest).map .char) =
        (.token .string (String.ofList (value.reverse ++ text)) whole, rest.map .char)
  | [], value, covered, _ => by
      rw [List.append_nil]
      exact ⟨_, cutString_closed value covered (rest.map .char) rfl⟩
  | c :: text, value, covered, plain => by
      obtain ⟨⟨noQuote, noBackslash⟩, plain⟩ := List.forall_mem_cons.mp plain
      obtain ⟨whole, later⟩ := cutString_plainText rest text (c :: value)
        (.char c :: covered) plain
      have step := cutString_plain value covered ((text ++ '"' :: rest).map .char)
        (show (Rune.char c).toChar ≠ '"' from noQuote) noBackslash
      have collected : (c :: value).reverse ++ text = value.reverse ++ c :: text := by
        simp
      rw [Rune.toChar, later, collected] at step
      exact ⟨whole, step⟩

/-- A text behind a quote is a string, or a string without an end. -/
theorem cutString_string (quote : Char) (value : List Char) (covered text : Source) :
    (∃ literal whole left,
      cutString quote value covered text = (.token .string literal whole, left)) ∨
    ∃ whole left, cutString quote value covered text = (.unterminated whole, left) := by
  fun_induction cutString quote value covered text with
  | case1 => exact .inr ⟨_, _, rfl⟩
  | case2 => exact .inl ⟨_, _, _, rfl⟩
  | case3 => exact .inr ⟨_, _, rfl⟩
  | case4 => assumption
  | case5 => assumption

/-- What was read of a string before stands at the start of its value. -/
theorem exists_value_of_cutString
    {quote : Char}
    {value : List Char}
    {covered text whole left : Source}
    {literal : String}
    (isCut : cutString quote value covered text = (.token .string literal whole, left)) :
    ∃ more, literal.toList = value.reverse ++ more := by
  fun_induction cutString quote value covered text with
  | case1 => cases isCut
  | case2 value covered rune rest isQuote =>
      cases isCut
      exact ⟨[], by simp⟩
  | case3 => cases isCut
  | case4 value covered rune noQuote escapes escaped rest inductionHypothesis =>
      obtain ⟨more, found⟩ := inductionHypothesis isCut
      exact ⟨_ :: more, by simpa using found⟩
  | case5 value covered rune rest noQuote plain inductionHypothesis =>
      obtain ⟨more, found⟩ := inductionHypothesis isCut
      exact ⟨_ :: more, by simpa using found⟩

/-- The next character of a string is told by the value that is read. -/
theorem eq_of_cutString
    {quote c other : Char}
    {value more : List Char}
    {covered text whole left : Source}
    (isCut : cutString quote (c :: value) covered text =
      (.token .string (String.ofList (value.reverse ++ other :: more)) whole, left)) :
    c = other := by
  obtain ⟨behind, found⟩ := exists_value_of_cutString isCut
  rw [String.toList_ofList, List.reverse_cons, List.append_assoc,
    List.append_cancel_left_eq] at found
  exact (List.cons.inj found).1.symm

/-- A string that is closed has the value that was read before. -/
theorem cutString_closed_ne
    {quote other : Char}
    {value more : List Char}
    {covered rest whole left : Source}
    {rune : Rune}
    (isQuote : rune.toChar = quote) :
    cutString quote value covered (rune :: rest) ≠
      (.token .string (String.ofList (value.reverse ++ other :: more)) whole, left) := by
  intro isCut
  rw [cutString_closed value covered rest isQuote] at isCut
  have literals := congrArg (fun piece : Piece × Source => piece.1) isCut
  injection literals with _ same
  have lengths := congrArg String.length same
  simp at lengths

/-- Only a backslash means a backslash behind a backslash. -/
theorem eq_of_unescape {c : Char} (isBackslash : unescape c = '\\') : c = '\\' := by
  unfold unescape at isBackslash
  split at isBackslash
  · exact absurd isBackslash (by decide)
  · exact absurd isBackslash (by decide)
  · exact absurd isBackslash (by decide)
  · exact isBackslash

/--
A string with a debt of backslashes never pays it: what is read from a text and
its closing quote is not the text with further backslashes in front of it.
-/
theorem cutString_ne_backslashes
    (rest : List Char)
    {whole left : Source} :
    ∀ (text value : List Char) (debt : Nat) (covered : Source),
      cutString '"' value covered ((text ++ '"' :: rest).map .char) ≠
        (.token .string
          (String.ofList (value.reverse ++ '\\' :: (List.replicate debt '\\' ++ text))) whole, left)
  | [], value, debt, covered => by
      exact cutString_closed_ne (show (Rune.char '"').toChar = '"' from rfl)
  | c :: text, value, debt, covered => by
      intro isCut
      rw [List.cons_append, List.map_cons] at isCut
      by_cases isQuote : (Rune.char c).toChar = '"'
      · exact (cutString_closed_ne isQuote isCut).elim
      by_cases isBackslash : (Rune.char c).toChar = '\\'
      · obtain rfl : c = '\\' := isBackslash
        cases text with
        | nil =>
            rw [List.nil_append, List.map_cons,
              cutString_escaped value covered _ isQuote rfl] at isCut
            exact absurd (eq_of_cutString isCut) (by decide)
        | cons escaped text =>
            rw [List.cons_append, List.map_cons,
              cutString_escaped value covered _ isQuote rfl] at isCut
            obtain rfl : escaped = '\\' := eq_of_unescape (eq_of_cutString isCut)
            -- Both backslashes of the text are read as one, so the debt grows by one.
            have grown : List.replicate debt '\\' ++ '\\' :: '\\' :: text =
                List.replicate (debt + 2) '\\' ++ text := by
              rw [← List.replicate_append_replicate, List.append_assoc]
              rfl
            have same : value.reverse ++ '\\' :: (List.replicate debt '\\' ++ '\\' :: '\\' :: text) =
                ('\\' :: value).reverse ++ '\\' :: (List.replicate (debt + 1) '\\' ++ text) := by
              rw [grown]
              simp [List.replicate_succ]
            rw [same] at isCut
            exact cutString_ne_backslashes rest text ('\\' :: value) (debt + 1) _ isCut
      · rw [cutString_plain value covered _ isQuote isBackslash] at isCut
        exact isBackslash (eq_of_cutString isCut)

/-- A text that is not plain is not what is read from it and a closing quote. -/
theorem plain_of_cutString
    (rest : List Char)
    {whole left : Source} :
    ∀ (text value : List Char) (covered : Source),
      cutString '"' value covered ((text ++ '"' :: rest).map .char) =
        (.token .string (String.ofList (value.reverse ++ text)) whole, left) →
      ∀ c ∈ text, c ≠ '"' ∧ c ≠ '\\'
  | [], _, _, _ => fun c member => (List.not_mem_nil member).elim
  | c :: text, value, covered, isCut => by
      rw [List.cons_append, List.map_cons] at isCut
      by_cases isQuote : (Rune.char c).toChar = '"'
      · exact (cutString_closed_ne isQuote isCut).elim
      by_cases isBackslash : (Rune.char c).toChar = '\\'
      · obtain rfl : c = '\\' := isBackslash
        cases text with
        | nil =>
            rw [List.nil_append, List.map_cons,
              cutString_escaped value covered _ isQuote rfl] at isCut
            exact absurd (eq_of_cutString isCut) (by decide)
        | cons escaped text =>
            rw [List.cons_append, List.map_cons,
              cutString_escaped value covered _ isQuote rfl] at isCut
            obtain rfl : escaped = '\\' := eq_of_unescape (eq_of_cutString isCut)
            have same : value.reverse ++ '\\' :: '\\' :: text =
                ('\\' :: value).reverse ++ '\\' :: (List.replicate 0 '\\' ++ text) := by
              simp
            rw [same] at isCut
            exact (cutString_ne_backslashes rest text ('\\' :: value) 0 _ isCut).elim
      · rw [cutString_plain value covered _ isQuote isBackslash] at isCut
        have same : value.reverse ++ c :: text = (c :: value).reverse ++ text := by
          simp
        rw [same] at isCut
        exact List.forall_mem_cons.mpr
          ⟨⟨isQuote, isBackslash⟩, plain_of_cutString rest text (c :: value) _ isCut⟩

end Piece

/-! ## Tokens in front of a gap -/

/-- The spelling of an operator is told by its kind, if that has no other spelling. -/
theorem Lexeme.literal_of_operator
    {kind : TokenKind}
    {literal : String}
    (lexeme : Lexeme kind literal)
    (spelling : String)
    (sole : ∀ entry ∈ operators, entry.1 = kind → entry.2 = spelling)
    (noKeyword : ∀ keyword ∈ Keyword.table, keyword.kind ≠ kind)
    (noOther : kind ≠ .identifier ∧ kind ≠ .string ∧ kind ≠ .number) :
    literal = spelling := by
  cases lexeme with
  | operator listed => exact sole _ listed rfl
  | string => exact absurd rfl noOther.2.1
  | word => exact (Keyword.kindOf_ne noKeyword noOther.1 _ rfl).elim
  | number => exact absurd rfl noOther.2.2

namespace Lexer

/-- An operator of one character. -/
theorem lexemes_operator
    {c : Char}
    {kind : TokenKind}
    {rest : List Char}
    (isOperator : operator? c rest.head? = some (kind, false)) :
    lexemes (c :: rest) = (lexemes rest).map (.bare kind (String.ofList [c]) :: ·) := by
  have next : (rest.map Rune.char).head?.map Rune.toChar = rest.head? := by
    cases rest <;> rfl
  have isCut : Piece.cut (.char c) (rest.map .char) =
      (.spelled kind [.char c], rest.map .char) := by
    unfold Piece.cut
    simp only [next, Rune.toChar, isOperator]
  exact lexemes_spelled isCut

/-- An operator of two characters. -/
theorem lexemes_longOperator
    {c second : Char}
    {kind : TokenKind}
    {rest : List Char}
    (isOperator : operator? c (some second) = some (kind, true)) :
    lexemes (c :: second :: rest) =
      (lexemes rest).map (.bare kind (String.ofList [c, second]) :: ·) := by
  have isCut : Piece.cut (.char c) ((second :: rest).map .char) =
      (.spelled kind [.char c, .char second], rest.map .char) := by
    unfold Piece.cut
    simp only [List.map_cons, List.head?_cons, Option.map_some, Rune.toChar, isOperator]
    rfl
  exact lexemes_spelled isCut

theorem lexemes_blank (rest : List Char) : lexemes (' ' :: rest) = lexemes rest := by
  have skipped := ends_blank rest
  simpa using skipped

end Lexer

namespace RawCode

/-- What follows a token that asks for a gap: nothing, a blank, or a token without a gap. -/
def Stops (rest : List Char) : Prop :=
  ∀ c ∈ rest.head?, c = ' ' ∨ c = ')' ∨ c = ','

theorem Stops.apart
    {rest : List Char}
    (stops : Stops rest) :
    Apart rest := by
  cases rest with
  | nil =>
      exact trivial
  | cons c rest =>
      rcases stops c rfl with rfl | rfl | rfl
      · exact apart_cons (by decide) (by decide) rest
      · exact apart_cons (by decide) (by decide) rest
      · exact apart_cons (by decide) (by decide) rest

/-- An operator is cut off in front of the next character. -/
def isCutBefore (next : Option Char) (entry : TokenKind × String) : Bool :=
  match entry.2.toList with
  | [c] => operator? c next = some (entry.1, false)
  | [c, second] => operator? c (some second) = some (entry.1, true)
  | _ => false

/-- No operator is continued by what follows a token. -/
theorem lexemes_listed
    {kind : TokenKind}
    {literal : String}
    {rest : List Char}
    (listed : (kind, literal) ∈ operators)
    (stops : Stops rest) :
    Lexer.lexemes (literal.toList ++ rest) =
      (Lexer.lexemes rest).map (.bare kind literal :: ·) := by
  have known : ∀ next ∈ [none, some ' ', some ')', some ','],
      operators.all (isCutBefore next) = true := by
    decide
  have isNext : rest.head? ∈ [none, some ' ', some ')', some ','] := by
    cases rest with
    | nil => simp
    | cons c rest => rcases stops c rfl with rfl | rfl | rfl <;> simp
  have isCut := List.all_eq_true.mp (known _ isNext) _ listed
  unfold isCutBefore at isCut
  split at isCut
  · next c spelled =>
      obtain rfl : literal = String.ofList [c] := by
        rw [← spelled, String.ofList_toList]
      rw [String.toList_ofList]
      exact Lexer.lexemes_operator (of_decide_eq_true isCut)
  · next c second spelled =>
      obtain rfl : literal = String.ofList [c, second] := by
        rw [← spelled, String.ofList_toList]
      rw [String.toList_ofList]
      exact Lexer.lexemes_longOperator (of_decide_eq_true isCut)
  · cases isCut

theorem written_of_ne
    {token : Token}
    (noString : token.kind ≠ .string) :
    written token = token.literal := by
  unfold written
  split
  · next isString => exact absurd isString noString
  · rfl

/-- A plain string is found again, whatever follows. -/
theorem lexemes_plainString
    {value : String}
    (plain : IsPlain value)
    (rest : List Char) :
    Lexer.lexemes ('"' :: (value.toList ++ '"' :: rest)) =
      (Lexer.lexemes rest).map (.bare .string value :: ·) := by
  obtain ⟨whole, isCut⟩ := Piece.cutString_plainText rest value.toList [] [.char '"'] plain
  rw [List.reverse_nil, List.nil_append, String.ofList_toList] at isCut
  exact Lexer.lexemes_token (show Piece.cut (.char '"') _ = _ from isCut)

/-- A written token is found again in front of a gap. -/
theorem lexemes_written
    {token : Token}
    {rest : List Char}
    (lexeme : Lexeme token.kind token.literal)
    (plain : token.kind = .string → IsPlain token.literal)
    (stops : Stops rest) :
    Lexer.lexemes ((written token).toList ++ rest) =
      (Lexer.lexemes rest).map (token.erase :: ·) := by
  obtain ⟨kind, literal, span⟩ := token
  change Lexer.lexemes ((written ⟨kind, literal, span⟩).toList ++ rest) =
    (Lexer.lexemes rest).map (.bare kind literal :: ·)
  by_cases isString : kind = .string
  · subst isString
    have found := lexemes_plainString (plain rfl) rest
    simpa [written] using found
  · rw [written_of_ne isString]
    cases lexeme with
    | operator listed => exact lexemes_listed listed stops
    | string => exact absurd rfl isString
    | @word text isWord =>
        have spelled : IsWord (String.ofList text).toList := by
          rwa [String.toList_ofList]
        exact spells_word spelled rest stops.apart
    | @number text isNumeral =>
        have spelled : IsNumeral (String.ofList text).toList := by
          rwa [String.toList_ofList]
        exact spells_numeral spelled rest stops.apart

/-! ## Written token lists -/

theorem writtenAll_cons (wanted : Bool) (token : Token) (rest : List Token) :
    (writtenAll wanted (token :: rest)).toList =
      (gap wanted token).toList ++
        ((written token).toList ++ (writtenAll (wantsGap token) rest).toList) := by
  rw [writtenAll, String.toList_append, String.toList_append, List.append_assoc]

/-- A gap is no token. -/
theorem lexemes_gap (wanted : Bool) (token : Token) (rest : List Char) :
    Lexer.lexemes ((gap wanted token).toList ++ rest) = Lexer.lexemes rest := by
  unfold gap
  split
  · exact Lexer.lexemes_blank rest
  · rfl

/-- The token behind one that asks for a gap is written with a gap or needs none. -/
theorem stops_writtenAll
    {tokens : List Token}
    (lexemes : ∀ token ∈ tokens, Lexeme token.kind token.literal) :
    Stops (writtenAll true tokens).toList := by
  cases tokens with
  | nil =>
      exact nofun
  | cons token rest =>
      have lexeme := lexemes token List.mem_cons_self
      rw [writtenAll_cons]
      by_cases isClosing : token.kind = .parenClose
      · rw [isClosing] at lexeme
        have literal := lexeme.literal_of_operator ")"
          (by decide) (by decide) (by decide)
        have written : written token = ")" := by
          rw [written_of_ne (by rw [isClosing]; decide), literal]
        simp [Stops, gap, isClosing, written]
      by_cases isComma : token.kind = .comma
      · rw [isComma] at lexeme
        have literal := lexeme.literal_of_operator ","
          (by decide) (by decide) (by decide)
        have written : written token = "," := by
          rw [written_of_ne (by rw [isComma]; decide), literal]
        simp [Stops, gap, isComma, written]
      · simp [Stops, gap, isClosing, isComma]

/-- A written token is found again in front of other written tokens. -/
theorem lexemes_written_append
    {token : Token}
    {rest : List Token}
    (lexemes : ∀ other ∈ token :: rest, Lexeme other.kind other.literal)
    (plain : token.kind = .string → IsPlain token.literal) :
    Lexer.lexemes ((written token).toList ++ (writtenAll (wantsGap token) rest).toList) =
      (Lexer.lexemes (writtenAll (wantsGap token) rest).toList).map (token.erase :: ·) := by
  obtain ⟨lexeme, later⟩ := List.forall_mem_cons.mp lexemes
  by_cases wants : wantsGap token = true
  · rw [wants]
    exact lexemes_written lexeme plain (stops_writtenAll later)
  -- No operator starts with an opening parenthesis or a comma and goes on.
  obtain ⟨kind, literal, span⟩ := token
  change Lexeme kind literal at lexeme
  have noGap : kind = .parenOpen ∨ kind = .comma := by
    by_contra other
    rw [not_or] at other
    exact wants (by simp [wantsGap, other])
  rcases noGap with rfl | rfl
  · obtain rfl := lexeme.literal_of_operator (String.ofList ['('])
      (by decide) (by decide) (by decide)
    rw [written_of_ne (show TokenKind.parenOpen ≠ .string by decide), String.toList_ofList]
    exact Lexer.lexemes_operator rfl
  · obtain rfl := lexeme.literal_of_operator (String.ofList [','])
      (by decide) (by decide) (by decide)
    rw [written_of_ne (show TokenKind.comma ≠ .string by decide), String.toList_ofList]
    exact Lexer.lexemes_operator rfl

/-- Written tokens are found again, if their strings are plain. -/
theorem lexemes_writtenAll
    {tokens : List Token}
    (lexemes : ∀ token ∈ tokens, Lexeme token.kind token.literal)
    (plain : PlainStrings tokens)
    (wanted : Bool) :
    Lexer.lexemes (writtenAll wanted tokens).toList = some (tokens.map Token.erase) := by
  induction tokens generalizing wanted with
  | nil =>
      exact congrArg Lexer.bareTokens Lexer.pieces_nil
  | cons token rest inductionHypothesis =>
      obtain ⟨plainFirst, plainLater⟩ := List.forall_mem_cons.mp plain
      have later := inductionHypothesis (List.forall_mem_cons.mp lexemes).2 plainLater
        (wantsGap token)
      rw [writtenAll_cons, lexemes_gap, lexemes_written_append lexemes plainFirst, later]
      rfl

/-- The first token of a text that starts with a quote is a string. -/
theorem exists_cutString_of_lexemes
    {first : Token}
    {text : List Char}
    {found : List Token}
    (isFound : Lexer.lexemes ('"' :: text) = some (first :: found)) :
    ∃ literal whole left,
      Piece.cutString '"' [] [.char '"'] (text.map .char) = (.token .string literal whole, left) ∧
        first = .bare .string literal := by
  have isCut : Piece.cut (.char '"') (text.map .char) =
      Piece.cutString '"' [] [.char '"'] (text.map .char) :=
    rfl
  unfold Lexer.lexemes at isFound
  rw [List.map_cons, Lexer.pieces_cons, isCut] at isFound
  rcases Piece.cutString_string '"' [] [.char '"'] (text.map .char) with
    ⟨literal, whole, left, isString⟩ | ⟨whole, left, isOpen⟩
  · rw [isString] at isFound
    obtain ⟨later, -, same⟩ := Option.map_eq_some_iff.mp isFound
    exact ⟨literal, whole, left, isString, (List.cons.inj same).1.symm⟩
  · rw [isOpen] at isFound
    cases isFound

theorem toList_written_string
    {token : Token}
    (isString : token.kind = .string) :
    (written token).toList = '"' :: (token.literal.toList ++ ['"']) := by
  simp [written, isString]

/-- A string that is found again between its quotes is plain. -/
theorem plain_of_lexemes_written
    {token : Token}
    {rest : List Char}
    {found : List Token}
    (isFound : Lexer.lexemes ((written token).toList ++ rest) = some (token.erase :: found))
    (isString : token.kind = .string) :
    IsPlain token.literal := by
  rw [toList_written_string isString, List.cons_append, List.append_assoc] at isFound
  obtain ⟨literal, whole, left, isCut, same⟩ := exists_cutString_of_lexemes isFound
  obtain rfl : token.literal = literal := congrArg Token.literal same
  exact Piece.plain_of_cutString rest token.literal.toList [] [.char '"']
    (by rwa [List.reverse_nil, List.nil_append, String.ofList_toList])

/-- Written tokens that are found again have plain strings. -/
theorem plainStrings_of_lexemes_writtenAll
    {tokens found : List Token}
    (lexemes : ∀ token ∈ tokens, Lexeme token.kind token.literal)
    (wanted : Bool)
    (isFound : Lexer.lexemes (writtenAll wanted tokens).toList = some found)
    (again : tokens.map Token.erase <+: found) :
    PlainStrings tokens := by
  induction tokens generalizing wanted found with
  | nil =>
      exact fun token member => (List.not_mem_nil member).elim
  | cons token rest inductionHypothesis =>
      obtain ⟨behind, rfl⟩ := again
      rw [writtenAll_cons, lexemes_gap] at isFound
      have plain := plain_of_lexemes_written isFound
      rw [lexemes_written_append lexemes plain] at isFound
      obtain ⟨later, isLater, same⟩ := Option.map_eq_some_iff.mp isFound
      exact List.forall_mem_cons.mpr ⟨plain, inductionHypothesis
        (List.forall_mem_cons.mp lexemes).2 _ isLater ⟨behind, (List.cons.inj same).2.symm⟩⟩

/-- The first token that is found has the kind of the first one that is written. -/
theorem kind_of_lexemes_writtenAll
    {token first : Token}
    {rest found : List Token}
    {wanted : Bool}
    (lexemes : ∀ other ∈ token :: rest, Lexeme other.kind other.literal)
    (isFound : Lexer.lexemes (writtenAll wanted (token :: rest)).toList = some (first :: found)) :
    first.kind = token.kind := by
  rw [writtenAll_cons, lexemes_gap] at isFound
  by_cases isString : token.kind = .string
  · rw [toList_written_string isString] at isFound
    obtain ⟨literal, -, -, -, same⟩ := exists_cutString_of_lexemes isFound
    rw [same, isString]
    rfl
  · rw [lexemes_written_append lexemes fun string => absurd string isString] at isFound
    obtain ⟨later, -, same⟩ := Option.map_eq_some_iff.mp isFound
    rw [← (List.cons.inj same).1]
    rfl

/-! ## White space around written tokens -/

/-- Tokens without the line breaks at both ends. -/
def trimNewlines (tokens : List Token) : List Token :=
  (Grammar.skipNewlines tokens).rdropWhile (·.kind = .newline)

/-- A list has what is dropped from it around what is left, and that drops nothing more. -/
theorem exists_trimmed (accept : α → Bool) (all : List α) :
    ∃ front back, all = front ++ ((all.dropWhile accept).rdropWhile accept ++ back) ∧
      (∀ value ∈ front, accept value) ∧ (∀ value ∈ back, accept value) ∧
      (∀ value ∈ ((all.dropWhile accept).rdropWhile accept).head?, ¬accept value) ∧
      ∀ value ∈ ((all.dropWhile accept).rdropWhile accept).getLast?, ¬accept value := by
  have whole := @List.rdropWhile_append_rtakeWhile _ accept (all.dropWhile accept)
  refine ⟨all.takeWhile accept, (all.dropWhile accept).rtakeWhile accept, ?_,
    fun value member => List.mem_takeWhile_imp member,
    fun value member => List.mem_rtakeWhile_imp member,
    fun value isHead => ?_, fun value isLast => ?_⟩
  · rw [whole, List.takeWhile_append_dropWhile]
  · have first := List.head?_dropWhile_not accept all
    rw [← whole, List.head?_append, Option.mem_def.mp isHead] at first
    exact (Bool.not_eq_true _).mpr first
  · obtain ⟨present, rfl⟩ := List.mem_getLast?_eq_getLast isLast
    exact List.rdropWhile_last_not accept _ present

/-- A token list has line breaks around its trimmed part, and that has none at its ends. -/
theorem exists_trimNewlines (tokens : List Token) :
    ∃ front back, tokens = front ++ (trimNewlines tokens ++ back) ∧
      (∀ token ∈ front, token.kind = .newline) ∧ (∀ token ∈ back, token.kind = .newline) ∧
      (∀ token ∈ (trimNewlines tokens).head?, token.kind ≠ .newline) ∧
      ∀ token ∈ (trimNewlines tokens).getLast?, token.kind ≠ .newline := by
  have trimmed := exists_trimmed (fun token : Token => token.kind = .newline) tokens
  simp only [decide_eq_true_eq] at trimmed
  exact trimmed

/-- A text that neither starts nor ends with white space. -/
structure IsFramed (text : List Char) : Prop where
  head : ∀ c ∈ text.head?, isWhiteSpace c = false
  last : ∀ c ∈ text.getLast?, isWhiteSpace c = false

/-- White space around a text is dropped. -/
theorem trimSpace_append
    {lead core trail : List Char}
    (isLead : ∀ c ∈ lead, isWhiteSpace c = true)
    (isTrail : ∀ c ∈ trail, isWhiteSpace c = true)
    (framed : IsFramed core) :
    trimSpace (lead ++ (core ++ trail)) = core := by
  have stays : ∀ text : List Char, (∀ c ∈ text.head?, isWhiteSpace c = false) →
      text.dropWhile isWhiteSpace = text := by
    intro text starts
    cases text with
    | nil => rfl
    | cons c rest => exact List.dropWhile_cons_of_neg (by simp [starts c rfl])
  have trailReversed : ∀ c ∈ trail.reverse, isWhiteSpace c = true := fun c member =>
    isTrail c (List.mem_reverse.mp member)
  rw [trimSpace, List.dropWhile_append_of_pos isLead]
  rcases List.eq_nil_or_concat' core with rfl | ⟨front, final, rfl⟩
  · rw [List.nil_append, List.dropWhile_eq_nil_iff.mpr isTrail]
    rfl
  · have isFirst : ∀ c ∈ (front ++ [final] ++ trail).head?, isWhiteSpace c = false := by
      intro c isHead
      refine framed.head c ?_
      cases front with
      | nil => exact isHead
      | cons first rest => exact isHead
    rw [stays _ isFirst, List.reverse_append, List.dropWhile_append_of_pos trailReversed,
      stays _ fun c isHead => framed.last c (List.head?_reverse.symm.trans isHead),
      List.reverse_reverse]

theorem IsFramed.of_visible
    {text : List Char}
    (visible : ∀ c ∈ text, isWhiteSpace c = false) :
    IsFramed text where
  head := fun c isHead => visible c (List.mem_of_head? isHead)
  last := fun c isLast => visible c (List.mem_of_getLast? isLast)

/-- Whatever continues a word is visible. -/
theorem isWhiteSpace_of_continuesWord
    {c : Char}
    (continues : Piece.continuesWord c = true) :
    isWhiteSpace c = false := by
  by_contra white
  rw [Bool.not_eq_false] at white
  have noDigit : isDigit c = false :=
    not_between_of_isWhiteSpace white (by decide) (by decide)
  simp [Piece.continuesWord, isLetter_of_isWhiteSpace white, noDigit] at continues

/-- Numbers, words and operators but the line break are visible. -/
theorem isWhiteSpace_of_lexeme
    {kind : TokenKind}
    {literal : String}
    (lexeme : Lexeme kind literal)
    (noString : kind ≠ .string)
    (noBreak : kind ≠ .newline) :
    literal.toList ≠ [] ∧ ∀ c ∈ literal.toList, isWhiteSpace c = false := by
  have digits : ∀ {text : List Char}, IsDigits text → ∀ c ∈ text, isWhiteSpace c = false := by
    intro text isDigits c member
    refine isWhiteSpace_of_continuesWord ?_
    simp [Piece.continuesWord, isDigits.2 c member]
  cases lexeme with
  | operator listed =>
      have visible : ∀ entry ∈ operators, entry.1 ≠ .newline →
          entry.2.toList ≠ [] ∧ entry.2.toList.any isWhiteSpace = false := by
        decide
      obtain ⟨present, noneWhite⟩ := visible _ listed noBreak
      exact ⟨present, fun c member => Bool.eq_false_iff.mpr (List.any_eq_false.mp noneWhite c member)⟩
  | string => exact absurd rfl noString
  | @word text isWord =>
      rw [String.toList_ofList]
      cases text with
      | nil => exact isWord.elim
      | cons first rest =>
          refine ⟨List.cons_ne_nil _ _, List.forall_mem_cons.mpr
            ⟨isWhiteSpace_of_continuesWord ?_,
              fun c member => isWhiteSpace_of_continuesWord (isWord.2 c member)⟩⟩
          simp [Piece.continuesWord, isWord.1]
  | @number text isNumeral =>
      rw [String.toList_ofList]
      rcases isNumeral with whole | ⟨whole, fraction, rfl, isWhole, isFraction⟩
      · exact ⟨whole.1, digits whole⟩
      · refine ⟨by simp, List.forall_mem_append.mpr ⟨digits isWhole, ?_⟩⟩
        exact List.forall_mem_cons.mpr ⟨by decide, digits isFraction⟩

/-- The text of a token that is no line break is framed and not empty. -/
theorem isFramed_written
    {token : Token}
    (lexeme : Lexeme token.kind token.literal)
    (noBreak : token.kind ≠ .newline) :
    (written token).toList ≠ [] ∧ IsFramed (written token).toList := by
  by_cases isString : token.kind = .string
  · rw [toList_written_string isString, ← List.cons_append]
    refine ⟨by simp, fun c isHead => ?_, fun c isLast => ?_⟩
    · obtain rfl : '"' = c := Option.some.inj isHead
      decide
    · rw [List.getLast?_concat] at isLast
      obtain rfl : '"' = c := Option.some.inj isLast
      decide
  · rw [written_of_ne isString]
    obtain ⟨present, visible⟩ := isWhiteSpace_of_lexeme lexeme isString noBreak
    exact ⟨present, .of_visible visible⟩

/-- The text of a token list is that of its first part, and of its second part behind a gap. -/
theorem exists_writtenAll_append (wanted : Bool) (front back : List Token) :
    ∃ other, writtenAll wanted (front ++ back) = writtenAll wanted front ++ writtenAll other back := by
  induction front generalizing wanted with
  | nil =>
      exact ⟨wanted, by simp [writtenAll]⟩
  | cons token rest inductionHypothesis =>
      obtain ⟨other, later⟩ := inductionHypothesis (wantsGap token)
      exact ⟨other, by simp [writtenAll, later, String.append_assoc]⟩

/-- A gap is white space. -/
theorem isWhiteSpace_gap (wanted : Bool) (token : Token) :
    ∀ c ∈ (gap wanted token).toList, isWhiteSpace c = true := by
  unfold gap
  split
  · simp [isWhiteSpace]
  · simp

/-- The text of tokens may have a gap in front of it. -/
theorem exists_gap_writtenAll (wanted : Bool) (tokens : List Token) :
    ∃ lead, (writtenAll wanted tokens).toList = lead ++ (writtenAll false tokens).toList ∧
      ∀ c ∈ lead, isWhiteSpace c = true := by
  cases tokens with
  | nil =>
      exact ⟨[], rfl, nofun⟩
  | cons token rest =>
      refine ⟨(gap wanted token).toList, ?_, isWhiteSpace_gap wanted token⟩
      rw [writtenAll_cons, writtenAll_cons]
      rfl

/-- Line breaks are written as white space. -/
theorem isWhiteSpace_writtenAll
    {tokens : List Token}
    (breaks : ∀ token ∈ tokens, token.kind = .newline ∧ Lexeme token.kind token.literal)
    (wanted : Bool) :
    ∀ c ∈ (writtenAll wanted tokens).toList, isWhiteSpace c = true := by
  induction tokens generalizing wanted with
  | nil =>
      exact nofun
  | cons token rest inductionHypothesis =>
      obtain ⟨⟨isBreak, lexeme⟩, later⟩ := List.forall_mem_cons.mp breaks
      have spelled : written token = "\n" := by
        rw [written_of_ne (by rw [isBreak]; decide)]
        rw [isBreak] at lexeme
        exact lexeme.literal_of_newline
      rw [writtenAll_cons, spelled]
      refine List.forall_mem_append.mpr ⟨isWhiteSpace_gap wanted token, ?_⟩
      exact List.forall_mem_append.mpr ⟨by simp [isWhiteSpace], inductionHypothesis later _⟩

/-- Tokens without line breaks at both ends are written without white space at both ends. -/
theorem isFramed_writtenAll
    {tokens : List Token}
    (lexemes : ∀ token ∈ tokens, Lexeme token.kind token.literal)
    (first : ∀ token ∈ tokens.head?, token.kind ≠ .newline)
    (last : ∀ token ∈ tokens.getLast?, token.kind ≠ .newline) :
    IsFramed (writtenAll false tokens).toList where
  head := by
    cases tokens with
    | nil =>
        exact nofun
    | cons token rest =>
        obtain ⟨present, framed⟩ :=
          isFramed_written (lexemes token List.mem_cons_self) (first token rfl)
        intro c isHead
        rw [writtenAll_cons, show (gap false token).toList = [] from rfl, List.nil_append,
          List.head?_append_of_ne_nil _ present] at isHead
        exact framed.head c isHead
  last := by
    rcases List.eq_nil_or_concat' tokens with rfl | ⟨front, token, rfl⟩
    · exact nofun
    · obtain ⟨present, framed⟩ :=
        isFramed_written (lexemes token (by simp)) (last token List.getLast?_concat)
      obtain ⟨wanted, split⟩ := exists_writtenAll_append false front [token]
      intro c isLast
      rw [split, String.toList_append, writtenAll_cons, writtenAll, String.toList_empty,
        List.append_nil, List.getLast?_append_of_ne_nil _ (by simp [present]),
        List.getLast?_append_of_ne_nil _ present] at isLast
      exact framed.last c isLast

/-- Line breaks at both ends of a token list are trimmed with the text. -/
theorem trimText_writtenAll
    {tokens : List Token}
    (lexemes : ∀ token ∈ tokens, Lexeme token.kind token.literal) :
    trimText (writtenAll false tokens) = writtenAll false (trimNewlines tokens) := by
  obtain ⟨front, back, split, isFront, isBack, first, last⟩ := exists_trimNewlines tokens
  have known : ∀ part, part <:+: tokens → ∀ token ∈ part, Lexeme token.kind token.literal :=
    fun part isPart token member => lexemes token (isPart.subset member)
  have framed := isFramed_writtenAll
    (known (trimNewlines tokens) ⟨front, back, by rw [List.append_assoc, ← split]⟩) first last
  obtain ⟨wanted, headSplit⟩ := exists_writtenAll_append false front (trimNewlines tokens ++ back)
  obtain ⟨other, tailSplit⟩ := exists_writtenAll_append wanted (trimNewlines tokens) back
  obtain ⟨lead, gapSplit, isLead⟩ := exists_gap_writtenAll wanted (trimNewlines tokens)
  have text : (writtenAll false tokens).toList =
      ((writtenAll false front).toList ++ lead) ++
        ((writtenAll false (trimNewlines tokens)).toList ++ (writtenAll other back).toList) := by
    conv_lhs => rw [split]
    rw [headSplit, tailSplit, String.toList_append, String.toList_append, gapSplit]
    simp only [List.append_assoc]
  have isFrontText := @isWhiteSpace_writtenAll front
    (fun token member => ⟨isFront token member,
      known front ⟨[], _, by rw [List.nil_append, ← split]⟩ token member⟩) false
  have isBackText := @isWhiteSpace_writtenAll back
    (fun token member => ⟨isBack token member,
      known back ⟨front ++ trimNewlines tokens, [], by
        rw [List.append_nil, List.append_assoc, ← split]⟩ token member⟩) other
  rw [trimText, text, trimSpace_append (List.forall_mem_append.mpr ⟨isFrontText, isLead⟩)
    isBackText framed, String.ofList_toList]

end RawCode

end FrenchNim
