import FrenchNim.Proofs.Syntax.Tokens
import FrenchNim.Proofs.Token.Lexemes
import FrenchNim.Text.Quoted

namespace FrenchNim

/-!
# Texts that spell tokens

A text spells tokens if the scanner finds them at its start, whatever follows,
provided that what follows does not run into the last token. A text ends its
tokens if this proviso is not needed. Spelled texts can be put together.
-/

/-- What follows does not continue a word or a number. -/
def Apart : List Char → Prop
  | [] => True
  | [c] => Piece.continuesWord c = false
  | c :: next :: _ => Piece.continuesWord c = false ∧ (c = '.' → isDigit next = false)

/-- The tokens stand at the start of the text if what follows keeps apart. -/
def Spells (text : String) (tokens : List Token) : Prop :=
  ∀ rest, Apart rest →
    Lexer.lexemes (text.toList ++ rest) = (Lexer.lexemes rest).map (tokens ++ ·)

/-- The tokens stand at the start of the text whatever follows. -/
def Ends (text : String) (tokens : List Token) : Prop :=
  ∀ rest, Lexer.lexemes (text.toList ++ rest) = (Lexer.lexemes rest).map (tokens ++ ·)

/-- The text keeps apart from what stands before it, whatever follows. -/
def Parts (text : String) : Prop :=
  ∀ rest, Apart (text.toList ++ rest)

/-- A character that neither continues a word nor is a dot keeps apart. -/
theorem apart_cons
    {c : Char}
    (noWord : Piece.continuesWord c = false)
    (noDot : c ≠ '.')
    (rest : List Char) :
    Apart (c :: rest) := by
  cases rest with
  | nil => exact noWord
  | cons next rest => exact ⟨noWord, fun isDot => (noDot isDot).elim⟩

/-- What ends whatever follows is spelled where something keeps apart. -/
theorem Ends.spells {text : String} {tokens : List Token} (ends : Ends text tokens) :
    Spells text tokens :=
  fun rest _ => ends rest

/-- An empty text ends without a token. -/
theorem ends_nil : Ends "" [] := by
  intro rest
  simp

/-- Texts that end, in a row, have the tokens of both. -/
theorem Ends.append
    {first second : String}
    {tokens more : List Token}
    (ends : Ends first tokens)
    (endsMore : Ends second more) :
    Ends (first ++ second) (tokens ++ more) := by
  intro rest
  rw [String.toList_append, List.append_assoc, ends, endsMore, Option.map_map]
  simp [Function.comp_def]

/-- Behind a text that ends, any text is spelled. -/
theorem Ends.append_spells
    {first second : String}
    {tokens more : List Token}
    (ends : Ends first tokens)
    (spells : Spells second more) :
    Spells (first ++ second) (tokens ++ more) := by
  intro rest apart
  rw [String.toList_append, List.append_assoc, ends, spells rest apart, Option.map_map]
  simp [Function.comp_def]

/-- A text is spelled before one that keeps apart from it. -/
theorem Spells.append
    {first second : String}
    {tokens more : List Token}
    (spells : Spells first tokens)
    (parts : Parts second)
    (spellsMore : Spells second more) :
    Spells (first ++ second) (tokens ++ more) := by
  intro rest apart
  rw [String.toList_append, List.append_assoc, spells _ (parts rest), spellsMore rest apart,
    Option.map_map]
  simp [Function.comp_def]

/-- A text ends if its last part keeps apart and ends. -/
theorem Spells.append_ends
    {first second : String}
    {tokens more : List Token}
    (spells : Spells first tokens)
    (parts : Parts second)
    (endsMore : Ends second more) :
    Ends (first ++ second) (tokens ++ more) := by
  intro rest
  rw [String.toList_append, List.append_assoc, spells _ (parts rest), endsMore rest,
    Option.map_map]
  simp [Function.comp_def]

/-- A text keeps apart if its beginning does. -/
theorem Parts.append {first : String} (parts : Parts first) (second : String) :
    Parts (first ++ second) := by
  intro rest
  rw [String.toList_append, List.append_assoc]
  exact parts _

/-! ## Single tokens -/

namespace Lexer

/-- A piece that is a token gives this token. -/
theorem lexemes_token
    {c : Char}
    {more rest : List Char}
    {kind : TokenKind}
    {literal : String}
    {text : Source}
    (isCut : Piece.cut (.char c) (more.map .char) = (.token kind literal text, rest.map .char)) :
    lexemes (c :: more) = (lexemes rest).map (.bare kind literal :: ·) := by
  unfold lexemes
  rw [List.map_cons, pieces_cons, isCut]
  rfl

/-- A piece that is spelled by its text gives a token with this spelling. -/
theorem lexemes_spelled
    {c : Char}
    {more rest : List Char}
    {kind : TokenKind}
    {text : Source}
    (isCut : Piece.cut (.char c) (more.map .char) = (.spelled kind text, rest.map .char)) :
    lexemes (c :: more) = (lexemes rest).map (.bare kind text.shown :: ·) :=
  lexemes_token isCut

/-- Trivia gives no token. -/
theorem lexemes_trivia
    {c : Char}
    {more rest : List Char}
    {text : Source}
    (isCut : Piece.cut (.char c) (more.map .char) = (.trivia text, rest.map .char)) :
    lexemes (c :: more) = lexemes rest := by
  unfold lexemes
  rw [List.map_cons, pieces_cons, isCut]
  rfl

end Lexer

/-- Characters are shown as they are. -/
theorem shown_chars (text : List Char) : Source.shown (text.map .char) = String.ofList text := by
  rw [Source.shown, List.map_map]
  exact congrArg String.ofList (List.map_id text)

/-- A run among characters is their longest accepted beginning. -/
theorem run_chars (accept : Char → Bool) (text : List Char) :
    Piece.run accept (text.map .char) = (text.takeWhile accept).map .char := by
  unfold Piece.run
  rw [List.takeWhile_map]
  rfl

/-- Behind a run stands what is left of the characters. -/
theorem afterRun_chars (accept : Char → Bool) (text : List Char) :
    Piece.afterRun accept (text.map .char) = (text.dropWhile accept).map .char := by
  unfold Piece.afterRun
  rw [List.dropWhile_map]
  rfl

/-- An operator that looks at no further character. -/
theorem ends_operator
    {c : Char}
    {kind : TokenKind}
    (isOperator : ∀ next, operator? c next = some (kind, false)) :
    Ends (String.ofList [c]) [.bare kind (String.ofList [c])] := by
  intro rest
  rw [String.toList_ofList]
  have isCut : Piece.cut (.char c) (rest.map .char) =
      (.spelled kind [.char c], rest.map .char) := by
    unfold Piece.cut
    simp only [Rune.toChar, isOperator]
  exact Lexer.lexemes_spelled isCut

/-- A blank is cut off with all blanks behind it. -/
theorem cut_blank {blank : Char} (isBlank' : isBlank blank = true) (rest : Source) :
    Piece.cut (.char blank) rest =
      (.trivia (.char blank :: Piece.run isBlank rest), Piece.afterRun isBlank rest) := by
  have cases : blank = ' ' ∨ blank = '\t' ∨ blank = '\r' := by
    simpa [isBlank, or_assoc] using isBlank'
  rcases cases with rfl | rfl | rfl
  · rfl
  · rfl
  · rfl

/-- Blanks give no token. -/
theorem lexemes_blanks {blank : Char} (isBlank' : isBlank blank = true) (rest : List Char) :
    Lexer.lexemes (blank :: rest) = Lexer.lexemes (rest.dropWhile isBlank) := by
  have isCut := cut_blank isBlank' (rest.map .char)
  rw [afterRun_chars] at isCut
  exact Lexer.lexemes_trivia isCut

/-- A blank is skipped. -/
theorem ends_blank : Ends " " [] := by
  intro rest
  have skipped : Lexer.lexemes (rest.dropWhile isBlank) = Lexer.lexemes rest := by
    cases rest with
    | nil =>
        rfl
    | cons c rest =>
        by_cases isBlank' : isBlank c = true
        · rw [List.dropWhile_cons_of_pos isBlank', lexemes_blanks isBlank']
        · rw [List.dropWhile_cons_of_neg isBlank']
  have blank := lexemes_blanks (show isBlank ' ' = true from rfl) rest
  rw [skipped] at blank
  simpa using blank

/-- The characters that start neither a word nor a number. -/
def specialCharacters : List Char :=
  "+-()\x7b\x7d[],;:.@=!<>\n\"'/ \t\r".toList

/-- A character of a sign belongs to no word. -/
theorem continuesWord_special :
    ∀ c ∈ specialCharacters, Piece.continuesWord c = false := by
  have none : specialCharacters.all (!Piece.continuesWord ·) = true := by
    decide
  intro c special
  rw [← Bool.not_eq_true']
  exact List.all_eq_true.mp none c special

/-- No operator begins with another character. -/
theorem operator?_ordinary
    {c : Char}
    (ordinary : c ∉ specialCharacters)
    (next : Option Char) :
    operator? c next = none := by
  unfold operator?
  split
  all_goals first
    | rfl
    | exact absurd (by decide) ordinary

/-- Characters of signs are no others. -/
theorem ordinary_ne
    {c other : Char}
    (ordinary : c ∉ specialCharacters)
    (special : other ∈ specialCharacters) :
    c ≠ other := by
  rintro rfl
  exact ordinary special

/-- Any other character starts a word or a number, or it is skipped. -/
theorem cut_ordinary
    {rune : Rune}
    (ordinary : rune.toChar ∉ specialCharacters)
    (rest : Source) :
    Piece.cut rune rest =
      if isLetter rune.toChar then Piece.cutWord rune rest
      else if isDigit rune.toChar then Piece.cutNumber rune rest
      else (.trivia [rune], rest) := by
  have noQuote : ¬(rune.toChar = '"' || rune.toChar = '\'') = true := by
    simp [ordinary_ne ordinary (show '"' ∈ specialCharacters by decide),
      ordinary_ne ordinary (show '\'' ∈ specialCharacters by decide)]
  have noBlank : ¬isBlank rune.toChar = true := by
    simp [isBlank, ordinary_ne ordinary (show ' ' ∈ specialCharacters by decide),
      ordinary_ne ordinary (show '\t' ∈ specialCharacters by decide),
      ordinary_ne ordinary (show '\r' ∈ specialCharacters by decide)]
  unfold Piece.cut
  rw [operator?_ordinary ordinary]
  simp only [if_neg noQuote, if_neg (ordinary_ne ordinary (show '/' ∈ specialCharacters by decide)),
    if_neg noBlank]

/-- A letter begins a word. -/
theorem cut_letter {c : Char} (letter : isLetter c = true) (rest : Source) :
    Piece.cut (.char c) rest = Piece.cutWord (.char c) rest := by
  have ordinary : (Rune.char c).toChar ∉ specialCharacters := by
    intro special
    have noWord := continuesWord_special c special
    rw [Piece.continuesWord, letter, Bool.true_or] at noWord
    cases noWord
  exact (cut_ordinary ordinary rest).trans (if_pos letter)

/-- No letter is a digit. -/
theorem isDigit_of_isLetter {c : Char} (letter : isLetter c = true) : isDigit c = false := by
  have noAccent : accentedLetters.all (!isDigit ·) = true := by
    decide
  by_contra digit
  have bounds : '0' ≤ c ∧ c ≤ '9' := by
    simpa [isDigit] using digit
  simp only [isLetter, Bool.or_eq_true, Bool.and_eq_true, decide_eq_true_eq,
    List.contains_iff_mem] at letter
  rcases letter with ((small | large) | rfl) | accented
  · exact absurd (Char.le_trans small.1 bounds.2) (by decide)
  · exact absurd (Char.le_trans large.1 bounds.2) (by decide)
  · exact digit (by decide)
  · exact digit ((Bool.not_eq_true' _).mp (List.all_eq_true.mp noAccent c accented))

/-- A digit begins a number. -/
theorem cut_digit {c : Char} (digit : isDigit c = true) (rest : Source) :
    Piece.cut (.char c) rest = Piece.cutNumber (.char c) rest := by
  have ordinary : (Rune.char c).toChar ∉ specialCharacters := by
    intro special
    have noWord := continuesWord_special c special
    rw [Piece.continuesWord, digit, Bool.or_true] at noWord
    cases noWord
  have noLetter : ¬isLetter c = true := by
    intro letter
    rw [isDigit_of_isLetter letter] at digit
    cases digit
  exact (cut_ordinary ordinary rest).trans ((if_neg noLetter).trans (if_pos digit))

/-- What keeps apart does not continue a word. -/
theorem Apart.head
    {rest : List Char}
    (apart : Apart rest) :
    ∀ c ∈ rest.head?, Piece.continuesWord c = false := by
  match rest, apart with
  | [], _ => simp
  | [c], apart => simpa [Apart] using apart
  | c :: next :: rest, apart => simpa using apart.1

/-- A run ends where something keeps apart from it. -/
theorem takeWhile_apart
    {accept : Char → Bool}
    {text rest : List Char}
    (accepted : ∀ c ∈ text, accept c = true)
    (refused : ∀ c ∈ rest.head?, accept c = false) :
    (text ++ rest).takeWhile accept = text ∧ (text ++ rest).dropWhile accept = rest := by
  rw [List.takeWhile_append_of_pos accepted, List.dropWhile_append_of_pos accepted]
  cases rest with
  | nil =>
      simp
  | cons c rest =>
      simp [refused c rfl]

/-- A word spells its token. -/
theorem spells_word {word : String} (isWord : IsWord word.toList) :
    Spells word [.bare (Keyword.kindOf word) word] := by
  intro rest apart
  cases chars : word.toList with
  | nil =>
      rw [chars] at isWord
      exact isWord.elim
  | cons first more =>
      rw [chars] at isWord
      obtain ⟨letter, continues⟩ := isWord
      obtain ⟨taken, left⟩ := takeWhile_apart continues apart.head
      have isCut := cut_letter letter ((more ++ rest).map .char)
      rw [Piece.cutWord, run_chars, afterRun_chars, taken, left] at isCut
      have shown : Source.shown (.char first :: more.map .char) = word := by
        rw [← List.map_cons, shown_chars, ← chars, String.ofList_toList]
      have spelled := Lexer.lexemes_spelled isCut
      rw [shown] at spelled
      exact spelled

/-- What keeps apart is no digit. -/
theorem Apart.noDigit
    {rest : List Char}
    (apart : Apart rest) :
    ∀ c ∈ rest.head?, isDigit c = false := by
  intro c isHead
  have noWord := apart.head c isHead
  rw [Piece.continuesWord, Bool.or_eq_false_iff] at noWord
  exact noWord.2

/-- A run of digits is a number if what follows keeps apart. -/
theorem cutNumber_digits
    {first : Char}
    {more rest : List Char}
    (digits : ∀ c ∈ more, isDigit c = true)
    (apart : Apart rest) :
    Piece.cutNumber (.char first) ((more ++ rest).map .char) =
      (.spelled .number ((first :: more).map .char), rest.map .char) := by
  obtain ⟨taken, left⟩ := takeWhile_apart digits apart.noDigit
  unfold Piece.cutNumber
  rw [run_chars, afterRun_chars, taken, left]
  match rest, apart with
  | [], _ => rfl
  | [c], _ => rfl
  | c :: next :: rest, ⟨_, noFraction⟩ =>
      have noDot : ¬(c = '.' && isDigit next) = true := by
        rw [Bool.and_eq_true, decide_eq_true_eq]
        rintro ⟨isDot, isDigit'⟩
        rw [noFraction isDot] at isDigit'
        cases isDigit'
      exact if_neg noDot

/-- Digits, a dot and digits are a number if what follows keeps apart. -/
theorem cutNumber_fraction
    {first digit : Char}
    {more fraction rest : List Char}
    (digits : ∀ c ∈ more, isDigit c = true)
    (isFraction : ∀ c ∈ digit :: fraction, isDigit c = true)
    (apart : Apart rest) :
    Piece.cutNumber (.char first) ((more ++ '.' :: digit :: fraction ++ rest).map .char) =
      (.spelled .number ((first :: more ++ '.' :: digit :: fraction).map .char),
        rest.map .char) := by
  obtain ⟨isDigit', digitsBehind⟩ := List.forall_mem_cons.mp isFraction
  obtain ⟨taken, left⟩ := takeWhile_apart digits
    (show ∀ c ∈ ('.' :: digit :: fraction ++ rest).head?, isDigit c = false by simp [isDigit])
  obtain ⟨takenBehind, leftBehind⟩ := takeWhile_apart digitsBehind apart.noDigit
  unfold Piece.cutNumber
  rw [List.append_assoc, run_chars, afterRun_chars, taken, left]
  have isDot : ('.' = '.' && isDigit digit) = true := by
    simpa using isDigit'
  refine (if_pos isDot).trans ?_
  rw [List.append_eq, run_chars, afterRun_chars, takenBehind, leftBehind]
  simp

/-- A numeral spells its token. -/
theorem spells_numeral {literal : String} (isNumeral : IsNumeral literal.toList) :
    Spells literal [.bare .number literal] := by
  intro rest apart
  have shown : Source.shown (literal.toList.map .char) = literal := by
    rw [shown_chars, String.ofList_toList]
  rcases isNumeral with digits | ⟨whole, fraction, chars, wholeDigits, fractionDigits⟩
  · obtain ⟨first, more, chars⟩ := List.exists_cons_of_ne_nil digits.1
    rw [chars] at digits shown ⊢
    obtain ⟨isFirst, isMore⟩ := List.forall_mem_cons.mp digits.2
    have isCut := (cut_digit isFirst ((more ++ rest).map .char)).trans
      (cutNumber_digits isMore apart)
    have spelled := Lexer.lexemes_spelled isCut
    rw [shown] at spelled
    exact spelled
  · obtain ⟨first, more, rfl⟩ := List.exists_cons_of_ne_nil wholeDigits.1
    obtain ⟨digit, fraction, rfl⟩ := List.exists_cons_of_ne_nil fractionDigits.1
    rw [chars] at shown ⊢
    obtain ⟨isFirst, isMore⟩ := List.forall_mem_cons.mp wholeDigits.2
    have isCut := (cut_digit isFirst _).trans
      (cutNumber_fraction isMore fractionDigits.2 apart)
    have spelled := Lexer.lexemes_spelled isCut
    rw [shown] at spelled
    exact spelled

/-- A character is escaped in a way that is undone, or it stands for itself. -/
theorem escape_cases (c : Char) :
    (∃ escaped, Quoted.escape c = ['\\', escaped] ∧ Piece.unescape escaped = c) ∨
      Quoted.escape c = [c] ∧ c ≠ '"' ∧ c ≠ '\\' := by
  unfold Quoted.escape
  split
  · exact .inl ⟨'n', rfl, rfl⟩
  · exact .inl ⟨'t', rfl, rfl⟩
  · exact .inl ⟨'r', rfl, rfl⟩
  · exact .inl ⟨'\\', rfl, rfl⟩
  · exact .inl ⟨'"', rfl, rfl⟩
  · next noBackslash noQuote =>
      exact .inr ⟨rfl, noQuote, noBackslash⟩

/-- A rune is escaped in a way that is undone, or it stands for itself. -/
theorem escapeRune_cases (rune : Rune) :
    (∃ escaped : Rune, Quoted.escapeRune rune = [.char '\\', escaped] ∧
      Piece.unescape escaped.toChar = rune.toChar) ∨
      Quoted.escapeRune rune = [rune] ∧ rune.toChar ≠ '"' ∧ rune.toChar ≠ '\\' := by
  cases rune with
  | char c =>
      rcases escape_cases c with ⟨escaped, isEscape, undone⟩ | ⟨isPlain, noQuote, noBackslash⟩
      · exact .inl ⟨.char escaped, by rw [Quoted.escapeRune, isEscape]; rfl, undone⟩
      · exact .inr ⟨by rw [Quoted.escapeRune, isPlain]; rfl, noQuote, noBackslash⟩
  | stray byte =>
      exact .inr ⟨rfl, show Rune.replacement ≠ '"' by decide,
        show Rune.replacement ≠ '\\' by decide⟩

/-- A text between quotes is cut as a whole, and what it is shown as is denoted. -/
theorem cutString_escapeRune (rest : Source) :
    ∀ (text : Source) (value : List Char) (covered : Source),
      ∃ whole, Piece.cutString '"' value covered
        (text.flatMap Quoted.escapeRune ++ .char '"' :: rest) =
          (.token .string (String.ofList (value.reverse ++ text.map Rune.toChar)) whole, rest)
  | [], value, covered => by
      have closed := Piece.cutString_closed value covered rest
        (show (Rune.char '"').toChar = '"' from rfl)
      rw [List.map_nil, List.append_nil]
      exact ⟨_, closed⟩
  | rune :: text, value, covered => by
      have collected : (rune.toChar :: value).reverse ++ text.map Rune.toChar =
          value.reverse ++ (rune :: text).map Rune.toChar := by
        simp
      rw [List.flatMap_cons]
      rcases escapeRune_cases rune with
        ⟨escaped, isEscape, undone⟩ | ⟨isPlain, noQuote, noBackslash⟩
      · obtain ⟨whole, later⟩ := cutString_escapeRune rest text (rune.toChar :: value)
          (escaped :: .char '\\' :: covered)
        have step := Piece.cutString_escaped value covered
          (text.flatMap Quoted.escapeRune ++ .char '"' :: rest)
          (show (Rune.char '\\').toChar ≠ '"' by decide) rfl escaped
        rw [undone, later, collected] at step
        rw [isEscape]
        exact ⟨whole, step⟩
      · obtain ⟨whole, later⟩ := cutString_escapeRune rest text (rune.toChar :: value)
          (rune :: covered)
        have step := Piece.cutString_plain value covered
          (text.flatMap Quoted.escapeRune ++ .char '"' :: rest) noQuote noBackslash
        rw [later, collected] at step
        rw [isPlain]
        exact ⟨whole, step⟩

/-- The escaped runes of a text without stray bytes are its escaped characters. -/
theorem flatMap_escapeRune_ofList (text : List Char) :
    (text.map Rune.char).flatMap Quoted.escapeRune = (text.flatMap Quoted.escape).map .char := by
  rw [List.flatMap_map, List.map_flatMap]
  rfl

/-- A text between quotes is cut as a whole. -/
theorem cutString_quoted (rest text value : List Char) (covered : Source) :
    ∃ whole, Piece.cutString '"' value covered
      ((text.flatMap Quoted.escape ++ '"' :: rest).map .char) =
        (.token .string (String.ofList (value.reverse ++ text)) whole, rest.map .char) := by
  obtain ⟨whole, isCut⟩ := cutString_escapeRune (rest.map .char) (text.map .char) value covered
  rw [flatMap_escapeRune_ofList, List.map_map,
    show Rune.toChar ∘ Rune.char = id from rfl, List.map_id] at isCut
  rw [List.map_append, List.map_cons]
  exact ⟨whole, isCut⟩

/-- A text between quotes spells its token. -/
theorem ends_quoted (value : String) : Ends (Quoted.literal value) [.bare .string value] := by
  intro rest
  obtain ⟨whole, isCut⟩ := cutString_quoted rest value.toList [] [.char '"']
  rw [List.reverse_nil, List.nil_append, String.ofList_toList] at isCut
  have spelled := Lexer.lexemes_token (c := '"') isCut
  rw [Quoted.literal, String.toList_ofList, Quoted.encode]
  simpa using spelled

/-! ## From spelled texts to tokens with positions -/

namespace Lexer

/-- Pieces that are all terminated have the tokens of their places, without the places. -/
theorem bareTokens_eq
    {all : List Piece}
    (terminated : ∀ piece ∈ all, piece.isTerminated = true)
    (position : Position) :
    bareTokens all = some ((tokensAt position all).map Token.erase) := by
  induction all generalizing position with
  | nil =>
      rfl
  | cons piece rest inductionHypothesis =>
      obtain ⟨first, later⟩ := List.forall_mem_cons.mp terminated
      cases piece with
      | trivia text =>
          exact inductionHypothesis later _
      | token kind literal text =>
          rw [bareTokens, inductionHypothesis later (position.after text)]
          rfl
      | unterminated text =>
          cases first

/-- Pieces with tokens are all terminated. -/
theorem isTerminated_of_bareTokens
    {all : List Piece}
    {tokens : List Token}
    (found : bareTokens all = some tokens) :
    ∀ piece ∈ all, piece.isTerminated = true := by
  induction all generalizing tokens with
  | nil =>
      simp
  | cons piece rest inductionHypothesis =>
      cases piece with
      | trivia text =>
          exact List.forall_mem_cons.mpr ⟨rfl, inductionHypothesis found⟩
      | token kind literal text =>
          obtain ⟨later, foundLater, -⟩ := Option.map_eq_some_iff.mp found
          exact List.forall_mem_cons.mpr ⟨rfl, inductionHypothesis foundLater⟩
      | unterminated text =>
          cases found

/-- The tokens of a text are not the end of the input. -/
theorem bareTokens_ne_endOfInput
    {text : Source}
    {tokens : List Token}
    (found : bareTokens (pieces text) = some tokens) :
    ∀ token ∈ tokens, token.kind ≠ .endOfInput := by
  have known := bareTokens_eq (isTerminated_of_bareTokens found) .start
  rw [found] at known
  cases known
  intro token member
  obtain ⟨placed, isPlaced, rfl⟩ := List.mem_map.mp member
  exact (tokensAt_lexemes (pieces_holdLexemes _) placed isPlaced).kind_ne_endOfInput

/-- A text whose tokens are not too many has them, with positions. -/
theorem lex_of_lexemes
    {text : String}
    {tokens : List Token}
    (spelled : lexemes text.toList = some tokens)
    (within : tokens.length ≤ tokenLimit) :
    ∃ placed, lex (.ofString text) = .ok placed ∧
      placed.map Token.erase = tokens ++ [Token.endOfInput .zero] := by
  have terminated := isTerminated_of_bareTokens spelled
  have known := bareTokens_eq terminated .start
  rw [show bareTokens (pieces (text.toList.map .char)) = some tokens from spelled] at known
  cases known
  rw [List.length_map] at within
  exact ⟨_, lex_eq_ok_iff.mpr ⟨terminated, within, rfl⟩, by rw [List.map_append]; rfl⟩

/-- The tokens of a text without their positions. -/
theorem lexemes_of_lex
    {text : String}
    {placed : List Token}
    (lexed : lex (.ofString text) = .ok placed) :
    ∃ tokens, lexemes text.toList = some tokens ∧
      placed.map Token.erase = tokens ++ [Token.endOfInput .zero] := by
  obtain ⟨terminated, -, rfl⟩ := lex_eq_ok_iff.mp lexed
  exact ⟨_, bareTokens_eq terminated .start, by rw [List.map_append]; rfl⟩

end Lexer

end FrenchNim
