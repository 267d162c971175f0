import Mathlib.Data.List.TakeWhile
import FrenchNim.Proofs.Token.Pieces

namespace FrenchNim

/-!
# Lexemes

Which kinds and literals the tokens of a text can have. A word has the kind of
its keyword or is an identifier, a numeral is a run of digits with an optional
fraction, a string denotes any text, and everything else is an operator.
-/

/-- A letter and further letters and digits. -/
def IsWord : List Char → Prop
  | [] => False
  | first :: rest => isLetter first = true ∧ ∀ c ∈ rest, Piece.continuesWord c = true

/-- At least one digit and nothing else. -/
def IsDigits (text : List Char) : Prop :=
  text ≠ [] ∧ ∀ c ∈ text, isDigit c = true

/-- Digits, with or without a dot and further digits. -/
def IsNumeral (text : List Char) : Prop :=
  IsDigits text ∨
    ∃ whole fraction, text = whole ++ '.' :: fraction ∧ IsDigits whole ∧ IsDigits fraction

/-- The operators and their spellings. -/
def operators : List (TokenKind × String) :=
  [(.plus, "+"), (.minus, "-"), (.arrow, "->"), (.parenOpen, "("), (.parenClose, ")"),
   (.braceOpen, "\x7b"), (.braceClose, "\x7d"), (.bracketOpen, "["), (.bracketClose, "]"),
   (.comma, ","), (.semicolon, ";"), (.colon, ":"), (.dot, "."), (.atSign, "@"),
   (.equal, "="), (.equalEqual, "=="), (.notEqual, "!="), (.less, "<"), (.lessEqual, "<="),
   (.greater, ">"), (.greaterEqual, ">="), (.newline, "\n")]

/-- The kind and the literal of a token that a text can hold. -/
inductive Lexeme : TokenKind → String → Prop where
  | operator {kind : TokenKind} {literal : String} (listed : (kind, literal) ∈ operators) :
      Lexeme kind literal
  | string (value : String) : Lexeme .string value
  | word {text : List Char} (isWord : IsWord text) :
      Lexeme (Keyword.kindOf (String.ofList text)) (String.ofList text)
  | number {text : List Char} (isNumeral : IsNumeral text) :
      Lexeme .number (String.ofList text)

/-- An operator that takes one character is spelled by it. -/
theorem operator?_short
    {c : Char}
    {next : Option Char}
    {kind : TokenKind}
    (isOperator : operator? c next = some (kind, false)) :
    (kind, String.ofList [c]) ∈ operators := by
  unfold operator? at isOperator
  split at isOperator
  all_goals try split at isOperator
  all_goals cases isOperator
  all_goals decide

/-- An operator that takes two characters is spelled by them. -/
theorem operator?_long
    {c : Char}
    {next : Option Char}
    {kind : TokenKind}
    (isOperator : operator? c next = some (kind, true)) :
    ∃ second, next = some second ∧ (kind, String.ofList [c, second]) ∈ operators := by
  unfold operator? at isOperator
  split at isOperator
  all_goals try split at isOperator
  all_goals cases isOperator
  all_goals exact ⟨_, by assumption, by decide⟩

namespace Piece

/-- A token piece holds a lexeme, and all but strings are spelled by their literal. -/
def HoldsLexeme : Piece → Prop
  | token kind literal text =>
      Lexeme kind literal ∧ (kind ≠ .string → literal = Source.shown text)
  | _ => True

/-- A piece that is spelled by its text holds a lexeme if the text is one. -/
theorem spelled_holdsLexeme
    {kind : TokenKind}
    {text : Source}
    (lexeme : Lexeme kind (Source.shown text)) :
    (spelled kind text).HoldsLexeme :=
  ⟨lexeme, fun _ => rfl⟩

/-- A string holds a lexeme, whatever its value is. -/
theorem cutString_holdsLexeme (quote : Char) (value : List Char) (covered rest : Source) :
    (cutString quote value covered rest).1.HoldsLexeme := by
  fun_induction cutString quote value covered rest with
  | case1 => exact trivial
  | case2 => exact ⟨.string _, fun noString => (noString rfl).elim⟩
  | case3 => exact trivial
  | case4 => assumption
  | case5 => assumption

/-- A comment holds no lexeme, and need not. -/
theorem cutBlockComment_holdsLexeme (covered rest : Source) :
    (cutBlockComment covered rest).1.HoldsLexeme := by
  fun_induction cutBlockComment covered rest with
  | case1 => exact trivial
  | case2 => exact trivial
  | case3 => assumption
  | case4 => exact trivial

/-- A slash is a comment or a lexeme of its own. -/
theorem cutSlash_holdsLexeme (slash : Rune) (rest : Source) :
    (cutSlash slash rest).1.HoldsLexeme := by
  unfold cutSlash
  split
  · exact trivial
  split
  · exact trivial
  split
  · exact cutBlockComment_holdsLexeme _ _
  · exact trivial

/-- A run holds accepted characters only. -/
theorem mem_run
    {accept : Char → Bool}
    {text : Source}
    {c : Char}
    (member : c ∈ (run accept text).map Rune.toChar) :
    accept c = true := by
  obtain ⟨rune, inRun, rfl⟩ := List.mem_map.mp member
  exact List.mem_takeWhile_imp (p := fun rune : Rune => accept rune.toChar) inRun

/-- A digit and the run behind it are digits. -/
theorem isDigits_of_run
    {first : Rune}
    (isFirst : isDigit first.toChar = true)
    (rest : Source) :
    IsDigits ((first :: run isDigit rest).map Rune.toChar) := by
  refine ⟨by simp, ?_⟩
  intro c member
  rw [List.map_cons, List.mem_cons] at member
  rcases member with rfl | inRun
  · exact isFirst
  · exact mem_run inRun

/-- A number is a lexeme, with a fraction or without. -/
theorem cutNumber_holdsLexeme
    {first : Rune}
    (isFirst : isDigit first.toChar = true)
    (rest : Source) :
    (cutNumber first rest).1.HoldsLexeme := by
  have whole := isDigits_of_run isFirst rest
  unfold cutNumber
  split
  · next dot digit more _ =>
      split
      · next isFraction =>
          rw [Bool.and_eq_true, decide_eq_true_eq] at isFraction
          refine spelled_holdsLexeme (.number (.inr ⟨_,
            (digit :: run isDigit more).map Rune.toChar, ?_, whole,
            isDigits_of_run isFraction.2 more⟩))
          simp [isFraction.1]
      · exact spelled_holdsLexeme (.number (.inl whole))
  · exact spelled_holdsLexeme (.number (.inl whole))

/-- A word is a lexeme, a keyword or an identifier. -/
theorem cutWord_holdsLexeme
    {first : Rune}
    (isFirst : isLetter first.toChar = true)
    (rest : Source) :
    (cutWord first rest).1.HoldsLexeme := by
  refine spelled_holdsLexeme (.word ⟨isFirst, ?_⟩)
  intro c member
  exact mem_run member

/-- Every token piece that is cut off a text holds a lexeme. -/
theorem cut_holdsLexeme (first : Rune) (rest : Source) :
    (cut first rest).1.HoldsLexeme := by
  unfold cut
  split
  · next isOperator =>
      exact spelled_holdsLexeme (.operator (operator?_short isOperator))
  · next isOperator =>
      obtain ⟨second, isNext, listed⟩ := operator?_long isOperator
      cases rest with
      | nil =>
          cases isNext
      | cons other more =>
          cases isNext
          exact spelled_holdsLexeme (.operator listed)
  · split
    · exact cutString_holdsLexeme _ _ _ _
    split
    · exact cutSlash_holdsLexeme first rest
    split
    · exact trivial
    split
    · next isFirst =>
        exact cutWord_holdsLexeme isFirst rest
    split
    · next isFirst =>
        exact cutNumber_holdsLexeme isFirst rest
    · exact trivial

end Piece

/-- A word that is no name is in the table, with its kind. -/
theorem Keyword.exists_of_kindOf
    {word : String}
    (reserved : Keyword.kindOf word ≠ .identifier) :
    ∃ keyword ∈ Keyword.table, keyword.word = word ∧ keyword.kind = Keyword.kindOf word := by
  unfold Keyword.kindOf Keyword.kind? at reserved ⊢
  cases found : Keyword.table.find? (·.word = word) with
  | none =>
      rw [found] at reserved
      exact absurd rfl reserved
  | some keyword =>
      exact ⟨keyword, List.mem_of_find?_eq_some found, by simpa using List.find?_some found, rfl⟩

/-- The words of the table have kinds of their own. -/
theorem Keyword.kindOf_ne
    {kind : TokenKind}
    (noKeyword : ∀ keyword ∈ Keyword.table, keyword.kind ≠ kind)
    (noIdentifier : kind ≠ .identifier)
    (word : String) :
    Keyword.kindOf word ≠ kind := by
  rintro rfl
  obtain ⟨keyword, listed, -, same⟩ := Keyword.exists_of_kindOf noIdentifier
  exact noKeyword keyword listed same

/-- No lexeme ends the input. -/
theorem Lexeme.kind_ne_endOfInput
    {kind : TokenKind}
    {literal : String}
    (lexeme : Lexeme kind literal) :
    kind ≠ .endOfInput := by
  have noOperator : ∀ entry ∈ operators, entry.1 ≠ .endOfInput := by
    decide
  cases lexeme with
  | operator listed => exact noOperator _ listed
  | string => decide
  | word => exact Keyword.kindOf_ne (by decide) (by decide) _
  | number => decide

/-- A line break is the only spelling of its kind. -/
theorem Lexeme.literal_of_newline
    {literal : String}
    (lexeme : Lexeme .newline literal) :
    literal = "\n" := by
  generalize isKind : TokenKind.newline = kind at lexeme
  cases lexeme with
  | operator listed =>
      have sole : ∀ entry ∈ operators, .newline = entry.1 → entry.2 = "\n" := by
        decide
      exact sole _ listed isKind
  | string => cases isKind
  | word => exact (Keyword.kindOf_ne (by decide) (by decide) _ isKind.symm).elim
  | number => cases isKind

namespace Lexer

/-- All pieces of a text hold lexemes. -/
theorem pieces_holdLexemes (text : Source) : ∀ piece ∈ pieces text, piece.HoldsLexeme := by
  fun_induction pieces text with
  | case1 =>
      simp
  | case2 first rest inductionHypothesis =>
      exact List.forall_mem_cons.mpr ⟨Piece.cut_holdsLexeme first rest, inductionHypothesis⟩

/-- Every token of a text is a lexeme. -/
theorem tokensAt_lexemes
    {position : Position}
    {all : List Piece}
    (held : ∀ piece ∈ all, piece.HoldsLexeme) :
    ∀ token ∈ tokensAt position all, Lexeme token.kind token.literal := by
  induction all generalizing position with
  | nil =>
      simp [tokensAt]
  | cons piece rest inductionHypothesis =>
      obtain ⟨first, later⟩ := List.forall_mem_cons.mp held
      cases piece with
      | trivia text =>
          exact inductionHypothesis later
      | token kind literal text =>
          exact List.forall_mem_cons.mpr ⟨first.1, inductionHypothesis later⟩
      | unterminated text =>
          simp [tokensAt]

end Lexer

end FrenchNim
