import FrenchNim.Proofs.Syntax.Spelling
import FrenchNim.Proofs.Text.Encoding
import FrenchNim.Proofs.Token.Written

namespace FrenchNim

/-!
# Lexing undoes unlexing

Lexemes that are written with single blanks between them are scanned again: a
blank continues no word, no number and no operator, and a string ends by itself.
-/

/-- The text of a lexeme. Strings are written as literals, everything else as it is spelled. -/
def Lexer.spelling (kind : TokenKind) (literal : String) : String :=
  if kind = .string then Quoted.literal literal else literal

/-- The text of lexemes with single blanks between them. -/
def unlex (lexemes : List (TokenKind × String)) : String :=
  " ".intercalate (lexemes.map fun lexeme => Lexer.spelling lexeme.1 lexeme.2)

namespace Lexer

/-- A lexeme is found again in front of a blank and at the end of a text. -/
theorem lexemes_spelling
    {kind : TokenKind}
    {literal : String}
    {rest : List Char}
    (lexeme : Lexeme kind literal)
    (stops : RawCode.Stops rest) :
    lexemes ((spelling kind literal).toList ++ rest) =
      (lexemes rest).map (.bare kind literal :: ·) := by
  by_cases isString : kind = .string
  · subst isString
    rw [spelling, if_pos rfl]
    exact ends_quoted literal rest
  · have found := @RawCode.lexemes_written (.bare kind literal) rest lexeme
      (fun string => absurd string isString) stops
    rw [RawCode.written_of_ne isString] at found
    rw [spelling, if_neg isString]
    exact found

theorem toList_unlex_singleton (lexeme : TokenKind × String) :
    (unlex [lexeme]).toList = (spelling lexeme.1 lexeme.2).toList := by
  unfold unlex
  rw [List.map_singleton, String.toList_intercalate, List.map_singleton,
    List.intercalate_singleton]

theorem toList_unlex_cons (first second : TokenKind × String) (others : List (TokenKind × String)) :
    (unlex (first :: second :: others)).toList =
      (spelling first.1 first.2).toList ++ ' ' :: (unlex (second :: others)).toList := by
  unfold unlex
  rw [String.toList_intercalate, String.toList_intercalate, List.map_cons, List.map_cons,
    List.map_cons, List.map_cons, List.intercalate_cons_cons, List.append_assoc]
  rfl

/-- All lexemes of a text with blanks between them are found again. -/
theorem lexemes_unlex
    {all : List (TokenKind × String)}
    (lexical : ∀ lexeme ∈ all, Lexeme lexeme.1 lexeme.2) :
    lexemes (unlex all).toList = some (all.map fun lexeme => .bare lexeme.1 lexeme.2) := by
  induction all with
  | nil => exact lexemes_nil
  | cons first others inductionHypothesis =>
      obtain ⟨isFirst, areOthers⟩ := List.forall_mem_cons.mp lexical
      cases others with
      | nil =>
          have alone := @lexemes_spelling _ _ [] isFirst nofun
          rw [List.append_nil, lexemes_nil] at alone
          rw [toList_unlex_singleton, alone]
          rfl
      | cons second others =>
          have spaced : RawCode.Stops (' ' :: (unlex (second :: others)).toList) := by
            simp [RawCode.Stops]
          rw [toList_unlex_cons, lexemes_spelling isFirst spaced, lexemes_blank,
            inductionHypothesis areOthers]
          rfl

end Lexer

/-- Lexemes with blanks between them are scanned as the same kinds and literals, and the end. -/
theorem lex_unlex
    {lexemes : List (TokenKind × String)}
    (lexical : ∀ lexeme ∈ lexemes, Lexeme lexeme.1 lexeme.2)
    (within : lexemes.length ≤ tokenLimit) :
    ∃ tokens, lex (.ofBytes (Source.ofString (unlex lexemes)).toBytes) = .ok tokens ∧
      tokens.map (fun token => (token.kind, token.literal)) = lexemes ++ [(.endOfInput, "")] := by
  obtain ⟨tokens, lexed, same⟩ := Lexer.lex_of_lexemes (Lexer.lexemes_unlex lexical)
    (by rwa [List.length_map])
  refine ⟨tokens, by rw [Source.ofBytes_toBytes_ofString, lexed], ?_⟩
  have erased := congrArg (List.map fun token => (token.kind, token.literal)) same
  rw [List.map_append, List.map_map, List.map_map] at erased
  exact erased.trans (congrArg (· ++ _) (List.map_id lexemes))

/-- A word is a lexeme of its kind in the table. -/
theorem Lexeme.of_word
    {kind : TokenKind}
    {literal : String}
    (isWord : IsWord literal.toList)
    (isKind : Keyword.kindOf literal = kind) :
    Lexeme kind literal := by
  have lexeme := Lexeme.word isWord
  rwa [String.ofList_toList, isKind] at lexeme

/-- A name and a keyword with accents, a numeral, two signs, a string and a line break. -/
def mixedLexemes : List (TokenKind × String) :=
  [(.identifier, "été"), (.equal, "égal"), (.number, "1.5"), (.dot, "."), (.arrow, "->"),
    (.string, "\"\n"), (.newline, "\n")]

/-- The blanks keep the numeral apart from the dot, and the string is escaped. -/
theorem lex_unlex_mixedLexemes :
    (∀ lexeme ∈ mixedLexemes, Lexeme lexeme.1 lexeme.2) ∧
      mixedLexemes.length ≤ tokenLimit ∧
      unlex mixedLexemes = "été égal 1.5 . -> \"\\\"\\n\" \n" ∧
      ∃ tokens, lex (.ofBytes (Source.ofString (unlex mixedLexemes)).toBytes) = .ok tokens ∧
        tokens.map (fun token => (token.kind, token.literal)) =
          mixedLexemes ++ [(.endOfInput, "")] := by
  have numeral : IsNumeral "1.5".toList :=
    .inr ⟨['1'], ['5'], rfl, ⟨nofun, List.forall_mem_singleton.mpr rfl⟩,
      ⟨nofun, List.forall_mem_singleton.mpr rfl⟩⟩
  have lexical : ∀ lexeme ∈ mixedLexemes, Lexeme lexeme.1 lexeme.2 := by
    simp only [mixedLexemes, List.forall_mem_cons]
    exact ⟨.of_word (by decide) (by decide), .of_word (by decide) (by decide), .number numeral,
      .operator (by decide), .operator (by decide), .string _, .operator (by decide),
      List.forall_mem_nil _⟩
  have within : mixedLexemes.length ≤ tokenLimit := by
    decide
  exact ⟨lexical, within, by decide, lex_unlex lexical within⟩

end FrenchNim
