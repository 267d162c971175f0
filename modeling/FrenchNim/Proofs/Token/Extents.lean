import Mathlib
import FrenchNim.Grammar.Expression
import FrenchNim.Proofs.Text.Places
import FrenchNim.Proofs.Token.Lexemes

namespace FrenchNim

/-!
# How far tokens reach

The tokens of a text stand one behind the other. A name reaches as far as its
letters are wide, and a self-reference at least as far as the name it stands for.
-/

namespace Source

theorem length_le_byteSize (text : Source) : text.length ≤ byteSize text := by
  induction text with
  | nil =>
      exact Nat.le_refl 0
  | cons rune rest inductionHypothesis =>
      have wide : 1 ≤ rune.width := by
        cases rune with
        | char value => exact value.utf8Size_pos
        | stray byte => exact Nat.le_refl 1
      rw [byteSize_cons, List.length_cons]
      omega

/-- Characters that are no replacements are as wide as they are written. -/
theorem byteSize_shown
    {text : Source}
    (valid : ∀ c ∈ text.map Rune.toChar, c ≠ Rune.replacement) :
    (shown text).utf8ByteSize = byteSize text := by
  unfold shown
  rw [String.utf8ByteSize_ofList]
  induction text with
  | nil =>
      rfl
  | cons rune rest inductionHypothesis =>
      obtain ⟨first, later⟩ := List.forall_mem_cons.mp valid
      cases rune with
      | char value =>
          rw [List.map_cons, String.utf8Len_cons, inductionHypothesis later, byteSize_cons,
            Nat.add_comm]
          rfl
      | stray byte =>
          exact absurd rfl first

end Source

/-- Offsets count bytes. -/
theorem Position.offset_after (position : Position) (text : Source) :
    (position.after text).offset = position.offset + text.byteSize := by
  induction text generalizing position with
  | nil =>
      simp [Source.byteSize_nil]
  | cons rune rest inductionHypothesis =>
      have next : (position.next rune).offset = position.offset + rune.width := by
        unfold Position.next
        split <;> rfl
      rw [Position.after_cons, inductionHypothesis, next, Source.byteSize_cons]
      omega

/-- The name of the self-reference has four letters. -/
theorem offset_last_selfName (position : Position) :
    (Identifier.mk selfName position).last.offset = position.offset + 4 - 1 := by
  cbv

/-- A token that runs forward, and reaches as far as the name that is read from it. -/
structure Token.Reaches (token : Token) : Prop where
  forward : token.span.first.offset ≤ token.span.last.offset
  named : token.kind = .identifier →
    (Grammar.identifierOf token).last.offset = token.span.last.offset
  self : token.kind = .selfKeyword →
    (Identifier.mk selfName token.span.first).last.offset ≤ token.span.last.offset

/-- Tokens that stand one behind the other. -/
structure InOrder (tokens : List Token) : Prop where
  reach : ∀ token ∈ tokens, token.Reaches
  apart : tokens.Pairwise fun before behind =>
    before.span.last.offset < behind.span.first.offset

theorem InOrder.sublist
    {tokens part : List Token}
    (inOrder : InOrder tokens)
    (isPart : part.Sublist tokens) :
    InOrder part where
  reach := fun token member => inOrder.reach token (isPart.subset member)
  apart := inOrder.apart.sublist isPart

/-! ## Words -/

/-- A word has no character that stands for a stray byte. -/
theorem IsWord.ne_replacement
    {text : List Char}
    (isWord : IsWord text) :
    ∀ c ∈ text, c ≠ Rune.replacement := by
  cases text with
  | nil =>
      exact isWord.elim
  | cons first rest =>
      refine List.forall_mem_cons.mpr ⟨?_, fun c member => ?_⟩
      · rintro rfl
        exact absurd isWord.1 (by decide)
      · rintro rfl
        exact absurd (isWord.2 _ member) (by decide)

/-- Names are words. -/
theorem Lexeme.isWord_of_identifier
    {literal : String}
    (lexeme : Lexeme .identifier literal) :
    IsWord literal.toList := by
  generalize isKind : TokenKind.identifier = kind at lexeme
  cases lexeme with
  | operator listed =>
      have noOperator : ∀ entry ∈ operators, .identifier ≠ entry.1 := by
        decide
      exact (noOperator _ listed isKind).elim
  | string => cases isKind
  | word isWord => rwa [String.toList_ofList]
  | number => cases isKind

/-- The self-reference has two spellings. -/
theorem Lexeme.spelling_of_self
    {literal : String}
    (lexeme : Lexeme .selfKeyword literal) :
    literal = "ceci" ∨ literal = "cette" := by
  generalize isKind : TokenKind.selfKeyword = kind at lexeme
  cases lexeme with
  | operator listed =>
      have noOperator : ∀ entry ∈ operators, .selfKeyword ≠ entry.1 := by
        decide
      exact (noOperator _ listed isKind).elim
  | string => cases isKind
  | @word text isWord =>
      have spellings : ∀ keyword ∈ Keyword.table, .selfKeyword = keyword.kind →
          keyword.word = "ceci" ∨ keyword.word = "cette" := by
        decide
      obtain ⟨keyword, listed, same, kind⟩ :=
        Keyword.exists_of_kindOf (by rw [← isKind]; decide)
      rw [← same]
      exact spellings keyword listed (isKind.trans kind.symm)
  | number => cases isKind

/-- The words of self-reference are at least as long as the name they stand for. -/
theorem Lexeme.length_of_self
    {literal : String}
    (lexeme : Lexeme .selfKeyword literal) :
    selfName.length ≤ literal.length := by
  rcases lexeme.spelling_of_self with rfl | rfl
  · decide
  · decide

/-! ## Tokens of pieces -/

/-- A token at the place of its lexeme reaches to the end of it. -/
theorem Token.reaches_of_lexeme
    {kind : TokenKind}
    {literal : String}
    {text : Source}
    (position : Position)
    (lexeme : Lexeme kind literal)
    (spelled : kind ≠ .string → literal = Source.shown text) :
    Token.Reaches ⟨kind, literal, ⟨position, position.after text.dropLast⟩⟩ where
  forward := by
    show position.offset ≤ (position.after text.dropLast).offset
    rw [Position.offset_after]
    omega
  named := by
    rintro (rfl : kind = .identifier)
    have isWord := lexeme.isWord_of_identifier
    obtain rfl := spelled (by decide)
    rw [Source.shown, String.toList_ofList] at isWord
    have wide := Source.byteSize_shown isWord.ne_replacement
    rcases List.eq_nil_or_concat' text with rfl | ⟨front, final, rfl⟩
    · exact isWord.elim
    · have valid := isWord.ne_replacement final.toChar (by simp)
      have finalWide : final.toChar.utf8Size = final.width := by
        cases final with
        | char value => rfl
        | stray byte => exact absurd rfl valid
      have isLast : (Source.shown (front ++ [final])).toList.getLast? = some final.toChar := by
        simp [Source.shown]
      rw [Source.byteSize_append, Source.byteSize_cons, Source.byteSize_nil] at wide
      simp only [Grammar.identifierOf, Identifier.last, isLast, wide,
        finalWide, List.dropLast_concat, Position.offset_after]
      omega
  self := by
    rintro (rfl : kind = .selfKeyword)
    have long := lexeme.length_of_self
    obtain rfl := spelled (by decide)
    have wide := Source.length_le_byteSize text.dropLast
    have letters : selfName.length = 4 := rfl
    simp only [Source.shown, String.length_ofList, List.length_map, letters] at long
    rw [List.length_dropLast] at wide
    change (Identifier.mk selfName position).last.offset ≤ (position.after text.dropLast).offset
    rw [offset_last_selfName, Position.offset_after]
    omega

namespace Lexer

/-- A token ends before the place behind its lexeme. -/
theorem offset_after_dropLast
    (position : Position)
    {text : Source}
    (nonempty : text ≠ []) :
    (position.after text.dropLast).offset < (position.after text).offset := by
  have wide := Source.length_le_byteSize [text.getLast nonempty]
  have whole := congrArg Source.byteSize (List.dropLast_concat_getLast nonempty)
  rw [Source.byteSize_append] at whole
  rw [List.length_singleton] at wide
  rw [Position.offset_after, Position.offset_after]
  omega

/-- The tokens of pieces stand one behind the other, behind the place where the pieces start. -/
theorem inOrder_tokensAt
    (position : Position)
    {all : List Piece}
    (lexemes : ∀ piece ∈ all, piece.HoldsLexeme)
    (present : ∀ piece ∈ all, piece.text ≠ []) :
    InOrder (tokensAt position all) ∧
      (∀ token ∈ tokensAt position all, position.offset ≤ token.span.first.offset ∧
        token.span.last.offset < (position.after (all.flatMap Piece.text)).offset) := by
  induction all generalizing position with
  | nil =>
      rw [tokensAt]
      exact ⟨⟨by simp, .nil⟩, by simp⟩
  | cons piece rest inductionHypothesis =>
      obtain ⟨holds, lexemesLater⟩ := List.forall_mem_cons.mp lexemes
      obtain ⟨nonempty, presentLater⟩ := List.forall_mem_cons.mp present
      have whole : position.after ((piece :: rest).flatMap Piece.text) =
          (position.after piece.text).after (rest.flatMap Piece.text) := by
        rw [List.flatMap_cons, Position.after_append]
      have moved := Position.offset_after position piece.text
      rw [whole]
      cases piece with
      | trivia text =>
          obtain ⟨inOrder, bounds⟩ := @inductionHypothesis (position.after text)
            lexemesLater presentLater
          refine ⟨inOrder, fun token member => ?_⟩
          obtain ⟨above, below⟩ := bounds token member
          exact ⟨by simp only [Piece.text] at moved; omega, below⟩
      | token kind literal text =>
          obtain ⟨inOrder, bounds⟩ := @inductionHypothesis (position.after text)
            lexemesLater presentLater
          have short := offset_after_dropLast position nonempty
          have last := Position.offset_after (position.after text) (rest.flatMap Piece.text)
          simp only [Piece.text] at moved short last ⊢
          refine ⟨⟨List.forall_mem_cons.mpr
            ⟨Token.reaches_of_lexeme position holds.1 holds.2, inOrder.reach⟩,
            List.pairwise_cons.mpr ⟨fun other member => ?_, inOrder.apart⟩⟩,
            List.forall_mem_cons.mpr ⟨⟨Int.le_refl _, ?_⟩, fun other member => ?_⟩⟩
          · exact Int.lt_of_lt_of_le short (bounds other member).1
          · change (position.after text.dropLast).offset < _
            omega
          · obtain ⟨above, below⟩ := bounds other member
            exact ⟨by omega, below⟩
      | unterminated text =>
          rw [tokensAt]
          exact ⟨⟨by simp, .nil⟩, by simp⟩

/-- The tokens of a source stand one behind the other, and so does the end of the input. -/
theorem inOrder_of_lex
    {source : Source}
    {tokens : List Token}
    (lexed : lex source = .ok tokens) :
    InOrder tokens := by
  obtain ⟨-, -, rfl⟩ := lex_eq_ok_iff.mp lexed
  have present : ∀ piece ∈ pieces source, piece.text ≠ [] := by
    intro piece member
    obtain ⟨first, rest, rfl⟩ := exists_cut_of_mem_pieces member
    exact Piece.cut_text_ne_nil first rest
  obtain ⟨inOrder, bounds⟩ := inOrder_tokensAt Position.start
    (pieces_holdLexemes source) present
  rw [text_pieces] at bounds
  refine ⟨fun token member => ?_, List.pairwise_append.mpr
    ⟨inOrder.apart, List.pairwise_singleton _ _, fun token member final isFinal => ?_⟩⟩
  · rcases List.mem_append.mp member with inText | isEnd
    · exact inOrder.reach token inText
    · cases List.mem_singleton.mp isEnd
      exact ⟨Int.le_refl _, nofun, nofun⟩
  · cases List.mem_singleton.mp isFinal
    exact (bounds token member).2

end Lexer

end FrenchNim
