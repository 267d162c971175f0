import Mathlib
import FrenchNim.Proofs.Text.Places
import FrenchNim.Proofs.Token.Lexemes

namespace FrenchNim

/-!
# The positions of tokens

The tokens of a text stand at the places of their lexemes: a token starts at the
first rune of its lexeme, ends at the last one, and both places are told by the
bytes before them alone. The end of the input is the place behind all bytes.
-/

/-- The piece is a token. -/
def Piece.isToken : Piece → Bool
  | token _ _ _ => true
  | _ => false

/-- The token stands where its lexeme stands, behind the given runes. -/
structure Token.Covers (input : Bytes) (token : Token) (before lexeme : Source) : Prop where
  nonempty : lexeme ≠ []
  /-- The literal of a string is the text that it denotes, all others are spelled out. -/
  spelled : token.kind ≠ .string → token.literal = Source.shown lexeme
  first : token.span.first = .ofOffset input before.byteSize
  last : token.span.last = .ofOffset input (before ++ lexeme.dropLast).byteSize

namespace Lexer

/-- A token is read from a piece, and as many tokens are read before it as stand before it. -/
theorem exists_piece_of_tokensAt
    {pieces : List Piece}
    {position : Position}
    {earlier later : List Token}
    {token : Token}
    (split : tokensAt position pieces = earlier ++ token :: later) :
    ∃ front lexeme back,
      pieces = front ++ Piece.token token.kind token.literal lexeme :: back ∧
      front.countP Piece.isToken = earlier.length ∧
      token.span = ⟨position.after (front.flatMap Piece.text),
        position.after (front.flatMap Piece.text ++ lexeme.dropLast)⟩ := by
  induction pieces generalizing position earlier with
  | nil =>
      simp [tokensAt] at split
  | cons piece rest inductionHypothesis =>
      cases piece with
      | trivia text =>
          obtain ⟨front, lexeme, back, rfl, count, span⟩ := inductionHypothesis split
          refine ⟨.trivia text :: front, lexeme, back, rfl, ?_, ?_⟩
          · rw [List.countP_cons_of_neg (by simp [Piece.isToken]), count]
          · simpa [Piece.text, Position.after_append] using span
      | token kind literal text =>
          cases earlier with
          | nil =>
              cases split
              exact ⟨[], text, rest, rfl, rfl, rfl⟩
          | cons first earlier =>
              obtain ⟨-, split⟩ := List.cons.inj split
              obtain ⟨front, lexeme, back, rfl, count, span⟩ := inductionHypothesis split
              refine ⟨.token kind literal text :: front, lexeme, back, rfl, ?_, ?_⟩
              · rw [List.countP_cons_of_pos rfl, count, List.length_cons]
              · simpa [Piece.text, Position.after_append] using span
      | unterminated text =>
          simp [tokensAt] at split

/-- Every token but the end of the input is read from a piece of the text. -/
theorem exists_piece_of_lex
    {source : Source}
    {tokens : List Token}
    (lexed : lex source = .ok tokens)
    {token : Token}
    (member : token ∈ tokens)
    (notEnd : token.kind ≠ .endOfInput) :
    ∃ front lexeme back,
      pieces source = front ++ Piece.token token.kind token.literal lexeme :: back ∧
      token.span = ⟨Position.start.after (front.flatMap Piece.text),
        Position.start.after (front.flatMap Piece.text ++ lexeme.dropLast)⟩ := by
  obtain ⟨-, -, rfl⟩ := lex_eq_ok_iff.mp lexed
  rcases List.mem_append.mp member with inText | isEnd
  · obtain ⟨earlier, later, split⟩ := List.append_of_mem inText
    obtain ⟨front, lexeme, back, cut, -, span⟩ := exists_piece_of_tokensAt split
    exact ⟨front, lexeme, back, cut, span⟩
  · cases List.mem_singleton.mp isEnd
    exact absurd rfl notEnd

/-- Tokens cover the pieces they are read from. -/
theorem covers_of_pieces
    {input : Bytes}
    {front back : List Piece}
    {token : Token}
    {lexeme : Source}
    (cut : pieces (.ofBytes input) = front ++ .token token.kind token.literal lexeme :: back)
    (span : token.span = ⟨Position.start.after (front.flatMap Piece.text),
      Position.start.after (front.flatMap Piece.text ++ lexeme.dropLast)⟩) :
    token.Covers input (front.flatMap Piece.text) lexeme := by
  have member : Piece.token token.kind token.literal lexeme ∈ pieces (.ofBytes input) := by
    rw [cut]
    simp
  obtain ⟨first, rest, isCut⟩ := exists_cut_of_mem_pieces member
  have nonempty : lexeme ≠ [] := by
    have present := Piece.cut_text_ne_nil first rest
    rwa [← isCut] at present
  have whole := text_pieces (.ofBytes input)
  rw [cut, List.flatMap_append, List.flatMap_cons, Piece.text] at whole
  have upToLast : Source.ofBytes input = (front.flatMap Piece.text ++ lexeme.dropLast) ++
      ([lexeme.getLast nonempty] ++ back.flatMap Piece.text) := by
    rw [← whole, List.append_assoc, ← List.append_assoc lexeme.dropLast,
      List.dropLast_concat_getLast]
  refine ⟨nonempty, (pieces_holdLexemes (.ofBytes input) _ member).2, ?_, ?_⟩
  · rw [span]
    exact Position.after_eq_ofOffset whole.symm
  · rw [span]
    exact Position.after_eq_ofOffset upToLast

/--
Every token starts at the place that its offset tells, the n-th token covers the
n-th token piece, and the last one stands at the end of the input.
-/
theorem positions_of_lex
    {input : Bytes}
    {tokens : List Token}
    (lexed : lex (.ofBytes input) = .ok tokens) :
    (∀ token ∈ tokens,
      token.span.first = .ofOffset input token.span.first.offset.toNat) ∧
    (∀ earlier token later, tokens.dropLast = earlier ++ token :: later →
      ∃ front lexeme back,
        pieces (.ofBytes input) = front ++ .token token.kind token.literal lexeme :: back ∧
        front.countP Piece.isToken = earlier.length ∧
        token.Covers input (front.flatMap Piece.text) lexeme) ∧
    tokens.getLast? = some (.endOfInput (.ofOffset input input.length)) := by
  obtain ⟨-, -, rfl⟩ := lex_eq_ok_iff.mp lexed
  have atEnd : Position.start.after (.ofBytes input) = .ofOffset input input.length := by
    rw [Position.after_eq_ofOffset (List.append_nil _).symm, Source.byteSize_ofBytes]
  rw [atEnd, List.dropLast_concat]
  have covers : ∀ earlier token later,
      tokensAt .start (pieces (.ofBytes input)) = earlier ++ token :: later →
      ∃ front lexeme back,
        pieces (.ofBytes input) = front ++ .token token.kind token.literal lexeme :: back ∧
        front.countP Piece.isToken = earlier.length ∧
        token.Covers input (front.flatMap Piece.text) lexeme := by
    intro earlier token later split
    obtain ⟨front, lexeme, back, cut, count, span⟩ := exists_piece_of_tokensAt split
    exact ⟨front, lexeme, back, cut, count, covers_of_pieces cut span⟩
  refine ⟨fun token member => ?_, covers, List.getLast?_concat⟩
  rcases List.mem_append.mp member with isWord | isEnd
  · obtain ⟨earlier, later, split⟩ := List.append_of_mem isWord
    obtain ⟨front, lexeme, -, -, -, standing⟩ := covers earlier token later split
    rw [standing.first]
    rfl
  · cases List.mem_singleton.mp isEnd
    rfl

/-- A string with a letter of two bytes, a stray byte and a line break, and a sign behind it. -/
def brokenString : Bytes := [0x22, 0xC3, 0xA9, 0xFF, 0x0A, 0x22, 0x2B]

/-- The sign behind the string stands in the second line, at the seventh byte. -/
theorem positions_of_lex_brokenString :
    ∃ tokens, lex (.ofBytes brokenString) = .ok tokens ∧
      (∀ token ∈ tokens,
        token.span.first = .ofOffset brokenString token.span.first.offset.toNat) ∧
      tokens.getLast? = some (.endOfInput (.ofOffset brokenString 7)) ∧
      ⟨.plus, "+", ⟨⟨6, 2, 1⟩, ⟨6, 2, 1⟩⟩⟩ ∈ tokens := by
  have lexed : lex (.ofBytes brokenString) = .ok
      [⟨.string, "é\uFFFD\n", ⟨⟨0, 1, 0⟩, ⟨5, 2, 0⟩⟩⟩, ⟨.plus, "+", ⟨⟨6, 2, 1⟩, ⟨6, 2, 1⟩⟩⟩,
        .endOfInput ⟨7, 2, 2⟩] := by
    cbv
  obtain ⟨places, -, ends⟩ := positions_of_lex lexed
  exact ⟨_, lexed, places, ends, by simp⟩

end Lexer

end FrenchNim
