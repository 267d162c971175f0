import FrenchNim.Token.Lexer

namespace FrenchNim

/-!
# The pieces of a text

Scanning a text means cutting it into pieces and giving the token pieces their
positions. The two are set apart here: the pieces of a text depend on its runes
alone, and the tokens are computed from the pieces. A text has a token list
exactly if all its strings end and its token pieces are not too many.
-/

namespace Piece

/-- The piece is not a string without an end. -/
def isTerminated : Piece → Bool
  | unterminated _ => false
  | _ => true

section Strings

variable {quote : Char} {rune : Rune} (value : List Char) (covered rest : Source)

/-- A quote closes its string. -/
theorem cutString_closed (isQuote : rune.toChar = quote) :
    cutString quote value covered (rune :: rest) =
      (.token .string (String.ofList value.reverse) (rune :: covered).reverse, rest) := by
  rw [cutString.eq_def]
  simp only [if_pos isQuote]

/-- A backslash changes the meaning of the next character. -/
theorem cutString_escaped
    (noQuote : rune.toChar ≠ quote)
    (escapes : rune.toChar = '\\')
    (escaped : Rune) :
    cutString quote value covered (rune :: escaped :: rest) =
      cutString quote (unescape escaped.toChar :: value) (escaped :: rune :: covered) rest := by
  rw [cutString.eq_def]
  simp only [if_neg noQuote, if_pos escapes]

/-- Any other character stands for itself. -/
theorem cutString_plain (noQuote : rune.toChar ≠ quote) (plain : rune.toChar ≠ '\\') :
    cutString quote value covered (rune :: rest) =
      cutString quote (rune.toChar :: value) (rune :: covered) rest := by
  rw [cutString.eq_def]
  simp only [if_neg noQuote, if_neg plain]

end Strings

end Piece

namespace Lexer

/-- All pieces of a text, in order. -/
def pieces : Source → List Piece
  | [] => []
  | first :: rest => (Piece.cut first rest).1 :: pieces (Piece.cut first rest).2
  termination_by text => text.length
  decreasing_by exact Piece.length_cut_lt first rest

@[simp] theorem pieces_nil : pieces [] = [] := by
  rw [pieces]

theorem pieces_cons (first : Rune) (rest : Source) :
    pieces (first :: rest) =
      (Piece.cut first rest).1 :: pieces (Piece.cut first rest).2 := by
  rw [pieces]

/-- The runes of the pieces are the runes of the text. -/
theorem text_pieces (text : Source) : (pieces text).flatMap Piece.text = text := by
  fun_induction pieces text with
  | case1 =>
      rfl
  | case2 first rest inductionHypothesis =>
      rw [List.flatMap_cons, inductionHypothesis, Piece.text_cut]

/-- Every piece of a text is cut off somewhere. -/
theorem exists_cut_of_mem_pieces
    {text : Source}
    {piece : Piece}
    (member : piece ∈ pieces text) :
    ∃ first rest, piece = (Piece.cut first rest).1 := by
  fun_induction pieces text with
  | case1 =>
      cases member
  | case2 first rest inductionHypothesis =>
      rcases List.mem_cons.mp member with rfl | later
      · exact ⟨first, rest, rfl⟩
      · exact inductionHypothesis later

/-- The tokens of pieces that start at the given position. -/
def tokensAt (position : Position) : List Piece → List Token
  | [] => []
  | .trivia text :: rest => tokensAt (position.after text) rest
  | .token kind literal text :: rest =>
      ⟨kind, literal, ⟨position, position.after text.dropLast⟩⟩ ::
        tokensAt (position.after text) rest
  | .unterminated _ :: _ => []

/-- Where a text has tokens, they are the tokens of its pieces and the end of the input. -/
theorem scan_eq_ok_iff
    {limit : Nat}
    {position : Position}
    {count : Nat}
    {read : List Token}
    {text : Source}
    {tokens : List Token}
    (within : count ≤ limit) :
    scan limit position count read text = .ok tokens ↔
      (∀ piece ∈ pieces text, piece.isTerminated = true) ∧
      count + (tokensAt position (pieces text)).length ≤ limit ∧
      tokens = read.reverse ++ tokensAt position (pieces text) ++
        [Token.endOfInput (position.after text)] := by
  fun_induction scan limit position count read text with
  | case1 position count read =>
      rw [pieces_nil, tokensAt, Except.ok.injEq, List.reverse_cons, List.append_nil]
      exact ⟨fun same => ⟨by simp, within, same.symm⟩, fun facts => facts.2.2.symm⟩
  | case2 position count read first rest text rest' shape inductionHypothesis =>
      have whole := Piece.text_cut first rest
      rw [shape] at whole
      rw [inductionHypothesis within, pieces_cons, shape, ← whole, Position.after_append]
      simp [tokensAt, Piece.isTerminated, Piece.text]
  | case3 position count read first rest kind literal text rest' shape full =>
      rw [pieces_cons, shape]
      simp only [tokensAt, List.length_cons, reduceCtorEq, false_iff]
      omega
  | case4 position count read first rest kind literal text rest' shape room span
      inductionHypothesis =>
      have whole := Piece.text_cut first rest
      rw [shape] at whole
      rw [inductionHypothesis (by omega), pieces_cons, shape, ← whole, Position.after_append]
      simp [tokensAt, Piece.isTerminated, Piece.text, span]
      omega
  | case5 position count read first rest text rest' shape =>
      rw [pieces_cons, shape]
      simp [Piece.isTerminated]

/-- A text has tokens if its strings end and its tokens are within the limit. -/
theorem lexWithin_eq_ok_iff {limit : Nat} {text : Source} {tokens : List Token} :
    lexWithin limit text = .ok tokens ↔
      (∀ piece ∈ pieces text, piece.isTerminated = true) ∧
      (tokensAt .start (pieces text)).length ≤ limit ∧
      tokens = tokensAt .start (pieces text) ++ [Token.endOfInput (Position.start.after text)] := by
  unfold lexWithin
  rw [scan_eq_ok_iff (Nat.zero_le _)]
  simp

/-- A text has tokens if its strings end and its tokens are not too many. -/
theorem lex_eq_ok_iff {text : Source} {tokens : List Token} :
    lex text = .ok tokens ↔
      (∀ piece ∈ pieces text, piece.isTerminated = true) ∧
      (tokensAt .start (pieces text)).length ≤ tokenLimit ∧
      tokens = tokensAt .start (pieces text) ++ [Token.endOfInput (Position.start.after text)] :=
  lexWithin_eq_ok_iff

end Lexer

end FrenchNim
