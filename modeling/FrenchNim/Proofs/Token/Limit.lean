import Mathlib
import FrenchNim.Proofs.Token.Lexemes

namespace FrenchNim

/-!
# The limit on tokens

The scanner without a limit reads on as long as the strings of a text end. The
limit changes nothing about a text with few tokens, however it ends: not about
its tokens, and not about a string without an end. A text with more tokens is cut
at the first token that is one too many, whatever comes behind that token.
-/

namespace Lexer

/--
What the scanner makes of a text without a limit: the tokens it completes, the end of the
input not counted, and the token list or the error that it ends with.
-/
structure Unlimited where
  completed : List Token
  result : Except LexError (List Token)

/--
Read the tokens of a text that starts at the given position, however many there are.

The tokens read so far are kept newest first.
-/
def scanUnlimited (position : Position) (read : List Token) : Source → Unlimited
  | [] => ⟨read.reverse, .ok (Token.endOfInput position :: read).reverse⟩
  | first :: rest =>
      match _shape : Piece.cut first rest with
      | (.trivia text, rest') =>
          scanUnlimited (position.after text) read rest'
      | (.token kind literal text, rest') =>
          let span := ⟨position, position.after text.dropLast⟩
          scanUnlimited (position.after text) (⟨kind, literal, span⟩ :: read) rest'
      | (.unterminated text, _) =>
          ⟨read.reverse, .error (.unterminatedString position (position.after text).line)⟩
  termination_by text => text.length
  decreasing_by
    all_goals
      have shorter := Piece.length_cut_lt first rest
      simp_all

end Lexer

/-- What the scanner makes of a source without a limit. -/
def lexUnlimited (source : Source) : Lexer.Unlimited :=
  Lexer.scanUnlimited .start [] source

namespace Lexer

/-- What the scanner without a limit made, cut at the first token that is one too many. -/
def Unlimited.within (limit : Nat) (whole : Unlimited) : Except LexError (List Token) :=
  match whole.completed[limit]? with
  | some next => .error (.tokenLimit next.span.first)
  | none => whole.result

/-- As long as the tokens are not too many, the limit does not matter. -/
theorem Unlimited.within_of_le
    {limit : Nat}
    {whole : Unlimited}
    (few : whole.completed.length ≤ limit) :
    whole.within limit = whole.result := by
  rw [within, List.getElem?_eq_none few]

/-- The completed tokens are the tokens of the pieces. -/
theorem completed_scanUnlimited (position : Position) (read : List Token) (text : Source) :
    (scanUnlimited position read text).completed =
      read.reverse ++ tokensAt position (pieces text) := by
  fun_induction scanUnlimited position read text with
  | case1 position read =>
      rw [pieces_nil, tokensAt, List.append_nil]
  | case2 position read first rest text rest' shape inductionHypothesis =>
      rw [inductionHypothesis, pieces_cons, shape, tokensAt]
  | case3 position read first rest kind literal text rest' shape span inductionHypothesis =>
      rw [inductionHypothesis, pieces_cons, shape, tokensAt, List.reverse_cons, List.append_assoc,
        List.singleton_append]
  | case4 position read first rest text rest' shape =>
      rw [pieces_cons, shape, tokensAt, List.append_nil]

/-- The tokens that are read first are completed first. -/
theorem completed_getElem?_length
    (position : Position)
    (token : Token)
    (read : List Token)
    (text : Source) :
    (scanUnlimited position (token :: read) text).completed[read.length]? = some token := by
  rw [completed_scanUnlimited, List.reverse_cons, List.append_assoc, List.singleton_append,
    List.getElem?_append_right (by simp), List.length_reverse, Nat.sub_self,
    List.getElem?_cons_zero]

section Step

variable {first : Rune} {rest text rest' : Source} {kind : TokenKind} {literal : String}

/-- Trivia is passed over. -/
theorem scanUnlimited_trivia
    (position : Position)
    (read : List Token)
    (shape : Piece.cut first rest = (.trivia text, rest')) :
    scanUnlimited position read (first :: rest) =
      scanUnlimited (position.after text) read rest' := by
  rw [scanUnlimited]
  split
  · next found =>
      cases shape.symm.trans found
      rfl
  · next found => cases shape.symm.trans found
  · next found => cases shape.symm.trans found

/-- A token is kept with its place. -/
theorem scanUnlimited_token
    (position : Position)
    (read : List Token)
    (shape : Piece.cut first rest = (.token kind literal text, rest')) :
    scanUnlimited position read (first :: rest) =
      scanUnlimited (position.after text)
        (⟨kind, literal, position, position.after text.dropLast⟩ :: read) rest' := by
  rw [scanUnlimited]
  split
  · next found => cases shape.symm.trans found
  · next found =>
      cases shape.symm.trans found
      rfl
  · next found => cases shape.symm.trans found

/-- A string that is not terminated ends the scan. -/
theorem scanUnlimited_unterminated
    (position : Position)
    (read : List Token)
    (shape : Piece.cut first rest = (.unterminated text, rest')) :
    scanUnlimited position read (first :: rest) =
      ⟨read.reverse, .error (.unterminatedString position (position.after text).line)⟩ := by
  rw [scanUnlimited]
  split
  · next found => cases shape.symm.trans found
  · next found => cases shape.symm.trans found
  · next found =>
      cases shape.symm.trans found
      rfl

end Step

/-- The scanner with a limit stops where the scanner without one has a token too many. -/
theorem scan_eq_within
    {limit : Nat}
    {position : Position}
    {count : Nat}
    {read : List Token}
    {text : Source}
    (counted : count = read.length)
    (within : count ≤ limit) :
    scan limit position count read text = (scanUnlimited position read text).within limit := by
  fun_induction scan limit position count read text with
  | case1 position count read =>
      rw [scanUnlimited, Unlimited.within_of_le]
      simpa [← counted] using within
  | case2 position count read first rest text rest' shape inductionHypothesis =>
      rw [scanUnlimited_trivia position read shape]
      exact inductionHypothesis counted within
  | case3 position count read first rest kind literal text rest' shape full =>
      -- The token at hand is the one too many, and nothing behind it is read.
      obtain rfl : limit = read.length := by omega
      rw [scanUnlimited_token position read shape, Unlimited.within, completed_getElem?_length]
  | case4 position count read first rest kind literal text rest' shape room span
      inductionHypothesis =>
      rw [scanUnlimited_token position read shape]
      exact inductionHypothesis (by rw [counted, List.length_cons]) (by omega)
  | case5 position count read first rest text rest' shape =>
      rw [scanUnlimited_unterminated position read shape, Unlimited.within_of_le]
      simpa [← counted] using within

/-- A limited scan keeps what the unlimited one finds within the limit. -/
theorem lexWithin_eq_within (limit : Nat) (source : Source) :
    lexWithin limit source = (lexUnlimited source).within limit :=
  scan_eq_within rfl (Nat.zero_le limit)

/-- A text that is read to its end has the completed tokens and the end of the input. -/
theorem tokens_of_scanUnlimited
    {position : Position}
    {read : List Token}
    {text : Source}
    {tokens : List Token}
    (ended : (scanUnlimited position read text).result = .ok tokens) :
    tokens = (scanUnlimited position read text).completed ++
      [Token.endOfInput (position.after text)] := by
  fun_induction scanUnlimited position read text with
  | case1 position read =>
      cases ended
      rw [List.reverse_cons, Position.after_nil]
  | case2 position read first rest text rest' shape inductionHypothesis =>
      have whole := Piece.text_cut first rest
      rw [shape] at whole
      rw [← whole, Position.after_append]
      exact inductionHypothesis ended
  | case3 position read first rest kind literal text rest' shape span inductionHypothesis =>
      have whole := Piece.text_cut first rest
      rw [shape] at whole
      rw [← whole, Position.after_append]
      exact inductionHypothesis ended
  | case4 => cases ended

/--
With a limit, the scanner stops at the start of the first token that is one too many if the
scanner without a limit completes that token, and makes the same of the text otherwise. The end of
the input is none of the completed tokens.
-/
theorem lexWithin_eq_cut (limit : Nat) (source : Source) :
    (lexWithin limit source =
      match (lexUnlimited source).completed[limit]? with
      | some next => .error (.tokenLimit next.span.first)
      | none => (lexUnlimited source).result) ∧
    (∀ token ∈ (lexUnlimited source).completed, token.kind ≠ .endOfInput) ∧
    (∀ tokens, (lexUnlimited source).result = .ok tokens →
      tokens = (lexUnlimited source).completed ++ [.endOfInput (Position.start.after source)]) ∧
    lex source = lexWithin 524288 source := by
  refine ⟨lexWithin_eq_within limit source, fun token member => ?_,
    fun tokens ended => tokens_of_scanUnlimited ended, rfl⟩
  rw [lexUnlimited, completed_scanUnlimited, List.reverse_nil, List.nil_append] at member
  exact (tokensAt_lexemes (pieces_holdLexemes source) token member).kind_ne_endOfInput

/-- Two names, a line break and a string without an end. -/
def namesBeforeOpenString : Source := .ofString "a b\n\"c"

/-- The third token is one too many, if two are allowed, although the text does not end well. -/
theorem lexWithin_eq_cut_namesBeforeOpenString :
    lexWithin 2 namesBeforeOpenString = .error (.tokenLimit ⟨3, 1, 3⟩) ∧
    lexWithin 3 namesBeforeOpenString = .error (.unterminatedString ⟨4, 2, 0⟩ 2) ∧
    ∃ tokens, (lexUnlimited (.ofString "a b")).result = .ok tokens ∧
      tokens = (lexUnlimited (.ofString "a b")).completed ++ [.endOfInput ⟨3, 1, 3⟩] := by
  have unlimited : lexUnlimited namesBeforeOpenString =
      ⟨[⟨.identifier, "a", .start, .start⟩, ⟨.identifier, "b", ⟨2, 1, 2⟩, ⟨2, 1, 2⟩⟩,
        ⟨.newline, "\n", ⟨3, 1, 3⟩, ⟨3, 1, 3⟩⟩], .error (.unterminatedString ⟨4, 2, 0⟩ 2)⟩ := by
    cbv
  have finished : (lexUnlimited (.ofString "a b")).result = .ok
      [⟨.identifier, "a", .start, .start⟩, ⟨.identifier, "b", ⟨2, 1, 2⟩, ⟨2, 1, 2⟩⟩,
        .endOfInput ⟨3, 1, 3⟩] := by
    cbv
  have cutAt (limit : Nat) := (lexWithin_eq_cut limit namesBeforeOpenString).1
  refine ⟨by rw [cutAt, unlimited]; rfl, by rw [cutAt, unlimited]; rfl, _, finished, ?_⟩
  exact (lexWithin_eq_cut 0 (.ofString "a b")).2.2.1 _ finished

end Lexer

end FrenchNim
