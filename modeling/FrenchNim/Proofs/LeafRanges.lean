import Mathlib
import FrenchNim.Proofs.Grammar.Leaves
import FrenchNim.Proofs.Finality
import FrenchNim.Proofs.Token.Extents
import FrenchNim.Proofs.Token.Slices

namespace FrenchNim

/-!
# The ranges of leaves

A leaf of a parsed program has the range of the token that it was read from, with
one exception: the self-reference is named by four letters, however it is spelled,
so its range ends one rune early where it is spelled with five.
-/

/-- The token is the self-reference in its longer spelling. -/
def Token.IsLongSelf (token : Token) : Prop :=
  token.kind = .selfKeyword ∧ token.literal = "cette"

/-- Tokens that stand one behind the other are told by their starts. -/
theorem InOrder.eq_of_first
    {tokens : List Token}
    (inOrder : InOrder tokens)
    {token other : Token}
    (member : token ∈ tokens)
    (isOther : other ∈ tokens)
    (same : other.span.first = token.span.first) :
    other = token := by
  have distinct : tokens.Pairwise fun left right => left.span.first = right.span.first →
      left = right := by
    refine inOrder.apart.imp_of_mem fun {left right} isLeft _ before equal => ?_
    have forward := (inOrder.reach left isLeft).forward
    rw [equal] at forward
    exact absurd before (Int.not_lt.mpr forward)
  have : Std.Symm fun left right : Token => left.span.first = right.span.first → left = right :=
    ⟨fun _ _ unique equal => (unique equal.symm).symm⟩
  exact distinct.forall_of_forall (fun _ _ _ => rfl) isOther member same

/-! ## Words within a line -/

/-- A word has no line break. -/
theorem IsWord.lineBreak_notMem
    {text : List Char}
    (isWord : IsWord text) :
    lineBreak ∉ text.map Rune.char := by
  cases text with
  | nil => exact isWord.elim
  | cons first rest =>
      intro member
      rcases List.mem_map.mp member with ⟨c, inText, isBreak⟩
      cases isBreak
      rcases List.mem_cons.mp inText with rfl | later
      · exact absurd isWord.1 (by decide)
      · exact absurd (isWord.2 _ later) (by decide)

/-- The last rune of a name stands behind all others. -/
theorem Identifier.last_eq_after
    {name : String}
    (isWord : IsWord name.toList)
    (position : Position) :
    (Identifier.mk name position).last = position.after (Source.ofString name).dropLast := by
  have noBreak := isWord.lineBreak_notMem
  rcases List.eq_nil_or_concat' name.toList with empty | ⟨front, final, whole⟩
  · rw [empty] at isWord
    exact isWord.elim
  · have others : (Source.ofString name).dropLast = front.map .char := by
      rw [Source.ofString, whole, List.map_append, List.map_singleton, List.dropLast_concat]
    have chars : (front ++ [final]).map (Rune.toChar ∘ Rune.char) = front ++ [final] :=
      List.map_id _
    have size : name.utf8ByteSize = Source.byteSize (front.map .char) + final.utf8Size := by
      have valid : ∀ c ∈ ((front ++ [final]).map Rune.char).map Rune.toChar,
          c ≠ Rune.replacement := by
        rw [List.map_map, chars, ← whole]
        exact isWord.ne_replacement
      have wide := Source.byteSize_shown valid
      rw [Source.shown, List.map_map, chars, ← whole, String.ofList_toList, whole,
        List.map_append, Source.byteSize_append, List.map_singleton, Source.byteSize_cons,
        Source.byteSize_nil] at wide
      exact wide
    have length : name.length = front.length + 1 := by
      rw [← String.length_toList, whole, List.length_append, List.length_singleton]
    have isLast : name.toList.getLast? = some final := by
      rw [whole, List.getLast?_concat]
    rw [whole, List.map_append, List.mem_append, not_or] at noBreak
    rw [others, Position.after_line position noBreak.1, Identifier.last]
    simp only [isLast, size, length, List.length_map, Position.mk.injEq, true_and]
    omega

/-! ## Leaves and their tokens -/

/-- How the range of a leaf is told by the token that it is read from. -/
structure Token.Bounds (token : Token) (leaf : Expression) : Prop where
  first : leaf.first = token.span.first
  last : leaf.last = token.span.last ↔ ¬token.IsLongSelf
  early : token.IsLongSelf → token.span.last =
    ⟨leaf.last.offset + 1, leaf.last.line, leaf.last.column + 1⟩

/-- A leaf that ends where its token ends is not the longer self-reference. -/
theorem Token.bounds_of_last
    {token : Token}
    {leaf : Expression}
    (first : leaf.first = token.span.first)
    (last : leaf.last = token.span.last)
    (notLong : ¬token.IsLongSelf) :
    token.Bounds leaf where
  first := first
  last := iff_of_true last notLong
  early := fun isLong => absurd isLong notLong

/-- A name that is spelled by its token ends with it. -/
theorem Token.bounds_of_name
    {token : Token}
    {position : Position}
    (lexeme : Lexeme token.kind token.literal)
    (isName : token.kind = .identifier)
    (span : token.span = ⟨position, position.after (Source.ofString token.literal).dropLast⟩) :
    token.Bounds (.identifier (Grammar.identifierOf token)) := by
  rw [isName] at lexeme
  refine bounds_of_last rfl ?_ fun isLong => ?_
  · rw [span]
    show (Identifier.mk token.literal token.span.first).last = _
    rw [span, Identifier.last_eq_after lexeme.isWord_of_identifier]
  · have isSelf := isLong.1
    rw [isName] at isSelf
    cases isSelf

/-- The self-reference ends with its token in the shorter spelling, and one rune early else. -/
theorem Token.bounds_of_self
    {token : Token}
    {position : Position}
    (lexeme : Lexeme token.kind token.literal)
    (isSelf : token.kind = .selfKeyword)
    (span : token.span = ⟨position, position.after (Source.ofString token.literal).dropLast⟩) :
    token.Bounds (.identifier ⟨selfName, token.span.first⟩) := by
  have leafLast : (Identifier.mk selfName token.span.first).last =
      ⟨position.offset + 3, position.line, position.column + 3⟩ := by
    have named : (Identifier.mk selfName position).last =
        ⟨position.offset + 4 - 1, position.line, position.column + 4 - 1⟩ := by
      cbv
    rw [span, named, Position.mk.injEq]
    omega
  rw [isSelf] at lexeme
  rcases lexeme.spelling_of_self with short | long
  · refine bounds_of_last rfl ?_ fun isLong => ?_
    · rw [show (Expression.identifier _).last = _ from leafLast, span, short,
        Position.after_line _ (by decide)]
      rfl
    · rw [IsLongSelf, short] at isLong
      exact absurd isLong.2 (by decide)
  · have tokenLast : token.span.last =
        ⟨position.offset + 4, position.line, position.column + 4⟩ := by
      rw [span, long, Position.after_line _ (by decide)]
      rfl
    refine ⟨rfl, iff_of_false ?_ (not_not_intro ⟨isSelf, long⟩), fun _ => ?_⟩
    · rw [show (Expression.identifier _).last = _ from leafLast, tokenLast, Position.mk.injEq]
      omega
    · rw [show (Expression.identifier _).last = _ from leafLast, tokenLast, Position.mk.injEq]
      exact ⟨(Int.add_assoc _ 3 1).symm, rfl, (Int.add_assoc _ 3 1).symm⟩

/-- Every leaf that is read from a token of a text is bounded by it. -/
theorem Token.bounds_of_leaf
    {token : Token}
    {position : Position}
    {text : Source}
    {leaf : Expression}
    (lexeme : Lexeme token.kind token.literal)
    (spelled : token.kind ≠ .string → token.literal = Source.shown text)
    (span : token.span = ⟨position, position.after text.dropLast⟩)
    (isLeaf : Grammar.leaf? token = some leaf) :
    token.Bounds leaf := by
  have asSpelled (noString : token.kind ≠ .string) :
      token.span = ⟨position, position.after (Source.ofString token.literal).dropLast⟩ := by
    rw [ofString_literal lexeme noString (spelled noString)]
    exact span
  have noSelf {kind : TokenKind} (isKind : token.kind = kind) (other : kind ≠ .selfKeyword) :
      ¬token.IsLongSelf := fun isLong => other (isKind.symm.trans isLong.1)
  unfold Grammar.leaf? at isLeaf
  split at isLeaf
  · next isSelf =>
      cases isLeaf
      exact bounds_of_self lexeme isSelf (asSpelled (by simp [isSelf]))
  · next isString =>
      cases isLeaf
      exact bounds_of_last rfl rfl (noSelf isString (by decide))
  · next isName =>
      cases isLeaf
      exact bounds_of_name lexeme isName (asSpelled (by simp [isName]))
  · next isNumber =>
      cases isLeaf
      exact bounds_of_last rfl rfl (noSelf isNumber (by decide))
  · next isBoolean =>
      cases isLeaf
      exact bounds_of_last rfl rfl (noSelf isBoolean (by decide))
  · cases isLeaf

/--
Every leaf of a parsed program was read from a token of its source, the only one that starts where
the leaf starts. The leaf ends where the token ends, unless the token is the longer spelling of the
self-reference: then the leaf ends one rune early.
-/
theorem exists_token_of_leaf
    {source : Source}
    {program : Program}
    (parsed : parseProgram source = .ok program)
    {leaf : Expression}
    (member : .expression leaf ∈ (Element.program program).walk fun _ => true)
    (isLeaf : leaf.isLeaf = true) :
    ∃ tokens, lex source = .ok tokens ∧ ∃ token ∈ tokens,
      Grammar.ReadsLeaf tokens token leaf ∧
      (∀ other ∈ tokens, other.span.first = leaf.span.first → other = token) ∧
      leaf.span.first = token.span.first ∧
      (leaf.span.last = token.span.last ↔ ¬token.IsLongSelf) ∧
      (token.IsLongSelf → token.span.last =
        ⟨leaf.span.last.offset + 1, leaf.span.last.line, leaf.span.last.column + 1⟩) := by
  cases lexed : lex source with
  | error error =>
      rw [parseProgram_of_lex_error lexed] at parsed
      cases parsed
  | ok tokens =>
      rw [parseProgram_of_lex_ok lexed] at parsed
      cases found : parseTokens tokens with
      | error error =>
          rw [found] at parsed
          cases parsed
      | ok other =>
          rw [found] at parsed
          cases parsed
          obtain ⟨token, reads⟩ := Grammar.exists_readsLeaf found member isLeaf
          obtain ⟨proper, made⟩ := reads.token
          have inTokens : token ∈ tokens := (List.takeWhile_sublist _).subset proper
          obtain ⟨front, lexeme, back, cut, span⟩ :=
            Lexer.exists_piece_of_lex lexed inTokens (Grammar.kind_of_mem_properTokens proper)
          rw [Position.after_append] at span
          obtain ⟨isLexeme, spelled⟩ := Lexer.pieces_holdLexemes source
            (.token token.kind token.literal lexeme) (by simp [cut])
          have bounds := Token.bounds_of_leaf isLexeme spelled span made
          refine ⟨tokens, rfl, token, inTokens, reads, fun other isOther same => ?_, bounds.first,
            bounds.last, bounds.early⟩
          exact (Lexer.inOrder_of_lex lexed).eq_of_first inTokens isOther
            (same.trans bounds.first)

/-- The longer self-reference, and a string with a letter of two bytes. -/
def selfText : Source := .ofString "cette + 'é'"

/-- The tree of the sum, where the self-reference has the four letters of its name. -/
def selfTextTree : Program :=
  ⟨[.statement (.evaluated (.binary "+" (.identifier ⟨selfName, ⟨0, 1, 0⟩⟩)
    (.string "é" ⟨⟨8, 1, 8⟩, ⟨11, 1, 10⟩⟩)))]⟩

/-- Both leaves start with their tokens, and the string ends with its token. -/
theorem exists_token_of_leaf_selfText :
    parseProgram selfText = .ok selfTextTree ∧ ∃ tokens, lex selfText = .ok tokens ∧
      (∃ token ∈ tokens, token.span.first = ⟨0, 1, 0⟩ ∧
        (token.IsLongSelf → token.span.last = ⟨4, 1, 4⟩)) ∧
      ∃ token ∈ tokens, token.span.first = ⟨8, 1, 8⟩ ∧
        (⟨11, 1, 10⟩ = token.span.last ↔ ¬token.IsLongSelf) := by
  have parsed : parseProgram selfText = .ok selfTextTree := by
    cbv
  have walked : (Element.program selfTextTree).walk (fun _ => true) =
      [.program selfTextTree, .statement (.evaluated (.binary "+"
          (.identifier ⟨selfName, ⟨0, 1, 0⟩⟩) (.string "é" ⟨⟨8, 1, 8⟩, ⟨11, 1, 10⟩⟩))),
        .expression (.binary "+" (.identifier ⟨selfName, ⟨0, 1, 0⟩⟩)
          (.string "é" ⟨⟨8, 1, 8⟩, ⟨11, 1, 10⟩⟩)),
        .expression (.identifier ⟨selfName, ⟨0, 1, 0⟩⟩),
        .expression (.string "é" ⟨⟨8, 1, 8⟩, ⟨11, 1, 10⟩⟩)] :=
    rfl
  have leaves := fun leaf => @exists_token_of_leaf _ _ parsed leaf
  rw [walked] at leaves
  obtain ⟨tokens, lexed, self, isSelf, -, -, selfFirst, -, selfLast⟩ :=
    leaves (.identifier ⟨selfName, ⟨0, 1, 0⟩⟩) (by simp) rfl
  obtain ⟨others, lexedAgain, text, isText, -, -, textFirst, textLast, -⟩ :=
    leaves (.string "é" ⟨⟨8, 1, 8⟩, ⟨11, 1, 10⟩⟩) (by simp) rfl
  cases lexed.symm.trans lexedAgain
  exact ⟨parsed, tokens, lexed, ⟨self, isSelf, selfFirst.symm, fun isLong => selfLast isLong⟩,
    text, isText, textFirst.symm, textLast⟩

/-- The longer self-reference on its own has the range of no token. -/
theorem leaf_without_token :
    ∃ program leaf, parseProgram (.ofString "cette") = .ok program ∧
      .expression leaf ∈ (Element.program program).walk (fun _ => true) ∧ leaf.isLeaf = true ∧
      ∀ tokens, lex (.ofString "cette") = .ok tokens →
        ∀ token ∈ tokens, token.span ≠ leaf.span := by
  have lexed : lex (.ofString "cette") = .ok
      [⟨.selfKeyword, "cette", ⟨.start, ⟨4, 1, 4⟩⟩⟩, .endOfInput ⟨5, 1, 5⟩] := by
    have cut : Lexer.pieces (.ofString "cette") =
        [.token .selfKeyword "cette" (.ofString "cette")] := by
      cbv
    rw [Lexer.lex_eq_ok_iff, cut]
    exact ⟨by decide, by decide, by cbv⟩
  have parsed : parseProgram (.ofString "cette") =
      .ok ⟨[.statement (.evaluated (.identifier ⟨selfName, .start⟩))]⟩ := by
    cbv
  have range : (Expression.identifier ⟨selfName, .start⟩).span = ⟨.start, ⟨3, 1, 3⟩⟩ := by
    cbv
  refine ⟨_, .identifier ⟨selfName, .start⟩, parsed, ?_, rfl, fun tokens found => ?_⟩
  · simp [Element.walk, Program.walk, Declaration.walk, Statement.walk, Expression.walk]
  · cases lexed.symm.trans found
    rw [range]
    decide

end FrenchNim
