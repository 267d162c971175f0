import FrenchNim.Proofs.Finality
import FrenchNim.Proofs.Text.Places
import FrenchNim.Proofs.Transpilation

namespace FrenchNim

/-!
# Programs joined by a line break

Two sources with a line break between them are read as the declarations of the
first and then those of the second, if the first one ends outside of comments
and embedded code. Only the positions of the second change: they move by the
bytes and the lines of the first, and stay in their columns, since the second
source starts a line of its own.
-/

namespace Position

/-- The place of a position in a text that was put behind other lines. -/
def shift (bytes lines : Nat) (position : Position) : Position :=
  ⟨position.offset + bytes, position.line + lines, position.column⟩

theorem next_shift
    (bytes lines : Nat)
    (position : Position)
    (rune : Rune) :
    (position.shift bytes lines).next rune = (position.next rune).shift bytes lines := by
  unfold next shift
  split
  · simp only [mk.injEq, and_true]
    omega
  · simp only [mk.injEq, and_true]
    omega

/-- Positions are counted from a shifted start as from the start. -/
theorem after_shift
    (bytes lines : Nat)
    (position : Position)
    (text : Source) :
    (position.shift bytes lines).after text = (position.after text).shift bytes lines := by
  induction text generalizing position with
  | nil =>
      rfl
  | cons rune text inductionHypothesis =>
      rw [after_cons, after_cons, next_shift, inductionHypothesis]

/-- Behind a source and a line break, the next source starts. -/
theorem after_line_start (code : Bytes) :
    (start.after (.ofBytes code)).next lineBreak =
      start.shift (code.length + 1) (code.count lineBreakByte + 1) := by
  rw [after_ofBytes code start rfl, next_lineBreak]
  simp only [start, shift, mk.injEq, and_true]
  omega

end Position

/-- The tokens of pieces that start at a shifted position are shifted. -/
theorem Lexer.tokensAt_shift
    (bytes lines : Nat)
    (position : Position)
    (all : List Piece) :
    tokensAt (position.shift bytes lines) all =
      (tokensAt position all).map (·.relocate (·.shift bytes lines)) := by
  induction all generalizing position with
  | nil =>
      rfl
  | cons piece rest inductionHypothesis =>
      cases piece with
      | trivia text =>
          simp only [tokensAt, Position.after_shift, inductionHypothesis]
      | token kind literal text =>
          simp only [tokensAt, Position.after_shift, inductionHypothesis]
          rfl
      | unterminated text =>
          rfl

namespace Grammar

variable (move : Position → Position)

@[simp] theorem closes_relocate (nesting : Nat) (tokens : List Token) :
    closes nesting (tokens.map (·.relocate move)) = closes nesting tokens := by
  fun_induction closes nesting tokens with
  | case1 => rfl
  | case2 nesting token rest isParen inductionHypothesis =>
      rw [List.map_cons, closes.eq_def]
      simp only [Token.relocate_kind, isParen, inductionHypothesis]
  | case3 token rest isParen =>
      rw [List.map_cons, closes.eq_def]
      simp only [Token.relocate_kind, isParen]
  | case4 token rest isParen nesting inductionHypothesis =>
      rw [List.map_cons, closes.eq_def]
      simp only [Token.relocate_kind, isParen, inductionHypothesis]
  | case5 nesting token rest noOpen noClose inductionHypothesis =>
      rw [List.map_cons, closes.eq_def]
      simp only [Token.relocate_kind, inductionHypothesis]

theorem opensCode_relocate (tokens : List Token) :
    opensCode (tokens.map (·.relocate move)) = opensCode tokens := by
  match tokens with
  | [] | [_] | [_, _] => rfl
  | start :: word :: opening :: inner =>
      rw [List.map_cons, List.map_cons, List.map_cons, opensCode, opensCode, closes_relocate]
      rfl

/-- Whether tokens end inside of embedded code does not depend on positions. -/
theorem endsInCode_relocate (tokens : List Token) :
    endsInCode (tokens.map (·.relocate move)) = endsInCode tokens := by
  induction tokens with
  | nil =>
      rfl
  | cons token rest inductionHypothesis =>
      rw [List.map_cons, endsInCode, inductionHypothesis, ← List.map_cons, opensCode_relocate,
        endsInCode]

end Grammar

/-- A source is parsed if its strings end, its tokens are not too many and make declarations. -/
theorem parseProgram_eq_ok_iff
    {source : Source}
    {program : Program} :
    parseProgram source = .ok program ↔
      (∀ piece ∈ Lexer.pieces source, piece.isTerminated = true) ∧
      (Lexer.tokensAt .start (Lexer.pieces source)).length ≤ tokenLimit ∧
      Grammar.declarations (.endOfInput (Position.start.after source)) Grammar.depthLimit []
          (Grammar.skipNewlines (Lexer.tokensAt .start (Lexer.pieces source))) =
        .ok program.declarations := by
  have proper : ∀ token ∈ Lexer.tokensAt .start (Lexer.pieces source), token.kind ≠ .endOfInput :=
    fun token member =>
      (Lexer.tokensAt_lexemes (Lexer.pieces_holdLexemes source) token member).kind_ne_endOfInput
  have read := Grammar.programWithin_concat Grammar.depthLimit proper
    (show (Token.endOfInput (Position.start.after source)).kind = .endOfInput from rfl)
  constructor
  · intro parsed
    cases lexed : lex source with
    | error error =>
        rw [parseProgram_of_lex_error lexed] at parsed
        cases parsed
    | ok tokens =>
        rw [parseProgram_of_lex_ok lexed] at parsed
        obtain ⟨terminated, within, rfl⟩ := Lexer.lex_eq_ok_iff.mp lexed
        refine ⟨terminated, within, ?_⟩
        rw [parseTokens, read] at parsed
        cases found : Grammar.declarations _ Grammar.depthLimit [] _ with
        | error error =>
            rw [found] at parsed
            cases parsed
        | ok all =>
            rw [found] at parsed
            cases parsed
            rfl
  · rintro ⟨terminated, within, found⟩
    rw [parseProgram_of_lex_ok (Lexer.lex_eq_ok_iff.mpr ⟨terminated, within, rfl⟩), parseTokens,
      read, found]
    rfl

/-- The tokens of two sources with a line break between them. -/
theorem Lexer.tokensAt_joined
    {first : Bytes}
    (terminated : ∀ piece ∈ pieces (.ofBytes first), piece.isTerminated = true)
    (closed : endsInComment (.ofBytes first) = false)
    (second : Source) :
    tokensAt .start (pieces (.ofBytes first ++ lineBreak :: second)) =
      tokensAt .start (pieces (.ofBytes first)) ++
        ⟨.newline, "\n", ⟨Position.start.after (.ofBytes first),
          Position.start.after (.ofBytes first)⟩⟩ ::
        (tokensAt .start (pieces second)).map
          (·.relocate (·.shift (first.length + 1) (first.count lineBreakByte + 1))) := by
  rw [pieces_append_lineBreak terminated closed, tokensAt_append terminated, text_pieces, tokensAt,
    Position.after_cons, Position.after_nil, Position.after_line_start, tokensAt_shift]
  rfl

/--
Two sources that are parsed are parsed with a line break between them, unless
that makes too many tokens, if the first ends outside of comments and embedded
code. The declarations are those of the first and then those of the second,
which move by the bytes and lines before them and stay in their columns.
-/
theorem parseProgram_joined
    {first second : Bytes}
    {before behind : Program}
    (parsedFirst : parseProgram (.ofBytes first) = .ok before)
    (parsedSecond : parseProgram (.ofBytes second) = .ok behind)
    (comment : Lexer.endsInComment (.ofBytes first) = false)
    (code : Lexer.endsInCode (.ofBytes first) = false)
    (within : ∀ position,
      lex (.ofBytes (first ++ lineBreakByte :: second)) ≠ .error (.tokenLimit position)) :
    parseProgram (.ofBytes (first ++ lineBreakByte :: second)) =
      .ok ⟨before.declarations ++ behind.declarations.map
        (·.relocate (·.shift (first.length + 1) (first.count lineBreakByte + 1)))⟩ := by
  obtain ⟨terminated, -, readFirst⟩ := parseProgram_eq_ok_iff.mp parsedFirst
  obtain ⟨terminatedSecond, -, readSecond⟩ := parseProgram_eq_ok_iff.mp parsedSecond
  rw [Source.ofBytes_lineBreak] at within ⊢
  have terminatedWhole :
      ∀ piece ∈ Lexer.pieces (Source.ofBytes first ++ lineBreak :: Source.ofBytes second),
        piece.isTerminated = true := by
    rw [Lexer.pieces_append_lineBreak terminated comment]
    exact List.forall_mem_append.mpr
      ⟨terminated, List.forall_mem_cons.mpr ⟨rfl, terminatedSecond⟩⟩
  refine parseProgram_eq_ok_iff.mpr ⟨terminatedWhole, ?_, ?_⟩
  · rcases Lexer.scan_of_isTerminated tokenLimit .start 0 [] terminatedWhole with
      ⟨found, lexed⟩ | ⟨position, tooMany⟩
    · exact (Lexer.lex_eq_ok_iff.mp lexed).2.1
    · exact (within position tooMany).elim
  · have outside : Grammar.endsInCode (Lexer.tokensAt .start (Lexer.pieces (.ofBytes first))) =
        false := by
      rw [Lexer.endsInCode, Lexer.bareTokens_eq terminated .start] at code
      exact (Grammar.endsInCode_relocate _ _).symm.trans code
    have moved := Grammar.declarations_relocate
      (·.shift (first.length + 1) (first.count lineBreakByte + 1))
      (show (Token.endOfInput (Position.start.after (.ofBytes second))).kind = .endOfInput from rfl)
      Grammar.depthLimit (Lexer.tokensAt .start (Lexer.pieces (.ofBytes second)))
    rw [readSecond] at moved
    rw [Lexer.tokensAt_joined terminated comment, Position.after_append, Position.after_cons,
      Position.after_line_start, Position.after_shift]
    exact Grammar.declarations_joined rfl rfl outside readFirst moved

/-- The source `f //`. -/
def commentedName : Bytes := [0x66, 0x20, 0x2F, 0x2F]

/-- The source `(a)`. -/
def groupedName : Bytes := [0x28, 0x61, 0x29]

/-- The declaration that evaluates a name. -/
def nameAt (name : String) (position : Position) : Declaration :=
  .statement (.evaluated (.identifier ⟨name, position⟩))

/-- A name and a name in parentheses are no call, and the line break ends the comment. -/
theorem parseProgram_joined_names :
    parseProgram (.ofBytes commentedName) = .ok ⟨[nameAt "f" ⟨0, 1, 0⟩]⟩ ∧
      parseProgram (.ofBytes groupedName) = .ok ⟨[nameAt "a" ⟨1, 1, 1⟩]⟩ ∧
      Lexer.endsInComment (.ofBytes commentedName) = false ∧
      Lexer.endsInCode (.ofBytes commentedName) = false ∧
      parseProgram (.ofBytes (commentedName ++ lineBreakByte :: groupedName)) =
        .ok ⟨[nameAt "f" ⟨0, 1, 0⟩, nameAt "a" ⟨6, 2, 1⟩]⟩ := by
  have parsedFirst : parseProgram (.ofBytes commentedName) = .ok ⟨[nameAt "f" ⟨0, 1, 0⟩]⟩ := by
    cbv
  have parsedSecond : parseProgram (.ofBytes groupedName) = .ok ⟨[nameAt "a" ⟨1, 1, 1⟩]⟩ := by
    cbv
  have comment : Lexer.endsInComment (.ofBytes commentedName) = false := by
    cbv
  have code : Lexer.endsInCode (.ofBytes commentedName) = false := by
    cbv
  have short : (Source.ofBytes (commentedName ++ lineBreakByte :: groupedName)).length ≤
      tokenLimit := by
    cbv
  exact ⟨parsedFirst, parsedSecond, comment, code,
    parseProgram_joined parsedFirst parsedSecond comment code (Lexer.lex_ne_tokenLimit short)⟩

end FrenchNim
