import FrenchNim.Proofs.Emission
import FrenchNim.Proofs.Finality
import FrenchNim.Proofs.Grammar.Tracking
import FrenchNim.Proofs.Token.Extents
import FrenchNim.Proofs.Token.Positions
import FrenchNim.Proofs.Transpilation

namespace FrenchNim

/-!
# Where the mistake of a source stands

A source that does not parse has one mistake. If the mistake has a position, it
is the start of a token or of a string without an end, or the end of the source.
So it is the position behind some of the runes of the source, and no blank stands
there.
-/

/-- Where a text stops to be cut into tokens. -/
def LexError.start : LexError → Position
  | .unterminatedString start _ => start
  | .tokenLimit start => start

/-- The position of the token that an error is about. -/
def GrammarError.position : GrammarError → Position
  | .unfit error => error.position
  | .tooDeep position => position

theorem GrammarError.Blames.position
    {error : GrammarError}
    {token : Token}
    (blames : error.Blames token) :
    error.position = token.span.first := by
  cases error with
  | unfit error => exact blames.2.2
  | tooDeep position => exact blames

/-- The position is one of the text, and no blank stands there. -/
structure Position.IsPlaceOf (position : Position) (text before behind : Source) : Prop where
  split : text = before ++ behind
  place : position = Position.start.after before
  visible : ∀ rune ∈ behind.head?, isBlank rune.toChar = false

namespace Lexer

/-- A blank starts neither a token nor a string. -/
theorem isBlank_of_cut
    {first : Rune}
    (rest : Source)
    (blank : isBlank first.toChar = true) :
    ∃ text, (Piece.cut first rest).1 = .trivia text := by
  cases first with
  | char c => exact ⟨_, congrArg Prod.fst (cut_blank blank rest)⟩
  | stray byte => cases blank

/-- The piece behind others is no blank, unless it is skipped. -/
theorem isPlaceOf_of_pieces
    {text : Source}
    {front back : List Piece}
    {piece : Piece}
    (lead : Source)
    (cut : pieces text = front ++ piece :: back)
    (kept : ∀ skipped, piece ≠ .trivia skipped) :
    (Position.start.after (lead ++ front.flatMap Piece.text)).IsPlaceOf (lead ++ text)
      (lead ++ front.flatMap Piece.text) (piece.text ++ back.flatMap Piece.text) := by
  have whole := text_pieces text
  rw [cut, List.flatMap_append, List.flatMap_cons] at whole
  refine ⟨by rw [← whole, List.append_assoc], rfl, fun rune isFirst => ?_⟩
  have member : piece ∈ pieces text := by
    rw [cut]
    simp
  obtain ⟨first, rest, isCut⟩ := exists_cut_of_mem_pieces member
  cases blank : isBlank rune.toChar with
  | false =>
      rfl
  | true =>
      have covers := Piece.text_cut first rest
      have present := Piece.cut_text_ne_nil first rest
      rw [← isCut] at covers present
      have isRune : rune = first := by
        cases shape : piece.text with
        | nil =>
            exact (present shape).elim
        | cons head tail =>
            rw [shape] at covers isFirst
            exact (Option.some.inj isFirst).symm.trans (List.cons.inj covers).1
      obtain ⟨skipped, isTrivia⟩ := isBlank_of_cut rest (isRune ▸ blank)
      exact (kept skipped (isCut.trans isTrivia)).elim

/-- A piece that is not skipped stands at the given place of a text behind a position. -/
def HasPieceAt (text : Source) (position place : Position) : Prop :=
  ∃ front piece back, pieces text = front ++ piece :: back ∧
    (∀ skipped, piece ≠ .trivia skipped) ∧
    place = position.after (front.flatMap Piece.text)

section Places

variable {first : Rune} {rest behind : Source} {piece : Piece} {position place : Position}

theorem hasPieceAt_here
    (shape : Piece.cut first rest = (piece, behind))
    (kept : ∀ skipped, piece ≠ .trivia skipped) :
    HasPieceAt (first :: rest) position position :=
  ⟨[], piece, pieces behind, by rw [pieces_cons, shape, List.nil_append], kept, rfl⟩

theorem HasPieceAt.cons
    (shape : Piece.cut first rest = (piece, behind))
    (later : HasPieceAt behind (position.after piece.text) place) :
    HasPieceAt (first :: rest) position place := by
  obtain ⟨front, other, back, cut, kept, isPlace⟩ := later
  refine ⟨piece :: front, other, back, ?_, kept, ?_⟩
  · rw [pieces_cons, shape, cut, List.cons_append]
  · rw [isPlace, List.flatMap_cons, Position.after_append]

end Places

/-- A piece starts in front of the end of the text. -/
theorem after_ne_of_pieces
    {text : Source}
    {front back : List Piece}
    {piece : Piece}
    (cut : pieces text = front ++ piece :: back) :
    Position.start.after (front.flatMap Piece.text) ≠ Position.start.after text := by
  intro same
  have member : piece ∈ pieces text := by
    rw [cut]
    simp
  obtain ⟨first, rest, isCut⟩ := exists_cut_of_mem_pieces member
  have present : piece.text ≠ [] := by
    rw [isCut]
    exact Piece.cut_text_ne_nil first rest
  have whole := text_pieces text
  rw [cut, List.flatMap_append, List.flatMap_cons] at whole
  have offsets := congrArg Position.offset same
  rw [← whole, Position.offset_after, Position.offset_after, Source.byteSize_append,
    Source.byteSize_append] at offsets
  have wide := Source.length_le_byteSize piece.text
  have long := List.length_pos_iff.mpr present
  omega

/-- A text that has no tokens stops at a piece that is not skipped. -/
theorem hasPieceAt_of_scan
    {limit count : Nat}
    {position : Position}
    {read : List Token}
    {text : Source}
    {error : LexError}
    (failed : scan limit position count read text = .error error) :
    HasPieceAt text position error.start := by
  fun_induction scan limit position count read text with
  | case1 =>
      cases failed
  | case2 position count read first rest text rest' shape inductionHypothesis =>
      exact .cons shape (inductionHypothesis failed)
  | case3 position count read first rest kind literal text rest' shape full =>
      cases failed
      exact hasPieceAt_here shape (by simp)
  | case4 position count read first rest kind literal text rest' shape room span
      inductionHypothesis =>
      exact .cons shape (inductionHypothesis failed)
  | case5 position count read first rest text rest' shape =>
      cases failed
      exact hasPieceAt_here shape (by simp)

/-- A token stands at its place, and the end of the input behind the text. -/
theorem exists_place_of_suffix
    (lead : Source)
    {text : Source}
    {used rest : List Token}
    (split : tokensAt (Position.start.after lead) (pieces text) = used ++ rest) :
    ∃ before behind, (Grammar.current (.endOfInput (Position.start.after (lead ++ text)))
      rest).span.first.IsPlaceOf (lead ++ text) (lead ++ before) behind := by
  cases rest with
  | nil =>
      exact ⟨text, [], (List.append_nil _).symm, rfl, by simp⟩
  | cons token later =>
      obtain ⟨front, lexeme, back, cut, -, span⟩ := exists_piece_of_tokensAt split
      have place := isPlaceOf_of_pieces lead cut (by simp)
      refine ⟨_, _, place.split, ?_, place.visible⟩
      rw [Grammar.current, List.headD_cons, span, Position.after_append _ lead]

end Lexer

namespace ParseFault

/-- The position that a source goes wrong at. -/
def position : ParseFault → Position
  | lexical error => error.start
  | grammatical error => error.position

/-- The first mistake of a source. -/
def mistake : ParseFault → Failure
  | lexical error => .ofLexError error
  | grammatical error => .ofGrammarError error

/-- A mistake points nowhere else. -/
theorem eq_of_span?_mistake
    {fault : ParseFault}
    {span : Span}
    (placed : fault.mistake.span? = some span) :
    span = ⟨fault.position, fault.position⟩ := by
  rcases fault with (_ | _) | (_ | _) <;> cases placed <;> rfl

end ParseFault

theorem Failure.ofParseFault_eq (code : Source) (fault : ParseFault) :
    ofParseFault code fault = .parsing code [fault.mistake] := by
  cases fault with
  | lexical error => rfl
  | grammatical error => rfl

/-- A grammar error of a source is about the first token that the goal of a program refuses. -/
theorem refuses_of_parseProgram
    {source : Source}
    {error : GrammarError}
    (failed : parseProgram source = .error (.grammatical error)) :
    ∃ rest, error.Blames
        (Grammar.current (.endOfInput (Position.start.after source)) rest) ∧
      Grammar.Leads (.endOfInput (Position.start.after source))
        [.program Grammar.depthLimit] (Lexer.tokensAt .start (Lexer.pieces source)) rest
        .refuses := by
  cases lexed : lex source with
  | error other =>
      rw [parseProgram_of_lex_error lexed] at failed
      cases failed
  | ok tokens =>
      rw [parseProgram_of_lex_ok lexed] at failed
      obtain ⟨-, -, rfl⟩ := Lexer.lex_eq_ok_iff.mp lexed
      cases parsed : parseTokens (Lexer.tokensAt .start (Lexer.pieces source) ++
          [Token.endOfInput (Position.start.after source)]) with
      | ok program =>
          rw [parsed] at failed
          cases failed
      | error found =>
          rw [parsed] at failed
          cases failed
          exact Grammar.refuses_of_programWithin rfl
            (fun token member => (Lexer.tokensAt_lexemes (Lexer.pieces_holdLexemes source) token
              member).kind_ne_endOfInput) parsed

/-- A program does not refuse a line break. -/
theorem Grammar.Leads.behind_newline
    {final token : Token}
    {room : Nat}
    {tokens rest : List Token}
    (isBreak : token.kind = .newline)
    (refused : Leads final [.program room] (token :: tokens) rest .refuses) :
    Leads final [.program room] tokens rest .refuses := by
  have takes : Goal.meetAll token.kind [.program room] = .takes [.program room] := by
    rw [isBreak]
    rfl
  obtain ⟨used, left, split, reached, refuses⟩ := refused
  cases used with
  | nil =>
      cases split
      cases reached
      cases takes.symm.trans refuses
  | cons first used =>
      cases split
      rw [List.map_cons, Goal.await_cons, Goal.feed, takes] at reached
      exact ⟨used, left, rfl, reached, refuses⟩

/-- What a program refuses stands behind the line breaks that it starts with. -/
theorem exists_suffix_of_lineBreaks
    {final : Token}
    {room : Nat}
    {rest : List Token}
    {text : Source}
    (count : Nat)
    (lead : Source)
    (refused : Grammar.Leads final [.program room] (Lexer.tokensAt (Position.start.after lead)
      (Lexer.pieces (List.replicate count lineBreak ++ text))) rest .refuses) :
    ∃ used, Lexer.tokensAt (Position.start.after (lead ++ List.replicate count lineBreak))
      (Lexer.pieces text) = used ++ rest := by
  induction count generalizing lead with
  | zero =>
      obtain ⟨used, -, split, -⟩ := refused
      rw [List.replicate_zero, List.append_nil]
      exact ⟨used, split⟩
  | succ count inductionHypothesis =>
      rw [List.replicate_succ, List.cons_append, Lexer.pieces_lineBreak_cons,
        Lexer.tokensAt] at refused
      have behind := refused.behind_newline rfl
      rw [← Position.after_append] at behind
      obtain ⟨used, split⟩ := inductionHypothesis _ behind
      rw [List.append_assoc, List.singleton_append, ← List.replicate_succ] at split
      exact ⟨used, split⟩

/-- A source that is cut into tokens goes wrong behind the line breaks that it starts with. -/
theorem exists_place_of_lineBreaks
    (count : Nat)
    {text : Source}
    {error : GrammarError}
    (failed : parseProgram (List.replicate count lineBreak ++ text) =
      .error (.grammatical error)) :
    ∃ before behind, error.position.IsPlaceOf (List.replicate count lineBreak ++ text)
      (List.replicate count lineBreak ++ before) behind := by
  obtain ⟨rest, blames, refused⟩ := refuses_of_parseProgram failed
  obtain ⟨used, split⟩ := exists_suffix_of_lineBreaks count [] refused
  rw [List.nil_append] at split
  rw [blames.position]
  exact Lexer.exists_place_of_suffix _ split

/-- A source that goes wrong in the scanner has no tokens. -/
theorem lex_of_parseProgram
    {source : Source}
    {error : LexError}
    (failed : parseProgram source = .error (.lexical error)) :
    lex source = .error error := by
  cases lexed : lex source with
  | ok tokens =>
      rw [parseProgram_of_lex_ok lexed] at failed
      cases parsed : parseTokens tokens <;> rw [parsed] at failed <;> cases failed
  | error other =>
      rw [parseProgram_of_lex_error lexed] at failed
      cases failed
      rfl

/-- A source goes wrong at one of its places. -/
theorem exists_place_of_parseProgram
    {source : Source}
    {fault : ParseFault}
    (failed : parseProgram source = .error fault) :
    ∃ before behind, fault.position.IsPlaceOf source before behind := by
  cases fault with
  | lexical error =>
      obtain ⟨front, piece, back, cut, kept, place⟩ :=
        Lexer.hasPieceAt_of_scan (lex_of_parseProgram failed)
      rw [ParseFault.position, place]
      exact ⟨_, _, Lexer.isPlaceOf_of_pieces [] cut kept⟩
  | grammatical error =>
      obtain ⟨before, behind, place⟩ := exists_place_of_lineBreaks 0 failed
      exact ⟨before, behind, place⟩

/--
A source that goes wrong at its end is incomplete, unless its expressions are nested
too deeply there.
-/
theorem isIncomplete_or_tooDeep_of_end
    {source : Source}
    {fault : ParseFault}
    (failed : parseProgram source = .error fault)
    (atEnd : fault.position = Position.start.after source) :
    (Failure.ofParseFault source fault).isIncomplete = true ∨
      fault = .grammatical (.tooDeep (Position.start.after source)) := by
  cases fault with
  | lexical error =>
      cases error with
      | unterminatedString start lastLine =>
          exact .inl rfl
      | tokenLimit start =>
          obtain ⟨front, piece, back, cut, -, place⟩ :=
            Lexer.hasPieceAt_of_scan (lex_of_parseProgram failed)
          exact (Lexer.after_ne_of_pieces cut (place.symm.trans atEnd)).elim
  | grammatical error =>
      obtain ⟨rest, blames, used, -, split, -⟩ := refuses_of_parseProgram failed
      have place : error.position = Position.start.after source := atEnd
      cases rest with
      | nil =>
          cases error with
          | unfit error =>
              rw [isIncomplete_ofParseFault]
              exact .inl (decide_eq_true blames.2.1)
          | tooDeep position =>
              rw [← place]
              exact .inr rfl
      | cons token later =>
          obtain ⟨front, lexeme, back, cut, -, span⟩ := Lexer.exists_piece_of_tokensAt split
          rw [blames.position, Grammar.current, List.headD_cons, span] at place
          exact (Lexer.after_ne_of_pieces cut place).elim

namespace Pipeline

variable {normalizer : Normalizer} {library : String} {code : Source} {failure : Failure}

/-- A source that is not parsed has a fault behind the normalizer. -/
theorem exists_fault_of_parse
    (failed : parse normalizer code = .error failure) :
    ∃ fault, parseProgram (normalizer.apply code) = .error fault ∧
      failure = .ofParseFault (normalizer.apply code) fault := by
  unfold parse runParse parsePrepared at failed
  cases lexed : lex (normalizer.apply code) with
  | error error =>
      rw [lexed] at failed
      cases failed
      exact ⟨_, parseProgram_of_lex_error lexed, rfl⟩
  | ok tokens =>
      rw [parseProgram_of_lex_ok lexed]
      rw [lexed] at failed
      cases read : parseTokens tokens with
      | error error =>
          simp only [read] at failed
          cases failed
          exact ⟨_, rfl, rfl⟩
      | ok program =>
          simp only [read] at failed
          cases failed

/-- A source that is not transpiled is not parsed. -/
theorem parse_of_transpile
    (failed : transpile normalizer library code = .error failure) :
    parse normalizer code = .error failure := by
  cases parsed : parse normalizer code with
  | error other =>
      unfold parse at parsed
      simp only [transpile, run, parsed] at failed
      cases failed
      rfl
  | ok program =>
      obtain ⟨tokens, -, read⟩ := parse_eq_ok_iff.mp parsed
      obtain ⟨nim, made⟩ := generate_of_parsed library read
      rw [transpile_eq_ok_iff.mpr ⟨program, parsed, made⟩] at failed
      cases failed

/-- A source with a fault behind the normalizer is not transpiled. -/
theorem transpile_of_fault
    {fault : ParseFault}
    (failed : parseProgram (normalizer.apply code) = .error fault) :
    transpile normalizer library code = .error (.ofParseFault (normalizer.apply code) fault) := by
  cases outcome : transpile normalizer library code with
  | ok nim =>
      obtain ⟨program, parsed, -⟩ := transpile_eq_ok_iff.mp outcome
      obtain ⟨tokens, lexed, read⟩ := parse_eq_ok_iff.mp parsed
      rw [parseProgram_of_lex_ok lexed, read] at failed
      cases failed
  | error failure =>
      obtain ⟨other, isFault, rfl⟩ := exists_fault_of_parse (parse_of_transpile outcome)
      cases failed.symm.trans isFault
      rfl

end Pipeline

end FrenchNim
