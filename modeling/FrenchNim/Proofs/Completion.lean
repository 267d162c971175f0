import FrenchNim.Proofs.Failure.Places
import FrenchNim.Proofs.Grammar.Completion
import FrenchNim.Proofs.Syntax.Spelling
import FrenchNim.Proofs.Token.Openings

namespace FrenchNim

open Grammar (Goal)

/-!
# Sources that can be completed

A source that ends with a line break can be completed if more bytes make it parse.
The tokens in front of the line break stay whatever follows, so the source has to be
the start of a program, and no expression that is nested too deeply may be awaited.
Then closing what is open in the text, and meeting all goals with few tokens, completes it.

A program that ends too early is such a start. A string without an end is not: it is
found before the grammar sees the tokens in front of it.
-/

/-- The code parses, however many tokens it has. -/
def Accepts (code : Bytes) : Prop :=
  ∃ limit tokens program, lexWithin limit (.ofBytes code) = .ok tokens ∧
    parseTokens tokens = .ok program

/-- More bytes behind the code make it parse. -/
def Completes (code : Bytes) : Prop :=
  ∃ more, Accepts (code ++ more)

/-- The tokens of a source may start a program, and nothing is awaited that is nested too deeply. -/
def isCompletable (source : Source) : Bool :=
  (Goal.await [.program Grammar.depthLimit] (Lexer.kindsOf source)).any
    (!·.contains (.expression 0))

theorem isCompletable_iff {source : Source} :
    isCompletable source = true ↔
      ∃ goals, Goal.await [.program Grammar.depthLimit] (Lexer.kindsOf source) = some goals ∧
        .expression 0 ∉ goals := by
  rw [isCompletable, Option.any_eq_true]
  simp

namespace Lexer

/-- The kinds of the tokens of a text whose strings end. -/
theorem map_kind_tokensAt
    {all : List Piece}
    (terminated : ∀ piece ∈ all, piece.isTerminated = true)
    (position : Position) :
    (tokensAt position all).map (·.kind) = all.filterMap Piece.kind? := by
  induction all generalizing position with
  | nil =>
      rfl
  | cons piece rest inductionHypothesis =>
      obtain ⟨here, later⟩ := List.forall_mem_cons.mp terminated
      cases piece with
      | trivia text => exact inductionHypothesis later _
      | token kind literal text =>
          exact congrArg (kind :: ·) (inductionHypothesis later (position.after text))
      | unterminated text => cases here

end Lexer

/-- Code is accepted if its strings end and its tokens meet the goal of a program. -/
theorem accepts_iff {code : Bytes} :
    Accepts code ↔ Lexer.HasStringEnds (.ofBytes code) ∧
      Goal.Clears .endOfInput [.program Grammar.depthLimit] (Lexer.kindsOf (.ofBytes code)) := by
  have parses : Lexer.HasStringEnds (.ofBytes code) →
      ((∃ program, parseTokens (Lexer.tokensAt .start (Lexer.pieces (.ofBytes code)) ++
        [Token.endOfInput (Position.start.after (.ofBytes code))]) = .ok program) ↔
      Goal.Clears .endOfInput [.program Grammar.depthLimit] (Lexer.kindsOf (.ofBytes code))) := by
    intro terminated
    rw [Lexer.kindsOf, ← Lexer.map_kind_tokensAt terminated .start]
    exact Grammar.programWithin_iff rfl fun token member =>
      (Lexer.tokensAt_lexemes (Lexer.pieces_holdLexemes _) token member).kind_ne_endOfInput
  constructor
  · rintro ⟨limit, tokens, program, lexed, parsed⟩
    obtain ⟨terminated, -, rfl⟩ := Lexer.lexWithin_eq_ok_iff.mp lexed
    exact ⟨terminated, (parses terminated).mp ⟨program, parsed⟩⟩
  · rintro ⟨terminated, clears⟩
    obtain ⟨program, parsed⟩ := (parses terminated).mpr clears
    exact ⟨_, _, program, Lexer.lexWithin_eq_ok_iff.mpr ⟨terminated, le_rfl, rfl⟩, parsed⟩

/-! ## Texts that spell a completion -/

/-- Tokens of the given kinds are written with ASCII characters. -/
def HasSpelling (kinds : List TokenKind) : Prop :=
  ∃ text tokens, (∀ c ∈ text.toList, c.toNat < 0x80) ∧ Ends text tokens ∧
    tokens.map (·.kind) = kinds

theorem hasSpelling_word
    {kind : TokenKind}
    (word : String)
    (ascii : ∀ c ∈ word.toList, c.toNat < 0x80)
    (isWord : IsWord word.toList)
    (isKind : Keyword.kindOf word = kind) :
    HasSpelling [kind] := by
  refine ⟨word ++ " ", _, ?_, ends_keyword word rfl isWord isKind, rfl⟩
  rw [String.toList_append]
  exact List.forall_mem_append.mpr ⟨ascii, by simp⟩

theorem hasSpelling_sign
    {kind : TokenKind}
    (c : Char)
    (ascii : c.toNat < 0x80)
    (isOperator : ∀ next, operator? c next = some (kind, false)) :
    HasSpelling [kind] := by
  refine ⟨_, _, ?_, ends_operator isOperator, rfl⟩
  rw [String.toList_ofList]
  exact List.forall_mem_singleton.mpr ascii

/-- So is every token that completions are made of. -/
theorem hasSpelling_of_completing
    {kind : TokenKind}
    (known : kind ∈ Goal.completing) :
    HasSpelling [kind] := by
  simp only [Goal.completing, List.mem_cons, List.not_mem_nil, or_false] at known
  rcases known with rfl | rfl | rfl | rfl | rfl | rfl | rfl | rfl | rfl | rfl | rfl | rfl
  · exact hasSpelling_word "x" (by simp) (by decide) (by decide)
  · exact ⟨_, _, by simp [Quoted.literal, Quoted.encode], ends_quoted "", rfl⟩
  · exact hasSpelling_word "egal" (by simp) (by decide) (by decide)
  · exact hasSpelling_word "ouvrir" (by simp) (by decide) (by decide)
  · exact hasSpelling_word "refermer" (by simp) (by decide) (by decide)
  · exact hasSpelling_word "de" (by simp) (by decide) (by decide)
  · exact hasSpelling_word "nim" (by simp) (by decide) (by decide)
  · exact hasSpelling_sign ';' (by decide) fun _ => rfl
  · exact hasSpelling_sign '(' (by decide) fun _ => rfl
  · exact hasSpelling_sign ')' (by decide) fun _ => rfl
  · exact hasSpelling_sign ']' (by decide) fun _ => rfl
  · exact hasSpelling_sign '}' (by decide) fun _ => rfl

/-- Tokens are written behind one another. -/
theorem hasSpelling_of_forall
    {kinds : List TokenKind}
    (spelled : ∀ kind ∈ kinds, HasSpelling [kind]) :
    HasSpelling kinds := by
  induction kinds with
  | nil =>
      exact ⟨"", [], by simp, ends_nil, rfl⟩
  | cons kind rest inductionHypothesis =>
      obtain ⟨here, later⟩ := List.forall_mem_cons.mp spelled
      obtain ⟨text, tokens, ascii, ends, isKind⟩ := here
      obtain ⟨more, others, asciiMore, endsMore, areKinds⟩ := inductionHypothesis later
      refine ⟨text ++ more, _, ?_, ends.append endsMore, ?_⟩
      · rw [String.toList_append]
        exact List.forall_mem_append.mpr ⟨ascii, asciiMore⟩
      · rw [List.map_append, isKind, areKinds]
        rfl

/-- The written tokens are found again. -/
theorem HasSpelling.exists_text
    {kinds : List TokenKind}
    (spelled : HasSpelling kinds) :
    ∃ text : List Char, (∀ c ∈ text, c.toNat < 0x80) ∧
      Lexer.HasStringEnds (text.map .char) ∧ Lexer.kindsOf (text.map .char) = kinds := by
  obtain ⟨text, tokens, ascii, ends, rfl⟩ := spelled
  have found : Lexer.bareTokens (Lexer.pieces (text.toList.map .char)) = some tokens := by
    have alone := ends []
    rwa [List.append_nil, Lexer.lexemes_nil, Option.map_some, List.append_nil] at alone
  have terminated := Lexer.isTerminated_of_bareTokens found
  refine ⟨text.toList, ascii, terminated, ?_⟩
  rw [Lexer.bareTokens_eq terminated .start] at found
  cases found
  rw [Lexer.kindsOf, ← Lexer.map_kind_tokensAt terminated .start, List.map_map]
  rfl

/-! ## Completing a source -/

/-- Only code whose tokens may start a program is accepted with more bytes behind it. -/
theorem isCompletable_of_accepts
    {front more : Bytes}
    (accepts : Accepts (front ++ lineBreakByte :: more)) :
    isCompletable (.ofBytes (front ++ [lineBreakByte])) = true := by
  obtain ⟨-, left, reached, passes⟩ := accepts_iff.mp accepts
  obtain ⟨closing, -, isClosed⟩ := Lexer.exists_closing (Source.ofBytes front)
  rw [Source.ofBytes_lineBreak] at reached
  obtain ⟨behind, split⟩ := isClosed.kept (Source.ofBytes more)
  rw [← split, Goal.await_append] at reached
  obtain ⟨goals, awaited, later⟩ := Option.bind_eq_some_iff.mp reached
  rw [isCompletable_iff, Source.ofBytes_lineBreak, Source.ofBytes_nil]
  exact ⟨goals, awaited, fun deep => Goal.not_clears_of_deep deep _ _ ⟨left, later, passes⟩⟩

/-- Such code is completed by closing what is open in it, and by tokens that meet all goals. -/
theorem completes_of_isCompletable
    {front : Bytes}
    (completable : isCompletable (.ofBytes (front ++ [lineBreakByte])) = true) :
    Completes (front ++ [lineBreakByte]) := by
  obtain ⟨goals, awaited, shallow⟩ := isCompletable_iff.mp completable
  have orderly := (Goal.orderly_program Grammar.depthLimit).await awaited
  obtain ⟨text, ascii, terminated, kinds⟩ := (hasSpelling_of_forall fun kind member =>
    hasSpelling_of_completing
      (Goal.mem_completing_of_mem_completionOf orderly kind member)).exists_text
  obtain ⟨closing, known, isClosed⟩ := Lexer.exists_closing (Source.ofBytes front)
  have asciiClosing : ∀ c ∈ closing, c.toNat < 0x80 := by
    have all : ∀ closing ∈ Lexer.closings, ∀ c ∈ closing, c.toNat < 0x80 := by
      simp [Lexer.closings]
    exact all closing known
  have decoded := Source.ofBytes_ascii (List.forall_mem_append.mpr ⟨asciiClosing, ascii⟩)
  refine ⟨(closing ++ text).map (UInt8.ofNat ·.toNat), accepts_iff.mpr ?_⟩
  rw [List.append_assoc, List.singleton_append, Source.ofBytes_lineBreak, decoded, List.map_append]
  rw [Source.ofBytes_lineBreak, Source.ofBytes_nil] at awaited
  refine ⟨isClosed.terminated _ terminated, ?_⟩
  obtain ⟨left, later, passes⟩ := Goal.clears_completionOf orderly shallow
  refine ⟨left, ?_, passes⟩
  rw [isClosed.closed, kinds, Goal.await_append, awaited]
  exact later

/-! ## Programs that end too early -/

/-- A grammar error is about a text whose strings end. -/
theorem hasStringEnds_of_parseProgram
    {source : Source}
    {error : GrammarError}
    (failed : parseProgram source = .error (.grammatical error)) :
    Lexer.HasStringEnds source := by
  cases lexed : lex source with
  | error other =>
      rw [parseProgram_of_lex_error lexed] at failed
      cases failed
  | ok tokens =>
      exact (Lexer.lex_eq_ok_iff.mp lexed).1

/-- All tokens of a program that ends too early are awaited. -/
theorem exists_goals_of_incomplete
    {source : Source}
    {error : GrammarError}
    (failed : parseProgram source = .error (.grammatical error))
    (incomplete : (Failure.ofGrammarError error).isIncomplete = true) :
    ∃ goals, Goal.await [.program Grammar.depthLimit] (Lexer.kindsOf source) = some goals := by
  obtain ⟨rest, blames, used, goals, split, reached, -⟩ := refuses_of_parseProgram failed
  cases error with
  | tooDeep position => cases incomplete
  | unfit error =>
      have isEnd : error.gotKind = .endOfInput := of_decide_eq_true incomplete
      cases rest with
      | cons token rest =>
          have member : token ∈ Lexer.tokensAt .start (Lexer.pieces source) := by
            rw [split]
            simp
          have lexeme := Lexer.tokensAt_lexemes (Lexer.pieces_holdLexemes source) token member
          exact (lexeme.kind_ne_endOfInput (blames.2.1.symm.trans isEnd)).elim
      | nil =>
          rw [List.append_nil] at split
          have terminated := hasStringEnds_of_parseProgram failed
          rw [Lexer.kindsOf, ← Lexer.map_kind_tokensAt terminated .start, split]
          exact ⟨goals, reached⟩

/-- Behind a line break that is a token, no expression is awaited that is nested too deeply. -/
theorem isCompletable_of_incomplete
    {source : Source}
    {error : GrammarError}
    (ends : source.getLast? = some lineBreak)
    (failed : parseProgram source = .error (.grammatical error))
    (incomplete : (Failure.ofGrammarError error).isIncomplete = true)
    (closed : Lexer.endsInComment source = false) :
    isCompletable source = true := by
  obtain ⟨goals, awaited⟩ := exists_goals_of_incomplete failed incomplete
  refine isCompletable_iff.mpr ⟨goals, awaited, ?_⟩
  obtain ⟨before, split⟩ :=
    Lexer.pieces_eq_concat ends (hasStringEnds_of_parseProgram failed) closed
  rw [Lexer.kindsOf, split, List.filterMap_append, Goal.await_append] at awaited
  obtain ⟨middle, reached, last⟩ := Option.bind_eq_some_iff.mp awaited
  have orderly := (Goal.orderly_program Grammar.depthLimit).await reached
  obtain ⟨left, fed, same⟩ := Option.bind_eq_some_iff.mp last
  cases same
  unfold Goal.feed at fed
  cases step : Goal.meetAll .newline middle with
  | takes found =>
      rw [step] at fed
      cases fed
      exact Goal.shallow_of_newline orderly step
  | passes =>
      rw [step] at fed
      cases fed
  | refuses =>
      rw [step] at fed
      cases fed

/--
Which sources that end with a line break can be completed. A program that ends too
early can be, unless a comment is open at its end.
-/
theorem completes_iff
    {code : Bytes}
    (ends : code.getLast? = some lineBreakByte) :
    (Completes code ↔ isCompletable (.ofBytes code) = true) ∧
      ∀ error, parseProgram (.ofBytes code) = .error (.grammatical error) →
        (Failure.ofGrammarError error).isIncomplete = true →
        Lexer.endsInComment (.ofBytes code) = false →
        Completes code := by
  obtain ⟨front, rfl⟩ := List.getLast?_eq_some_iff.mp ends
  refine ⟨⟨?_, completes_of_isCompletable⟩, fun error failed incomplete closed => ?_⟩
  · rintro ⟨more, accepts⟩
    rw [List.append_assoc] at accepts
    exact isCompletable_of_accepts accepts
  · refine completes_of_isCompletable (isCompletable_of_incomplete ?_ failed incomplete closed)
    rw [Source.ofBytes_lineBreak, Source.ofBytes_nil, List.getLast?_concat]

/-- The code `si (x) ouvrir` and a line break. -/
def openBranch : Bytes :=
  [0x73, 0x69, 0x20, 0x28, 0x78, 0x29, 0x20, 0x6F, 0x75, 0x76, 0x72, 0x69, 0x72, 0x0A]

/-- A branch that is not closed can be completed. -/
theorem completes_iff_openBranch :
    openBranch.getLast? = some lineBreakByte ∧
      ∃ error, parseProgram (.ofBytes openBranch) = .error (.grammatical error) ∧
        (Failure.ofGrammarError error).isIncomplete = true ∧
        Lexer.endsInComment (.ofBytes openBranch) = false ∧
        Completes openBranch ∧ isCompletable (.ofBytes openBranch) = true := by
  have failed : parseProgram (.ofBytes openBranch) =
      .error (.grammatical (.unfit ⟨"Expected 'refermer'", "", .endOfInput, ⟨14, 2, 0⟩, ""⟩)) := by
    cbv
  have closed : Lexer.endsInComment (.ofBytes openBranch) = false := by
    cbv
  have ends : openBranch.getLast? = some lineBreakByte := rfl
  obtain ⟨completable, goesOn⟩ := completes_iff ends
  have completes := goesOn _ failed rfl closed
  exact ⟨ends, _, failed, rfl, closed, completes, completable.mp completes⟩

/-- The code `)"` and a line break. -/
def strayQuote : Bytes := [0x29, 0x22, 0x0A]

/--
Nothing completes a source that goes wrong in front of a string without an end, but
the string is all that is reported.
-/
theorem not_completes_strayQuote :
    strayQuote.getLast? = some lineBreakByte ∧
      (∃ fault, parseProgram (.ofBytes strayQuote) = .error fault ∧
        (Failure.ofParseFault (.ofBytes strayQuote) fault).isIncomplete = true) ∧
      ¬Completes strayQuote := by
  refine ⟨rfl, ⟨.lexical (.unterminatedString ⟨1, 1, 1⟩ 2), by cbv, rfl⟩, ?_⟩
  rintro ⟨more, accepts⟩
  have completable := @isCompletable_of_accepts [0x29, 0x22] more accepts
  have refused : isCompletable (.ofBytes strayQuote) = false := by
    cbv
  cases refused.symm.trans completable

end FrenchNim
