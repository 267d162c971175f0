import FrenchNim.Pipeline
import FrenchNim.Proofs.Grammar.Joining
import FrenchNim.Proofs.Nim.Positions
import FrenchNim.Proofs.Token.Joining
import FrenchNim.Proofs.Token.Lexemes
import FrenchNim.Proofs.Token.Spelling

namespace FrenchNim

/-!
# Sources behind one another

A source that ends with a line break, outside of comments and embedded code,
can be followed by another one: the Nim code of the two is that of the first and
then that of the second. What a source stands for is told by its tokens without
positions, so it does not matter where in a source a part of it begins.
-/

namespace Lexer

/-- Pieces behind one another have their tokens behind one another. -/
theorem bareTokens_append
    {front behind : List Piece}
    {first second : List Token}
    (frontTokens : bareTokens front = some first)
    (behindTokens : bareTokens behind = some second) :
    bareTokens (front ++ behind) = some (first ++ second) := by
  induction front generalizing first with
  | nil =>
      cases frontTokens
      exact behindTokens
  | cons piece rest inductionHypothesis =>
      cases piece with
      | trivia text =>
          exact inductionHypothesis frontTokens
      | token kind literal text =>
          obtain ⟨later, found, rfl⟩ := Option.map_eq_some_iff.mp frontTokens
          rw [List.cons_append, bareTokens, inductionHypothesis found]
          rfl
      | unterminated text =>
          cases frontTokens

/-- The text ends inside of embedded code. -/
def endsInCode (text : Source) : Bool :=
  (bareTokens (pieces text)).any Grammar.endsInCode

/-- The tokens of white space are line breaks. -/
theorem bareTokens_of_isWhiteSpace
    {text : Source}
    (white : ∀ rune ∈ text, isWhiteSpace rune.toChar = true) :
    ∃ tokens, bareTokens (pieces text) = some tokens ∧
      ∀ token ∈ tokens, token.kind = .newline := by
  have shapes := pieces_of_isWhiteSpace white
  generalize pieces text = all at shapes ⊢
  induction all with
  | nil =>
      exact ⟨[], rfl, by simp⟩
  | cons piece rest inductionHypothesis =>
      obtain ⟨first, later⟩ := List.forall_mem_cons.mp shapes
      obtain ⟨tokens, found, breaks⟩ := inductionHypothesis later
      rcases first with rfl | ⟨rune, more, rfl, -⟩
      · refine ⟨.bare .newline "\n" :: tokens, ?_, List.forall_mem_cons.mpr ⟨rfl, breaks⟩⟩
        rw [bareTokens, found]
        rfl
      · exact ⟨tokens, found, breaks⟩

/-- White space does not end inside of a comment. -/
theorem endsInComment_of_isWhiteSpace
    {text : Source}
    (white : ∀ rune ∈ text, isWhiteSpace rune.toChar = true) :
    endsInComment text = false := by
  unfold endsInComment
  cases isLast : (pieces text).getLast? with
  | none =>
      rfl
  | some piece =>
      rcases pieces_of_isWhiteSpace white piece (List.mem_of_getLast? isLast) with
        rfl | ⟨first, more, rfl, noSlash⟩
      · rfl
      · cases more with
        | nil => rfl
        | cons second body => simp [Piece.isOpenComment, noSlash]

/-- A text whose strings end has tokens, or there are too many of them. -/
theorem scan_of_isTerminated
    (limit : Nat)
    (position : Position)
    (count : Nat)
    (read : List Token)
    {text : Source}
    (terminated : ∀ piece ∈ pieces text, piece.isTerminated = true) :
    (∃ tokens, scan limit position count read text = .ok tokens) ∨
      ∃ start, scan limit position count read text = .error (.tokenLimit start) := by
  fun_induction scan limit position count read text with
  | case1 =>
      exact .inl ⟨_, rfl⟩
  | case2 position count read first rest text rest' shape inductionHypothesis =>
      rw [pieces_cons, shape] at terminated
      exact inductionHypothesis (List.forall_mem_cons.mp terminated).2
  | case3 =>
      exact .inr ⟨_, rfl⟩
  | case4 position count read first rest kind literal text rest' shape room span
      inductionHypothesis =>
      rw [pieces_cons, shape] at terminated
      exact inductionHypothesis (List.forall_mem_cons.mp terminated).2
  | case5 position count read first rest text rest' shape =>
      rw [pieces_cons, shape] at terminated
      cases (List.forall_mem_cons.mp terminated).1

/-- A text that is not longer than the limit does not have too many tokens. -/
theorem scan_ne_tokenLimit
    (limit : Nat)
    (position : Position)
    (count : Nat)
    (read : List Token)
    {text : Source}
    (short : count + text.length ≤ limit)
    (start : Position) :
    scan limit position count read text ≠ .error (.tokenLimit start) := by
  fun_induction scan limit position count read text with
  | case1 =>
      intro failed
      cases failed
  | case2 position count read first rest text rest' shape inductionHypothesis =>
      have shorter := Piece.length_cut_lt first rest
      rw [shape] at shorter
      exact inductionHypothesis (by simp only [List.length_cons] at short shorter; omega)
  | case3 position count read first rest kind literal text rest' shape full =>
      rw [List.length_cons] at short
      omega
  | case4 position count read first rest kind literal text rest' shape room span
      inductionHypothesis =>
      have shorter := Piece.length_cut_lt first rest
      rw [shape] at shorter
      exact inductionHypothesis (by simp only [List.length_cons] at short shorter; omega)
  | case5 =>
      intro failed
      cases failed

theorem lex_ne_tokenLimit
    {text : Source}
    (short : text.length ≤ tokenLimit)
    (start : Position) :
    lex text ≠ .error (.tokenLimit start) :=
  scan_ne_tokenLimit tokenLimit .start 0 [] (by omega) start

end Lexer

/-- Line breaks are no embedded code. -/
theorem Grammar.endsInCode_of_newlines
    {tokens : List Token}
    (breaks : ∀ token ∈ tokens, token.kind = .newline) :
    endsInCode tokens = false := by
  induction tokens with
  | nil =>
      rfl
  | cons token rest inductionHypothesis =>
      obtain ⟨isBreak, later⟩ := List.forall_mem_cons.mp breaks
      rw [endsInCode, inductionHypothesis later, Bool.or_false]
      unfold opensCode
      split
      · next start _ _ _ same =>
          cases same
          simp [isBreak]
      · rfl

/-! ## The code of a source -/

namespace Nim

/-- Declarations behind one another have their code behind one another. -/
theorem emitDeclarations_append (front behind : List Declaration) :
    (emitDeclarations (front ++ behind)).toOption =
      (emitDeclarations front).toOption.bind fun first =>
        (emitDeclarations behind).toOption.map (first ++ ·) := by
  induction front with
  | nil =>
      simp [emitDeclarations]
  | cons declaration rest inductionHypothesis =>
      rw [List.cons_append, emitDeclarations, emitDeclarations]
      split
      · exact inductionHypothesis
      · simp only [toOption_bind, inductionHypothesis, Option.bind_assoc]
        cases (emitDeclaration declaration).toOption with
        | none =>
            simp only [Option.bind_none]
        | some code =>
            cases (emitDeclarations rest).toOption with
            | none =>
                simp only [Option.bind_some, Option.bind_none]
            | some others =>
                simp only [Option.bind_some]
                split
                · cases (emitDeclarations behind).toOption <;> rfl
                · cases (emitDeclarations behind).toOption <;> simp [String.append_assoc]

end Nim

/--
The source has declarations, none of which is an import, and their Nim code is
the given one.
-/
def Source.Emits (text : Source) (code : String) : Prop :=
  ∃ tokens all, Lexer.bareTokens (Lexer.pieces text) = some tokens ∧
    Grammar.declarations (.endOfInput .zero) Grammar.depthLimit []
      (Grammar.skipNewlines tokens) = .ok all ∧
    (∀ declaration ∈ all, declaration.isImport = false) ∧
    (Nim.emitDeclarations all).toOption = some code

/-- The source ends with a line break, outside of comments and embedded code. -/
structure Source.Closed (text : Source) : Prop where
  endsLine : text.getLast? = some lineBreak
  comment : Lexer.endsInComment text = false
  code : Lexer.endsInCode text = false

namespace Source

/-- The tokens of a closed source can be followed by others. -/
theorem Closed.fits
    {text : Source}
    (closed : text.Closed)
    {tokens : List Token}
    (found : Lexer.bareTokens (Lexer.pieces text) = some tokens)
    (seam : Grammar.Seam) :
    seam.Fits tokens := by
  have outside := closed.code
  rw [Lexer.endsInCode, found] at outside
  have terminated := Lexer.isTerminated_of_bareTokens found
  obtain ⟨before, split⟩ := Lexer.pieces_eq_concat closed.endsLine terminated closed.comment
  have front : ∀ piece ∈ before, piece.isTerminated = true := by
    intro piece member
    exact terminated piece (split ▸ List.mem_append_left _ member)
  have whole := Lexer.bareTokens_append (Lexer.bareTokens_eq front .start)
    (show Lexer.bareTokens [.token .newline "\n" [lineBreak]] = some [.bare .newline "\n"] from rfl)
  rw [← split, found] at whole
  cases whole
  refine ⟨.inr ⟨by simp, ?_⟩, outside⟩
  intro last isLast
  rw [List.getLast?_concat] at isLast
  cases isLast
  rfl

/-- The code of two sources behind one another. -/
theorem Emits.append
    {front behind : Source}
    {first second : String}
    (closed : front.Closed)
    (frontEmits : front.Emits first)
    (behindEmits : behind.Emits second) :
    Source.Emits (front ++ behind) (first ++ second) := by
  obtain ⟨frontTokens, frontAll, frontFound, frontRead, frontCode, frontEmitted⟩ := frontEmits
  obtain ⟨tokens, all, found, read, noImport, emitted⟩ := behindEmits
  have terminated := Lexer.isTerminated_of_bareTokens frontFound
  let seam : Grammar.Seam :=
    { final := .endOfInput .zero
      tail := tokens
      newFinal := .endOfInput .zero
      isEnd := rfl }
  have joined := Grammar.declarations_append seam Grammar.depthLimit [] _ frontTokens rfl
    (.inr (closed.fits frontFound seam)) frontAll frontRead
  have behind := Grammar.declarations_behind (.endOfInput .zero) Grammar.depthLimit
    frontAll.reverse [] (Grammar.skipNewlines tokens)
  refine ⟨frontTokens ++ tokens, frontAll ++ all, ?_, ?_, ?_, ?_⟩
  · rw [Lexer.pieces_append closed.endsLine terminated closed.comment]
    exact Lexer.bareTokens_append frontFound found
  · refine joined.trans (behind.trans ?_)
    rw [read, List.reverse_reverse]
    rfl
  · exact List.forall_mem_append.mpr ⟨frontCode, noImport⟩
  · rw [Nim.emitDeclarations_append, frontEmitted, emitted]
    rfl

/-- A line break in front of a source has no code. -/
theorem Emits.of_lineBreak
    {text : Source}
    {code : String}
    (emits : Source.Emits (lineBreak :: text) code) :
    text.Emits code := by
  obtain ⟨tokens, all, found, read, noImport, emitted⟩ := emits
  rw [Lexer.pieces_lineBreak_cons] at found
  obtain ⟨later, foundLater, rfl⟩ := Option.map_eq_some_iff.mp found
  exact ⟨later, all, foundLater, read, noImport, emitted⟩

/-- A source is closed without a line break in front of it, if anything is left. -/
theorem Closed.of_lineBreak
    {text : Source}
    (closed : Source.Closed (lineBreak :: text))
    (present : text ≠ []) :
    text.Closed := by
  obtain ⟨endsLine, comment, code⟩ := closed
  refine ⟨?_, ?_, ?_⟩
  · rwa [List.getLast?_cons_of_ne_nil present] at endsLine
  · have pieced : Lexer.pieces text ≠ [] := by
      intro empty
      have whole := Lexer.text_pieces text
      rw [empty] at whole
      exact present whole.symm
    rwa [Lexer.endsInComment, Lexer.pieces_lineBreak_cons,
      List.getLast?_cons_of_ne_nil pieced] at comment
  · rw [Lexer.endsInCode, Lexer.pieces_lineBreak_cons, Lexer.bareTokens] at code
    rw [Lexer.endsInCode]
    cases found : Lexer.bareTokens (Lexer.pieces text) with
    | none =>
        rfl
    | some tokens =>
        rw [found] at code
        exact Grammar.endsInCode_suffix code (List.suffix_cons _ _)

/-- The same holds for any number of line breaks. -/
theorem of_lineBreaks
    {text : Source}
    (present : text ≠ [])
    {code : String}
    (count : Nat)
    (emits : Source.Emits (List.replicate count lineBreak ++ text) code)
    (closed : Source.Closed (List.replicate count lineBreak ++ text)) :
    text.Emits code ∧ text.Closed := by
  induction count with
  | zero =>
      exact ⟨emits, closed⟩
  | succ count inductionHypothesis =>
      rw [List.replicate_succ, List.cons_append] at emits closed
      exact inductionHypothesis emits.of_lineBreak (closed.of_lineBreak (by simp [present]))

/-- White space has no code. -/
theorem emits_of_isWhiteSpace
    {text : Source}
    (white : ∀ rune ∈ text, isWhiteSpace rune.toChar = true) :
    text.Emits "" := by
  obtain ⟨tokens, found, breaks⟩ := Lexer.bareTokens_of_isWhiteSpace white
  have skipped : Grammar.skipNewlines tokens = [] :=
    List.dropWhile_eq_nil_iff.mpr fun token member => by simp [breaks token member]
  refine ⟨tokens, [], found, ?_, by simp, rfl⟩
  rw [skipped, Grammar.declarations_nil]
  rfl

theorem closed_of_isWhiteSpace
    {text : Source}
    (endsLine : text.getLast? = some lineBreak)
    (white : ∀ rune ∈ text, isWhiteSpace rune.toChar = true) :
    text.Closed := by
  obtain ⟨tokens, found, breaks⟩ := Lexer.bareTokens_of_isWhiteSpace white
  refine ⟨endsLine, Lexer.endsInComment_of_isWhiteSpace white, ?_⟩
  rw [Lexer.endsInCode, found]
  exact Grammar.endsInCode_of_newlines breaks

end Source

/-! ## Through the whole pipeline -/

/-- The text in front of the code of a module that imports nothing else. -/
def Nim.opening (library : String) : String :=
  "import " ++ library ++ "\n\n"

/-- The module of a program without imports. -/
theorem generate_of_noImport
    {program : Program}
    (noImport : ∀ declaration ∈ program.declarations, declaration.isImport = false)
    (library : String) :
    (generate library program).toOption =
      (Nim.emitDeclarations program.declarations).toOption.map (Nim.opening library ++ ·) := by
  have none : program.declarations.filterMap Nim.emitImport? = [] := by
    refine List.filterMap_eq_nil_iff.mpr fun declaration member => ?_
    have isCode := noImport declaration member
    cases declaration with
    | imported => cases isCode
    | _ => rfl
  rw [generate, none, toOption_bind]
  cases (Nim.emitDeclarations program.declarations).toOption with
  | none =>
      rfl
  | some code =>
      simp [Nim.opening, String.append_assoc]

namespace Pipeline

/-- The stages that were passed before do not matter to the outcome. -/
theorem parsePrepared_outcome (stages other : List Stage) (code : Source) :
    (parsePrepared stages code).outcome = (parsePrepared other code).outcome := by
  unfold parsePrepared
  cases lex code with
  | error error =>
      rfl
  | ok tokens =>
      dsimp only
      cases parseTokens tokens <;> rfl

/-- Only the source that the normalizer makes is parsed. -/
theorem parse_eq_none (normalizer : Normalizer) (source : Source) :
    parse normalizer source = parse none (normalizer.apply source) :=
  parsePrepared_outcome _ _ _

/-- Only the source that the normalizer makes is transpiled. -/
theorem transpile_eq_none (normalizer : Normalizer) (library : String) (source : Source) :
    transpile normalizer library source = transpile none library (normalizer.apply source) := by
  have same := parse_eq_none normalizer source
  unfold parse at same
  simp only [transpile, run, same]
  cases (runParse none (normalizer.apply source)).outcome with
  | error failure =>
      rfl
  | ok program =>
      simp only [emit]
      cases generate library program <;> rfl

/-- A source is parsed if it has tokens and they make a program. -/
theorem parse_eq_ok_iff
    {normalizer : Normalizer}
    {source : Source}
    {program : Program} :
    parse normalizer source = .ok program ↔
      ∃ tokens, lex (normalizer.apply source) = .ok tokens ∧ parseTokens tokens = .ok program := by
  unfold parse runParse parsePrepared
  cases lex (normalizer.apply source) with
  | error error =>
      simp
  | ok tokens =>
      cases read : parseTokens tokens with
      | error error => simp [read]
      | ok other => simp [read]

/-- A source is transpiled if it is parsed and its program has a module. -/
theorem transpile_eq_ok_iff
    {normalizer : Normalizer}
    {library : String}
    {source : Source}
    {nim : String} :
    transpile normalizer library source = .ok nim ↔
      ∃ program, parse normalizer source = .ok program ∧ generate library program = .ok nim := by
  simp only [transpile, run, parse]
  cases (runParse normalizer source).outcome with
  | error failure =>
      simp
  | ok program =>
      cases made : generate library program with
      | error node => simp [emit, made]
      | ok code => simp [emit, made]

/-- What the grammar makes of the tokens of a source does not depend on positions. -/
theorem declarations_of_lex
    {text : Source}
    {tokens bare : List Token}
    (lexed : lex text = .ok tokens)
    (found : Lexer.bareTokens (Lexer.pieces text) = some bare) :
    (Grammar.declarations (.endOfInput .zero) Grammar.depthLimit []
        (Grammar.skipNewlines bare)).map Program.mk =
      Grammar.programWithin Grammar.depthLimit (tokens.map Token.erase) := by
  obtain ⟨terminated, -, rfl⟩ := Lexer.lex_eq_ok_iff.mp lexed
  have known := Lexer.bareTokens_eq terminated .start
  rw [found] at known
  cases known
  rw [List.map_append, ← Grammar.programWithin_concat _ (Lexer.bareTokens_ne_endOfInput found) rfl]
  rfl

/-- A source that is transpiled without imports has its code behind the opening. -/
theorem emits_of_transpile
    {normalizer : Normalizer}
    {library : String}
    {source : Source}
    {nim : String}
    (transpiled : transpile normalizer library source = .ok nim)
    (noImport : ∀ program, parse normalizer source = .ok program →
      ∀ declaration ∈ program.declarations, declaration.isImport = false) :
    ∃ code, nim = Nim.opening library ++ code ∧ (normalizer.apply source).Emits code := by
  obtain ⟨program, parsed, generated⟩ := transpile_eq_ok_iff.mp transpiled
  have isCode := noImport program parsed
  obtain ⟨tokens, lexed, read⟩ := parse_eq_ok_iff.mp parsed
  have found := Lexer.bareTokens_eq (Lexer.lex_eq_ok_iff.mp lexed).1 .start
  have bareRead := declarations_of_lex lexed found
  rw [Grammar.programWithin_erase, show Grammar.programWithin _ tokens = _ from read] at bareRead
  have emitted := generate_of_noImport isCode library
  rw [generated] at emitted
  obtain ⟨code, ofDeclarations, rfl⟩ := Option.map_eq_some_iff.mp emitted.symm
  refine ⟨code, rfl, _, program.erase.declarations, found, ?_, ?_, ?_⟩
  · cases outcome : Grammar.declarations (.endOfInput .zero) Grammar.depthLimit []
        (Grammar.skipNewlines _) with
    | error error =>
        rw [outcome] at bareRead
        cases bareRead
    | ok all =>
        rw [outcome] at bareRead
        cases bareRead
        rfl
  · intro declaration member
    obtain ⟨original, isOriginal, rfl⟩ := List.mem_map.mp member
    rw [Nim.isImport_relocate]
    exact isCode original isOriginal
  · exact (Nim.emitDeclarations_relocate _ _).trans ofDeclarations

/-- A source with code is transpiled, unless it has too many tokens. -/
theorem transpile_of_emits
    {normalizer : Normalizer}
    {source : Source}
    {code : String}
    (emits : (normalizer.apply source).Emits code)
    (within : ∀ position, lex (normalizer.apply source) ≠ .error (.tokenLimit position))
    (library : String) :
    transpile normalizer library source = .ok (Nim.opening library ++ code) := by
  obtain ⟨bare, all, found, read, noImport, emitted⟩ := emits
  have terminated := Lexer.isTerminated_of_bareTokens found
  rcases Lexer.scan_of_isTerminated tokenLimit .start 0 [] terminated with
    ⟨tokens, lexed⟩ | ⟨position, tooMany⟩
  · have bareRead := declarations_of_lex lexed found
    rw [read, Grammar.programWithin_erase] at bareRead
    cases outcome : Grammar.programWithin Grammar.depthLimit tokens with
    | error error =>
        rw [outcome] at bareRead
        cases bareRead
    | ok program =>
        rw [outcome] at bareRead
        cases bareRead
        refine transpile_eq_ok_iff.mpr ⟨program, parse_eq_ok_iff.mpr ⟨tokens, lexed, outcome⟩, ?_⟩
        have whole := (generate_relocate _ library program).symm.trans
          (generate_of_noImport noImport library)
        rw [emitted] at whole
        cases generated : generate library program with
        | error node =>
            rw [generated] at whole
            cases whole
        | ok nim =>
            rw [generated] at whole
            exact congrArg _ (Option.some.inj whole)
  · exact (within position tooMany).elim

end Pipeline

end FrenchNim
