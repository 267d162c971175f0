import FrenchNim.Proofs.Nim.RegroupedPrograms
import FrenchNim.Proofs.RoundTrip

namespace FrenchNim

/-!
# What formatting does to the Nim code of a source

A source is formatted by rendering its program. The rendered text is parsed as
the program that it stands for, which is the regrouped one. So formatting keeps
the Nim code of a source if no link in it is applied to a binary expression, and
only then, as long as its embedded codes are read back as they are written.
-/

/-- All embedded codes of the program have the property. -/
def Program.Embeds (holds : String → Prop) (program : Program) : Prop :=
  program.Over (.embedding holds)

namespace Vocabulary

/-- The words that the scanner finds, and embedded code without white space in front. -/
def scanned : Vocabulary :=
  { plain with code := fun text => text = "" ∨ Nim.Sign.OpensWith Nim.IsVisible text }

theorem scanned_isOpen : scanned.IsOpen :=
  ⟨show _ ∧ _ by decide, Nim.trimText_begins⟩

/-- A word that is no keyword has no kind of its own. -/
theorem kind?_eq_none_of_identifier
    {word : String}
    (isName : Keyword.kindOf word = .identifier) :
    Keyword.kind? word = none := by
  have noKeyword : ∀ keyword ∈ Keyword.table, keyword.kind ≠ .identifier := by
    decide
  unfold Keyword.kindOf at isName
  unfold Keyword.kind? at isName ⊢
  cases found : Keyword.table.find? (·.word = word) with
  | none =>
      rfl
  | some keyword =>
      rw [found] at isName
      exact (noKeyword keyword (List.mem_of_find?_eq_some found) isName).elim

/-- Every lexeme is a word that the scanner finds. -/
theorem scanned_admits_lexeme
    {kind : TokenKind}
    {literal : String}
    (lexeme : Lexeme kind literal)
    (span : Span) :
    scanned.Admits ⟨kind, literal, span⟩ := by
  have operatorFacts : ∀ entry ∈ operators, entry.1 ≠ .identifier ∧ entry.1 ≠ .number ∧
      (entry.1.isAdditive ∨ entry.1.isComparison → entry.2 ∈ binaryOperators) := by
    decide
  have keywordFacts : ∀ keyword ∈ Keyword.table, keyword.kind ≠ .number ∧
      keyword.kind.isAdditive = false ∧ keyword.kind.isComparison = false := by
    decide
  cases lexeme with
  | operator listed =>
      obtain ⟨noName, noNumber, isOperator⟩ := operatorFacts _ listed
      exact ⟨fun isName => (noName isName).elim, fun isNumber => (noNumber isNumber).elim,
        isOperator⟩
  | string value =>
      exact ⟨nofun, nofun, fun isOperator => by simp [TokenKind.isAdditive,
        TokenKind.isComparison] at isOperator⟩
  | @word text isWord =>
      refine ⟨fun isName => ⟨by rwa [String.toList_ofList], kind?_eq_none_of_identifier isName⟩,
        fun isNumber => ?_, fun isOperator => ?_⟩
      · exact (Keyword.kindOf_ne (fun keyword member => (keywordFacts keyword member).1)
          (by decide) _ isNumber).elim
      · exfalso
        unfold Keyword.kindOf Keyword.kind? at isOperator
        cases found : Keyword.table.find? (·.word = String.ofList text) with
        | none =>
            simp [found, TokenKind.isAdditive, TokenKind.isComparison] at isOperator
        | some keyword =>
            obtain ⟨-, noSum, noComparison⟩ :=
              keywordFacts keyword (List.mem_of_find?_eq_some found)
            simp [found, noSum, noComparison] at isOperator
  | number isNumeral =>
      refine ⟨nofun, fun _ => ⟨by rwa [String.toList_ofList], rfl⟩, fun isOperator => ?_⟩
      simp [TokenKind.isAdditive, TokenKind.isComparison] at isOperator

/-- Words that the scanner finds, with embedded codes that are read back. -/
theorem isLexical_meet
    {holds : String → Prop}
    (readBack : ∀ text, holds text → RawCode.ReadsBack text) :
    (scanned.meet (.embedding holds)).IsLexical where
  name known := known.1
  number known := known.1
  operator known := known.1
  code known := readBack _ known.2

end Vocabulary

/-- The words of a parsed program are words that the scanner finds. -/
theorem parseProgram_over
    {source : Source}
    {program : Program}
    (parsed : parseProgram source = .ok program) :
    program.Over Vocabulary.scanned := by
  cases lexed : lex source with
  | error error =>
      rw [parseProgram_of_lex_error lexed] at parsed
      cases parsed
  | ok tokens =>
      rw [parseProgram_of_lex_ok lexed] at parsed
      cases found : parseTokens tokens with
      | error error =>
          rw [found] at parsed
          cases parsed
      | ok other =>
          rw [found] at parsed
          cases parsed
          refine Grammar.programWithin_over Vocabulary.scanned_isOpen ?_ found
          obtain ⟨-, -, rfl⟩ := Lexer.lex_eq_ok_iff.mp lexed
          refine List.forall_mem_append.mpr ⟨fun token member => ?_,
            List.forall_mem_singleton.mpr ⟨nofun, nofun, fun isOperator => ?_⟩⟩
          · exact Vocabulary.scanned_admits_lexeme
              (Lexer.tokensAt_lexemes (Lexer.pieces_holdLexemes source) token member) token.span
          · simp [Token.endOfInput, TokenKind.isAdditive, TokenKind.isComparison] at isOperator

/-- The rendered text of a program is parsed as the regrouped program, if it is parsed at all. -/
theorem erase_of_parseProgram_render
    {vocabulary : Vocabulary}
    (lexical : vocabulary.IsLexical)
    {program again : Program}
    (isOver : program.Over vocabulary)
    (reparsed : parseProgram (.ofString program.render) = .ok again) :
    again.erase = program.regroup := by
  cases lexed : lex (.ofString program.render) with
  | error error =>
      rw [parseProgram_of_lex_error lexed] at reparsed
      cases reparsed
  | ok placed =>
      rw [parseProgram_of_lex_ok lexed] at reparsed
      have reads := parseTokens_render lexical isOver lexed
      unfold parseTokens at reads reparsed
      rw [Grammar.programWithin_erase] at reads
      cases found : Grammar.programWithin Grammar.depthLimit placed with
      | error error =>
          rw [found] at reparsed
          cases reparsed
      | ok other =>
          rw [found] at reads reparsed
          cases reparsed
          exact (Except.ok.inj (reads.eq_of_ok rfl)).symm

namespace Nim

/-- Two successful emissions agree if they agree as options. -/
theorem eq_of_toOption_eq
    {first second : Except UnsupportedNode String}
    {code : String}
    (succeeds : second = .ok code)
    (same : first.toOption = second.toOption) :
    first = second := by
  rw [succeeds] at same ⊢
  cases first with
  | error node => cases same
  | ok other => exact congrArg _ (Option.some.inj same)

/-- The modules of a program and of what its text stands for are rivals. -/
theorem generate_rivals
    {vocabulary : Vocabulary}
    (lexical : vocabulary.IsLexical)
    {program : Program}
    (isOver : program.Over vocabulary)
    (library : String) :
    RivalCodes (OpensVisibly vocabulary) program.Faithful (generate library program)
      (generate library program.regroup) := by
  obtain ⟨before, after, beforeCode, afterCode, rivals⟩ := declarations_rivals lexical isOver
  have imports : program.regroup.declarations.filterMap emitImport? =
      program.declarations.filterMap emitImport? := by
    rw [Program.regroup, List.filterMap_map]
    exact congrArg (List.filterMap · _) (funext emitImport?_regroup)
  simp only [generate, imports]
  rw [beforeCode, show emitDeclarations program.regroup.declarations = .ok after from afterCode]
  exact ⟨_, _, rfl, rfl, ((Rivals.constant _).append rivals).of_iff (by rw [true_and]; rfl)⟩

end Nim

/-- The rendered text has the Nim code of the regrouped program. -/
theorem generate_of_parseProgram_render
    {vocabulary : Vocabulary}
    (lexical : vocabulary.IsLexical)
    {program again : Program}
    (isOver : program.Over vocabulary)
    (reparsed : parseProgram (.ofString program.render) = .ok again)
    (library : String) :
    generate library again = generate library program.regroup := by
  have same := erase_of_parseProgram_render lexical isOver reparsed
  obtain ⟨-, after, -, afterCode, -⟩ := Nim.generate_rivals lexical isOver library
  refine Nim.eq_of_toOption_eq afterCode ?_
  rw [← same]
  exact (generate_relocate (fun _ => .zero) library again).symm

/--
Formatting a source keeps its Nim code if no link that reaches the code is
applied to a binary expression. If embedded codes begin visibly, it keeps the
code only then.
-/
theorem generate_render
    {code : Bytes}
    {program again : Program}
    (parsed : parseProgram (.ofBytes code) = .ok program)
    (reparsed : parseProgram (.ofString program.render) = .ok again)
    (readBack : program.Embeds RawCode.ReadsBack) :
    (program.Faithful → ∀ library, generate library again = generate library program) ∧
    (program.Embeds (Nim.Sign.OpensWith Nim.Sign.startsOperand) → ∀ library,
      generate library again = generate library program → program.Faithful) := by
  have scanned := parseProgram_over parsed
  refine ⟨fun faithful library => ?_, fun visible library same => ?_⟩
  · have lexical : (Vocabulary.scanned.meet (.embedding RawCode.ReadsBack)).IsLexical :=
      Vocabulary.isLexical_meet fun _ => id
    have isOver := scanned.meet readBack
    obtain ⟨before, after, beforeCode, afterCode, rivals⟩ :=
      Nim.generate_rivals lexical isOver library
    rw [generate_of_parseProgram_render lexical isOver reparsed, beforeCode, afterCode,
      rivals.same faithful]
  · -- The embedded codes are now known to begin visibly, so codes are exact.
    have lexical : (Vocabulary.scanned.meet ((Vocabulary.embedding RawCode.ReadsBack).meet
        (.embedding (Nim.Sign.OpensWith Nim.Sign.startsOperand)))).IsLexical :=
      ⟨fun known => known.1, fun known => known.1, fun known => known.1, fun known => known.2.1⟩
    have isOver := scanned.meet (readBack.meet visible)
    obtain ⟨before, after, beforeCode, afterCode, rivals⟩ :=
      Nim.generate_rivals lexical isOver library
    rw [generate_of_parseProgram_render lexical isOver reparsed, beforeCode, afterCode] at same
    exact rivals.keeps (fun _ known => known.2.2) (Except.ok.inj same)

/-- The source `(a+b)-c`. -/
def groupedSum : Bytes := [0x28, 0x61, 0x2B, 0x62, 0x29, 0x2D, 0x63]

/-- A difference whose left operand is a sum, given the positions of the names. -/
def differenceOfSum (a b c : Position) : Program :=
  ⟨[.statement (.evaluated (.binary "-"
    (.binary "+" (.identifier ⟨"a", a⟩) (.identifier ⟨"b", b⟩)) (.identifier ⟨"c", c⟩)))]⟩

/-- Parentheses around an operand are kept, and so is the Nim code. -/
theorem generate_render_groupedSum :
    ∃ program again, parseProgram (.ofBytes groupedSum) = .ok program ∧
      parseProgram (.ofString program.render) = .ok again ∧
      program.Embeds RawCode.ReadsBack ∧ program.Faithful ∧
      ∀ library, generate library again = generate library program := by
  have parsed : parseProgram (.ofBytes groupedSum) =
      .ok (differenceOfSum ⟨1, 1, 1⟩ ⟨3, 1, 3⟩ ⟨6, 1, 6⟩) := by
    cbv
  have reparsed :
      parseProgram (.ofString (differenceOfSum ⟨1, 1, 1⟩ ⟨3, 1, 3⟩ ⟨6, 1, 6⟩).render) =
        .ok (differenceOfSum ⟨1, 1, 1⟩ ⟨5, 1, 5⟩ ⟨10, 1, 10⟩) := by
    cbv
  have readBack : (differenceOfSum ⟨1, 1, 1⟩ ⟨3, 1, 3⟩ ⟨6, 1, 6⟩).Embeds RawCode.ReadsBack :=
    List.forall_mem_singleton.mpr ⟨rfl, trivial, ⟨trivial, trivial, trivial⟩, trivial⟩
  have faithful : (differenceOfSum ⟨1, 1, 1⟩ ⟨3, 1, 3⟩ ⟨6, 1, 6⟩).Faithful :=
    List.forall_mem_singleton.mpr ⟨⟨trivial, trivial⟩, trivial⟩
  exact ⟨_, _, parsed, reparsed, readBack, faithful,
    (generate_render parsed reparsed readBack).1 faithful⟩

/-- The source `(a+b).c`. -/
def linkedSum : Bytes := [0x28, 0x61, 0x2B, 0x62, 0x29, 0x2E, 0x63]

/-- The member of a sum, given the positions of the names. -/
def memberOfSum (a b c : Position) : Program :=
  ⟨[.statement (.evaluated (.member
    (.binary "+" (.identifier ⟨"a", a⟩) (.identifier ⟨"b", b⟩)) ⟨"c", c⟩ false))]⟩

/-- A sum whose right operand is a member, given the positions of the names. -/
def sumWithMember (a b c : Position) : Program :=
  ⟨[.statement (.evaluated (.binary "+" (.identifier ⟨"a", a⟩)
    (.member (.identifier ⟨"b", b⟩) ⟨"c", c⟩ false)))]⟩

/-- Parentheses around the target of a link are lost, and the link takes the last operand alone. -/
theorem generate_render_linkedSum :
    ∃ program again, parseProgram (.ofBytes linkedSum) = .ok program ∧
      parseProgram (.ofString program.render) = .ok again ∧
      generate standardLibrary again ≠ generate standardLibrary program := by
  have parsed : parseProgram (.ofBytes linkedSum) =
      .ok (memberOfSum ⟨1, 1, 1⟩ ⟨3, 1, 3⟩ ⟨6, 1, 6⟩) := by
    cbv
  have reparsed : parseProgram (.ofString (memberOfSum ⟨1, 1, 1⟩ ⟨3, 1, 3⟩ ⟨6, 1, 6⟩).render) =
      .ok (sumWithMember ⟨0, 1, 0⟩ ⟨4, 1, 4⟩ ⟨6, 1, 6⟩) := by
    cbv
  have code : generate standardLibrary (memberOfSum ⟨1, 1, 1⟩ ⟨3, 1, 3⟩ ⟨6, 1, 6⟩) =
      .ok "import std\n\n(a+b).c\n\n" := by
    cbv
  have otherCode : generate standardLibrary (sumWithMember ⟨0, 1, 0⟩ ⟨4, 1, 4⟩ ⟨6, 1, 6⟩) =
      .ok "import std\n\n(a+b.c)\n\n" := by
    cbv
  refine ⟨_, _, parsed, reparsed, ?_⟩
  rw [code, otherCode]
  decide

end FrenchNim
