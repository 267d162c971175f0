import Mathlib
import FrenchNim.Failure.Basic
import FrenchNim.Proofs.Grammar.Continuation
import FrenchNim.Proofs.Token.Lines

namespace FrenchNim

/-!
# Errors that no further input repairs

A parse that fails anywhere but at the end of the input has failed for good: once
the line of the error is complete, whatever is typed behind it, the source is
rejected, and for the same reason as long as it has tokens at all.
-/

/-- A source without tokens is rejected by the scanner. -/
theorem parseProgram_of_lex_error
    {source : Source}
    {error : LexError}
    (unlexed : lex source = .error error) :
    parseProgram source = .error (.lexical error) := by
  unfold parseProgram
  rw [unlexed]
  rfl

/-- A source with tokens is judged by the grammar. -/
theorem parseProgram_of_lex_ok
    {source : Source}
    {tokens : List Token}
    (lexed : lex source = .ok tokens) :
    parseProgram source = (parseTokens tokens).mapError .grammatical := by
  unfold parseProgram
  rw [lexed]
  rfl

/-- An error of the grammar is incomplete if the input has ended. -/
theorem isIncomplete_ofParseFault (code : Source) (error : GrammarError) :
    (Failure.ofParseFault code (.grammatical error)).isIncomplete = error.isAtEnd := by
  cases error with
  | unfit error =>
      simp [Failure.ofParseFault, Failure.ofGrammarError, Failure.isIncomplete,
        Failure.anyIncomplete, GrammarError.isAtEnd]
  | tooDeep position =>
      simp [Failure.ofParseFault, Failure.ofGrammarError, Failure.isIncomplete,
        Failure.anyIncomplete, GrammarError.isAtEnd]

/--
If the tokens of a source end with a line break and its parse fails, but not for
an early end of the input, then every continuation of the source is rejected, and
every continuation that has tokens is rejected with the same error.
-/
theorem error_isFinal
    {code : Bytes}
    {tokens : List Token}
    {last : Token}
    {fault : ParseFault}
    (lexed : lex (.ofBytes code) = .ok tokens)
    (isLast : tokens.dropLast.getLast? = some last)
    (isBreak : last.kind = .newline)
    (failed : parseProgram (.ofBytes code) = .error fault)
    (complete : (Failure.ofParseFault (.ofBytes code) fault).isIncomplete = false) :
    ∃ error, fault = .grammatical error ∧ ∀ more : Bytes,
      (∃ later, parseProgram (.ofBytes (code ++ more)) = .error later) ∧
      ((lex (.ofBytes (code ++ more))).isOk = true →
        parseProgram (.ofBytes (code ++ more)) = .error (.grammatical error)) := by
  obtain ⟨front, behind, line, final, split, rfl, isEnd, unended, isLastOfLine, continued⟩ :=
    Lexer.lex_lineBreak lexed isLast isBreak
  obtain ⟨before, after, rfl, decoded⟩ := Source.exists_bytes_of_lineBreak split
  rw [parseProgram_of_lex_ok lexed] at failed
  cases parsed : parseTokens (line ++ [final]) with
  | ok program =>
      rw [parsed] at failed
      cases failed
  | error error =>
      rw [parsed] at failed
      cases failed
      rw [isIncomplete_ofParseFault] at complete
      have ends : Grammar.EndsLine line := by
        intro other isOther
        rw [isLastOfLine] at isOther
        cases isOther
        exact isBreak
      refine ⟨error, rfl, fun more => ?_⟩
      have bytes : before ++ lineBreakByte :: after ++ more =
          before ++ lineBreakByte :: (after ++ more) := by
        simp
      rw [bytes, Source.ofBytes_lineBreak, decoded]
      cases lexedMore : lex (front ++ lineBreak :: Source.ofBytes (after ++ more)) with
      | error lexError =>
          exact ⟨⟨_, parseProgram_of_lex_error lexedMore⟩, fun isOk => by cases isOk⟩
      | ok moreTokens =>
          obtain ⟨rest, rfl⟩ := continued _ moreTokens lexedMore
          have rejected : parseTokens (line ++ rest) = .error error :=
            Grammar.programWithin_append unended isEnd ends parsed complete rest
          rw [parseProgram_of_lex_ok lexedMore, rejected]
          exact ⟨⟨_, rfl⟩, fun _ => rfl⟩

/-- A line that holds nothing but a closing parenthesis. -/
def loneParenthesis : Bytes := [0x29, 0x0A]

/-- Nothing repairs a lone closing parenthesis. -/
theorem error_isFinal_loneParenthesis :
    ∃ error, parseProgram (.ofBytes loneParenthesis) = .error (.grammatical error) ∧
      ∀ more : Bytes,
        (∃ later, parseProgram (.ofBytes (loneParenthesis ++ more)) = .error later) ∧
        ((lex (.ofBytes (loneParenthesis ++ more))).isOk = true →
          parseProgram (.ofBytes (loneParenthesis ++ more)) = .error (.grammatical error)) := by
  have failed : parseProgram (.ofBytes loneParenthesis) =
      .error (.grammatical (.unexpected ⟨.parenClose, ")", ⟨.start, .start⟩⟩)) := by
    cbv
  obtain ⟨error, same, continued⟩ := error_isFinal
    (show lex (.ofBytes loneParenthesis) = .ok
      [⟨.parenClose, ")", ⟨.start, .start⟩⟩,
        ⟨.newline, "\n", ⟨⟨1, 1, 1⟩, ⟨1, 1, 1⟩⟩⟩, .endOfInput ⟨2, 2, 0⟩] by cbv)
    rfl rfl failed (by simp [isIncomplete_ofParseFault, GrammarError.isAtEnd,
      GrammarError.unexpected])
  exact ⟨error, failed.trans (congrArg Except.error same), continued⟩

end FrenchNim
