import FrenchNim.Proofs.Finality
import FrenchNim.Proofs.Grammar.RereadingPrograms

namespace FrenchNim

/-!
# Parsing undoes rendering

The canonical text of a program is parsed as the program that the text stands
for. That is the program itself, up to positions, unless a member, a call or an
index is applied to a binary expression.
-/

namespace Vocabulary

/-- Words that the scanner finds where they are written, and no embedded code. -/
def plain : Vocabulary where
  name word := IsWord word.toList ∧ Keyword.kind? word = none
  number literal value := IsNumeral literal.toList ∧ value = Number.ofLiteral literal
  operator word := word ∈ binaryOperators
  code _ := False

/-- The words that the text of a program may hold are lexemes. -/
theorem plain_isLexical : plain.IsLexical where
  name := id
  number := id
  operator := id
  code := False.elim

end Vocabulary

/-- The grammar reads the canonical text of a program as the program that it stands for. -/
theorem parseTokens_render
    {vocabulary : Vocabulary}
    (lexical : vocabulary.IsLexical)
    {program : Program}
    (isOver : program.Over vocabulary)
    {placed : List Token}
    (lexed : lex (.ofString program.render) = .ok placed) :
    Grammar.Reads (Grammar.ProgramFits Grammar.depthLimit program)
      (parseTokens (placed.map Token.erase)) (.ok program.regroup) := by
  have spelled := Program.lexemes_render lexical isOver
  obtain ⟨tokens, found, same⟩ := Lexer.lexemes_of_lex lexed
  rw [spelled] at found
  cases found
  rw [same]
  exact Grammar.programWithin_rereads lexical isOver (Lexer.bareTokens_ne_endOfInput spelled) _

/-- A program that its canonical text says everything about. -/
structure Program.Restorable (program : Program) : Prop where
  /-- Nothing is missing, all words are lexemes of their kind, and no code is embedded. -/
  complete : program.Over Vocabulary.plain
  /-- No member, call or index is applied to a binary expression. -/
  targets : program.Everywhere (·.linksBinary = false)
  /-- No class is named by the self-reference. -/
  classes : program.Everywhere (·.constructsSelf = false)
  /-- No expression and no assignment at the top level begins with `fonction`. -/
  top : ∀ node ∈ program.declarations, node.leadsWithClosure = false
  /-- The text does not have too many tokens. -/
  tokens : program.tokens.length ≤ tokenLimit
  /-- The text does not have too many nested expressions. -/
  nesting : program.nesting ≤ Grammar.depthLimit

/-- A restorable program fits: nothing in it is nested too deeply. -/
theorem Program.Restorable.fits
    {program : Program}
    (restorable : program.Restorable) :
    Grammar.ProgramFits Grammar.depthLimit program := by
  intro node member
  have within := Grammar.foldr_max_le_iff.mp restorable.nesting _ (List.mem_map_of_mem member)
  exact ⟨within, restorable.classes node member, restorable.top node member⟩

/-- Parsing the canonical text of a program gives the program back, with other positions. -/
theorem parseProgram_render
    (program : Program)
    (restorable : program.Restorable) :
    ∃ parsed, parseProgram (.ofString program.render) = .ok parsed ∧
      parsed.erase = program.erase := by
  have spelled := Program.lexemes_render Vocabulary.plain_isLexical restorable.complete
  obtain ⟨placed, lexed, -⟩ := Lexer.lex_of_lexemes spelled restorable.tokens
  have reads := parseTokens_render Vocabulary.plain_isLexical restorable.complete lexed
  have erased := reads.eq restorable.fits
  rw [Program.regroup_of_linksNoBinary restorable.targets] at erased
  unfold parseTokens at erased
  rw [Grammar.programWithin_erase] at erased
  rw [parseProgram_of_lex_ok lexed]
  unfold parseTokens
  cases parsed : Grammar.programWithin Grammar.depthLimit placed with
  | error error =>
      rw [parsed] at erased
      cases erased
  | ok found =>
      rw [parsed] at erased
      exact ⟨found, rfl, Except.ok.inj erased⟩

/-- A function that compares the sum of its parameters with a number. -/
def sumProgram : Program :=
  let a : Identifier := ⟨"a", .zero⟩
  let b : Identifier := ⟨"b", .zero⟩
  let total := Expression.binary "+" (.identifier a) (.identifier b)
  let test := Expression.binary "==" total (.number "1.5" (Number.ofLiteral "1.5") .zero)
  ⟨[.function ⟨"somme", .zero⟩ [a, b] (.of [.returned test .zero] .zero) .zero]⟩

/-- A number with a fraction is a numeral. -/
theorem isNumeral_fraction : IsNumeral "1.5".toList :=
  .inr ⟨['1'], ['5'], rfl, ⟨nofun, List.forall_mem_singleton.mpr rfl⟩,
    ⟨nofun, List.forall_mem_singleton.mpr rfl⟩⟩

/-- The sum stands between parentheses and is read back as the left operand. -/
theorem parseProgram_render_sum :
    sumProgram.Restorable ∧ ∃ parsed, parseProgram (.ofString sumProgram.render) = .ok parsed ∧
      parsed.erase = sumProgram.erase := by
  have known : ∀ word ∈ ["a", "b", "somme"],
      IsWord word.toList ∧ Keyword.kind? word = none := by
    decide
  have listed : ∀ word ∈ ["+", "=="], word ∈ binaryOperators := by
    decide
  have restorable : sumProgram.Restorable := by
    refine ⟨List.forall_mem_singleton.mpr ?_, List.forall_mem_singleton.mpr ?_,
      List.forall_mem_singleton.mpr ?_, List.forall_mem_singleton.mpr rfl, ?_, ?_⟩
    · refine ⟨known "somme" (by decide), ?_, ?_⟩
      · exact List.forall_mem_cons.mpr
          ⟨known "a" (by decide), List.forall_mem_singleton.mpr (known "b" (by decide))⟩
      · refine ⟨⟨listed "==" (by decide), ⟨listed "+" (by decide), ?_, ?_⟩, ?_⟩, trivial⟩
        · exact known "a" (by decide)
        · exact known "b" (by decide)
        · exact ⟨isNumeral_fraction, rfl⟩
    · exact ⟨⟨rfl, ⟨rfl, rfl, rfl⟩, rfl⟩, trivial⟩
    · exact ⟨⟨rfl, ⟨rfl, rfl, rfl⟩, rfl⟩, trivial⟩
    · decide
    · decide
  exact ⟨restorable, parseProgram_render sumProgram restorable⟩

end FrenchNim
