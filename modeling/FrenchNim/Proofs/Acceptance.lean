import FrenchNim.Proofs.Formatting
import FrenchNim.Proofs.Grammar.Refusals

namespace FrenchNim

/-!
# Which formatted sources are accepted

The canonical text of a parsed program is not always a program. Parentheses that
made a source acceptable are not rendered, a class named by the self-reference is
rendered as a keyword, and the parentheses around operands are levels of their
own. This module says exactly which parsed programs have a text that is parsed
again, as long as their embedded codes are read back as they are written.
-/

/-- A program whose canonical text is a program. -/
structure Program.Reparsable (program : Program) : Prop where
  /-- No class is named by the self-reference. -/
  classes : program.Everywhere (·.constructsSelf = false)
  /-- No expression and no assignment at the top level begins with `fonction`. -/
  top : ∀ node ∈ program.declarations, node.leadsWithClosure = false
  /-- The text does not have too many nested expressions. -/
  nesting : program.nesting ≤ Grammar.depthLimit
  /-- The text does not have too many tokens. -/
  tokens : program.tokens.length ≤ tokenLimit

/-- A program is reparsable if the grammar has room for it and it is not too long. -/
theorem Program.reparsable_iff
    {program : Program} :
    program.Reparsable ↔
      Grammar.ProgramFits Grammar.depthLimit program ∧ program.tokens.length ≤ tokenLimit := by
  constructor
  · rintro ⟨classes, top, nesting, tokens⟩
    refine ⟨fun node member => ⟨?_, classes node member, top node member⟩, tokens⟩
    exact Grammar.foldr_max_le_iff.mp nesting _ (List.mem_map_of_mem member)
  · rintro ⟨fits, tokens⟩
    refine ⟨fun node member => (fits node member).2.1, fun node member => (fits node member).2.2,
      Grammar.foldr_max_le_iff.mpr fun count member => ?_, tokens⟩
    obtain ⟨node, isNode, rfl⟩ := List.mem_map.mp member
    exact (fits node isNode).1

/-- A source with tokens is a program if its tokens without positions are one. -/
theorem parseProgram_isOk_iff
    {source : Source}
    {placed : List Token}
    (lexed : lex source = .ok placed) :
    (∃ program, parseProgram source = .ok program) ↔
      ∃ program, parseTokens (placed.map Token.erase) = .ok program := by
  rw [parseProgram_of_lex_ok lexed]
  unfold parseTokens
  rw [Grammar.programWithin_erase]
  cases Grammar.programWithin Grammar.depthLimit placed with
  | error error => exact ⟨nofun, nofun⟩
  | ok program => exact ⟨fun _ => ⟨_, rfl⟩, fun _ => ⟨_, rfl⟩⟩

/-- A text with tokens does not have too many of them. -/
theorem Lexer.length_of_lexemes
    {text : String}
    {placed tokens : List Token}
    (lexed : lex (.ofString text) = .ok placed)
    (spelled : lexemes text.toList = some tokens) :
    tokens.length ≤ tokenLimit := by
  obtain ⟨terminated, within, rfl⟩ := lex_eq_ok_iff.mp lexed
  have known := bareTokens_eq terminated .start
  rw [show bareTokens (pieces (.ofString text)) = some tokens from spelled] at known
  cases known
  rwa [List.length_map]

/--
Formatting a source gives a program again, exactly if the program is reparsable,
as long as its embedded codes are read back as they are written.
-/
theorem parseProgram_render_iff
    {code : Bytes}
    {program : Program}
    (parsed : parseProgram (.ofBytes code) = .ok program)
    (readBack : program.Embeds RawCode.ReadsBack) :
    (∃ again, parseProgram (.ofString program.render) = .ok again) ↔ program.Reparsable := by
  have lexical : (Vocabulary.scanned.meet (.embedding RawCode.ReadsBack)).IsLexical :=
    Vocabulary.isLexical_meet fun _ => id
  have isOver := (parseProgram_over parsed).meet readBack
  have spelled := Program.lexemes_render lexical isOver
  have proper := Lexer.bareTokens_ne_endOfInput spelled
  rw [Program.reparsable_iff]
  constructor
  · rintro ⟨again, reparsed⟩
    cases lexed : lex (.ofString program.render) with
    | error error =>
        rw [parseProgram_of_lex_error lexed] at reparsed
        cases reparsed
    | ok placed =>
        obtain ⟨bare, read⟩ := (parseProgram_isOk_iff lexed).mp ⟨again, reparsed⟩
        obtain ⟨tokens, found, same⟩ := Lexer.lexemes_of_lex lexed
        rw [spelled] at found
        cases found
        rw [same] at read
        exact ⟨Grammar.programWithin_shows lexical isOver proper Grammar.depthLimit bare read,
          Lexer.length_of_lexemes lexed spelled⟩
  · rintro ⟨fits, within⟩
    obtain ⟨placed, lexed, same⟩ := Lexer.lex_of_lexemes spelled within
    have reads := Grammar.programWithin_rereads lexical isOver proper Grammar.depthLimit
    refine (parseProgram_isOk_iff lexed).mpr ⟨program.regroup, ?_⟩
    rw [same]
    exact reads.eq fits

/-- The source `a=[nouveau B()]`. -/
def listedInstance : Bytes :=
  [0x61, 0x3D, 0x5B, 0x6E, 0x6F, 0x75, 0x76, 0x65, 0x61, 0x75, 0x20, 0x42, 0x28, 0x29, 0x5D]

/-- The assignment of a list with one new instance. -/
def assignedList : Program :=
  ⟨[.statement (.assigned (.identifier ⟨"a", ⟨0, 1, 0⟩⟩)
    (.array [.construction (.identifier ⟨"B", ⟨11, 1, 11⟩⟩) []
      ⟨⟨3, 1, 3⟩, ⟨13, 1, 13⟩⟩] ⟨⟨2, 1, 2⟩, ⟨14, 1, 14⟩⟩))]⟩

/-- A new instance in a list is accepted again. -/
theorem parseProgram_render_iff_listedInstance :
    parseProgram (.ofBytes listedInstance) = .ok assignedList ∧ assignedList.Reparsable ∧
      ∃ again, parseProgram (.ofString assignedList.render) = .ok again := by
  have parsed : parseProgram (.ofBytes listedInstance) = .ok assignedList := by
    cbv
  have readBack : assignedList.Embeds RawCode.ReadsBack :=
    List.forall_mem_singleton.mpr ⟨rfl, trivial, ⟨trivial, trivial⟩, trivial⟩
  have reparsable : assignedList.Reparsable :=
    { classes := List.forall_mem_singleton.mpr ⟨rfl, rfl, ⟨rfl, trivial⟩, trivial⟩
      top := List.forall_mem_singleton.mpr rfl
      nesting := by decide
      tokens := by decide }
  exact ⟨parsed, reparsable, (parseProgram_render_iff parsed readBack).mpr reparsable⟩

/-- The source `nouveau self()`. -/
def selfInstance : Bytes :=
  [0x6E, 0x6F, 0x75, 0x76, 0x65, 0x61, 0x75, 0x20, 0x73, 0x65, 0x6C, 0x66, 0x28, 0x29]

/-- A class may be named like the self-reference, but the text of that name is a keyword. -/
theorem parseProgram_render_selfInstance :
    ∃ program, parseProgram (.ofBytes selfInstance) = .ok program ∧
      program.render = "nouveau ceci()" ∧
      (parseProgram (.ofString program.render)).isOk = false := by
  refine ⟨⟨[.statement (.evaluated (.construction (.identifier ⟨"self", ⟨8, 1, 8⟩⟩) []
    ⟨⟨0, 1, 0⟩, ⟨13, 1, 13⟩⟩))]⟩, ?_, ?_, ?_⟩
  · cbv
  · cbv
  · cbv

end FrenchNim
