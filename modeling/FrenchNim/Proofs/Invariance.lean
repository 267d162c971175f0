import FrenchNim.Proofs.Finality
import FrenchNim.Proofs.Formatting
import FrenchNim.Proofs.Syntax.Rendering

namespace FrenchNim

/-!
# Layout and comments matter through the tokens only

A parse sees of each token its kind and its literal; the position is carried into
the tree or into the error and looked at nowhere. So two token lists that agree
in kinds and literals meet the same fate, whatever stands between their tokens.
-/

namespace Token

/-- What the grammar sees of a token. -/
def face (token : Token) : TokenKind × String :=
  (token.kind, token.literal)

/-- Tokens with the same faces differ in their positions only. -/
theorem map_erase_of_map_face
    {left right : List Token}
    (agree : left.map face = right.map face) :
    left.map erase = right.map erase := by
  have ofFace : erase = (fun seen : TokenKind × String => ⟨seen.1, seen.2, ⟨.zero, .zero⟩⟩) ∘ face :=
    rfl
  rw [ofFace, ← List.map_map, ← List.map_map, agree]

end Token

/--
Two results of parsing that differ in positions only.

Two programs are the same tree with other positions, and have the same source
text and the same Nim module for every standard library. Two errors are of the
same kind, and name the same expectation, the same token and the same hint.
-/
inductive Alike {Fault : Type} (fault : GrammarError → Fault) :
    Except Fault Program → Except Fault Program → Prop where
  | accepted
      (left right : Program)
      (sameTree : left.erase = right.erase)
      (sameText : left.render = right.render)
      (sameCode : ∀ library, ∃ code,
        generate library left = .ok code ∧ generate library right = .ok code) :
      Alike fault (.ok left) (.ok right)
  | rejected
      (left right : SyntaxError)
      (sameMessage : left.message = right.message)
      (sameLiteral : left.got = right.got)
      (sameKind : left.gotKind = right.gotKind)
      (sameHint : left.hint = right.hint) :
      Alike fault (.error (fault (.unfit left))) (.error (fault (.unfit right)))
  | nested (left right : Position) :
      Alike fault (.error (fault (.tooDeep left))) (.error (fault (.tooDeep right)))

/-- The Nim modules of two programs that differ in positions only. -/
theorem generate_of_erase_eq
    (library : String)
    {left right : Program}
    {code : String}
    (generated : generate library left = .ok code)
    (sameTree : left.erase = right.erase) :
    generate library right = .ok code := by
  have same : (generate library right).toOption = (generate library left).toOption :=
    calc (generate library right).toOption
      _ = (generate library right.erase).toOption := (generate_relocate _ library right).symm
      _ = (generate library left.erase).toOption := by rw [sameTree]
      _ = (generate library left).toOption := generate_relocate _ library left
  exact (Nim.eq_of_toOption_eq generated same).trans generated

/-- Errors that differ in positions only. -/
theorem Alike.of_erase_eq
    {Fault : Type}
    (fault : GrammarError → Fault)
    {left right : GrammarError}
    (same : left.erase = right.erase) :
    Alike fault (.error (fault left)) (.error (fault right)) := by
  cases left with
  | unfit leftError =>
      cases right with
      | unfit rightError =>
          simp only [GrammarError.erase, GrammarError.relocate, GrammarError.unfit.injEq,
            SyntaxError.mk.injEq] at same
          obtain ⟨message, got, kind, -, hint⟩ := same
          exact .rejected leftError rightError message got kind hint
      | tooDeep position =>
          cases same
  | tooDeep position =>
      cases right with
      | unfit rightError => cases same
      | tooDeep other => exact .nested position other

/-- Token lists that agree in kinds and literals are parsed alike. -/
theorem parseTokens_alike
    {Fault : Type}
    (fault : GrammarError → Fault)
    {left right : List Token}
    (agree : left.map Token.face = right.map Token.face) :
    Alike fault ((parseTokens left).mapError fault) ((parseTokens right).mapError fault) := by
  have erasedLeft := Grammar.programWithin_erase Grammar.depthLimit left
  have erasedRight := Grammar.programWithin_erase Grammar.depthLimit right
  rw [Token.map_erase_of_map_face agree] at erasedLeft
  have same := erasedLeft.symm.trans erasedRight
  unfold parseTokens
  cases parsedLeft : Grammar.programWithin Grammar.depthLimit left with
  | ok program =>
      cases parsedRight : Grammar.programWithin Grammar.depthLimit right with
      | ok other =>
          rw [parsedLeft, parsedRight] at same
          have sameTree : program.erase = other.erase := Except.ok.inj same
          have sameText : program.render = other.render :=
            calc program.render
              _ = program.erase.render := (Program.render_relocate _ program).symm
              _ = other.erase.render := by rw [sameTree]
              _ = other.render := Program.render_relocate _ other
          refine .accepted program other sameTree sameText fun library => ?_
          obtain ⟨code, generated⟩ := generate_of_parsed library parsedLeft
          exact ⟨code, generated, generate_of_erase_eq library generated sameTree⟩
      | error error =>
          rw [parsedLeft, parsedRight] at same
          cases same
  | error error =>
      cases parsedRight : Grammar.programWithin Grammar.depthLimit right with
      | ok other =>
          rw [parsedLeft, parsedRight] at same
          cases same
      | error other =>
          rw [parsedLeft, parsedRight] at same
          exact .of_erase_eq fault (Except.error.inj same)

theorem mapError_id
    {ε α : Type}
    (result : Except ε α) :
    result.mapError id = result := by
  cases result <;> rfl

/--
Only the kinds and the literals of the tokens decide what becomes of an input,
be it given as tokens or as a source that has tokens.
-/
theorem parse_sees_faces_only :
    (∀ left right : List Token, left.map Token.face = right.map Token.face →
      Alike id (parseTokens left) (parseTokens right)) ∧
    (∀ (left right : Source) (leftTokens rightTokens : List Token),
      lex left = .ok leftTokens →
      lex right = .ok rightTokens →
      leftTokens.map Token.face = rightTokens.map Token.face →
      Alike ParseFault.grammatical (parseProgram left) (parseProgram right)) := by
  constructor
  · intro left right agree
    have alike := parseTokens_alike id agree
    rwa [mapError_id, mapError_id] at alike
  · intro left right leftTokens rightTokens lexedLeft lexedRight agree
    rw [parseProgram_of_lex_ok lexedLeft, parseProgram_of_lex_ok lexedRight]
    exact parseTokens_alike ParseFault.grammatical agree

/-- A call, its tokens close together. -/
def closeCall : Source := .ofString "a(b)"

/-- The same call with blanks, and with a comment between two of its tokens. -/
def wideCall : Source := .ofString "a /* f */ ( b )"

/-- Blanks and a comment do not change what a call becomes. -/
theorem parse_sees_faces_only_calls :
    Alike id (parseTokens [⟨.identifier, "a", ⟨.start, .start⟩⟩])
      (parseTokens [⟨.identifier, "a", ⟨.zero, .zero⟩⟩]) ∧
    Alike ParseFault.grammatical (parseProgram closeCall) (parseProgram wideCall) := by
  obtain ⟨ofTokens, ofSources⟩ := parse_sees_faces_only
  refine ⟨ofTokens _ _ rfl, ofSources _ _ _ _ (show lex closeCall = .ok
    [⟨.identifier, "a", ⟨⟨0, 1, 0⟩, ⟨0, 1, 0⟩⟩⟩, ⟨.parenOpen, "(", ⟨⟨1, 1, 1⟩, ⟨1, 1, 1⟩⟩⟩,
      ⟨.identifier, "b", ⟨⟨2, 1, 2⟩, ⟨2, 1, 2⟩⟩⟩, ⟨.parenClose, ")", ⟨⟨3, 1, 3⟩, ⟨3, 1, 3⟩⟩⟩,
      .endOfInput ⟨4, 1, 4⟩] by cbv) (show lex wideCall = .ok
    [⟨.identifier, "a", ⟨⟨0, 1, 0⟩, ⟨0, 1, 0⟩⟩⟩, ⟨.parenOpen, "(", ⟨⟨10, 1, 10⟩, ⟨10, 1, 10⟩⟩⟩,
      ⟨.identifier, "b", ⟨⟨12, 1, 12⟩, ⟨12, 1, 12⟩⟩⟩,
      ⟨.parenClose, ")", ⟨⟨14, 1, 14⟩, ⟨14, 1, 14⟩⟩⟩, .endOfInput ⟨15, 1, 15⟩] by cbv) rfl⟩

end FrenchNim
