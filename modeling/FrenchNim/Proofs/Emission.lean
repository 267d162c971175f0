import FrenchNim.Pipeline
import FrenchNim.Proofs.Grammar.Trees

namespace FrenchNim

/-!
# Transpiling never fails inside

Emission fails only at a node that is missing where one is needed, or unknown.
A tree without gaps has no such node, and the grammar makes no other trees. So a
source either has Nim code or is rejected before emission, by the scanner or by
the grammar, for a mistake of its author.
-/

namespace Nim

/-- A call of the expression passes no arguments. -/
def ignoresArguments : Expression → Bool
  | .member _ method _ => argumentlessMethods.contains method.name
  | _ => false

/-- A call, whatever is called. -/
theorem emitExpression_invocation
    (place : Place)
    (callee : Expression)
    (arguments : List Expression)
    (last : Position) :
    emitExpression place (.invocation callee arguments last) = do
      let object ← emitExpression place callee
      if ignoresArguments callee then
        return call object []
      else
        return call object (← emitExpressions place arguments) := by
  cases callee with
  | member target method arrow =>
      rw [emitExpression, emitExpression]
      cases emitExpression place target <;> rfl
  | _ =>
      rw [emitExpression.eq_def]
      rfl

/-- A clause of a loop has Nim code if it has where it is there. -/
theorem emitClause_of_present
    {place : Place}
    {clause : Statement}
    (known : clause ≠ .missing → ∃ code, emitStatement place clause = .ok code) :
    ∃ code, emitClause place clause = .ok code := by
  cases clause with
  | missing => exact ⟨_, rfl⟩
  | _ => exact known (by simp)

/-- The test of a loop has Nim code if it has where it is there. -/
theorem emitTest_of_present
    {place : Place}
    {test : Expression}
    (known : test ≠ .missing → ∃ code, emitExpression place test = .ok code) :
    ∃ code, emitTest place test = .ok code := by
  cases test with
  | missing => exact ⟨_, rfl⟩
  | _ => exact known (by simp)

variable {vocabulary : Vocabulary}

mutual

/-- An expression without gaps has Nim code. -/
theorem emitExpression_of_over
    (place : Place) :
    ∀ {value : Expression}, value.Over vocabulary →
      ∃ code, emitExpression place value = .ok code
  | .bool _ _, _ => ⟨_, rfl⟩
  | .number _ _ _, _ => ⟨_, rfl⟩
  | .string _ _, _ => ⟨_, rfl⟩
  | .array [] _, _ => ⟨_, rfl⟩
  | .array (first :: rest) _, ⟨headOver, tailOver⟩ => by
      obtain ⟨head, headCode⟩ := emitExpression_of_over place headOver
      obtain ⟨tail, tailCode⟩ := emitExpressions_of_over place tailOver
      rw [emitExpression, headCode, tailCode]
      exact ⟨_, rfl⟩
  | .identifier _, _ => ⟨_, rfl⟩
  | .invocation callee _ _, ⟨calleeOver, argumentsOver⟩ => by
      obtain ⟨object, calleeCode⟩ := emitExpression_of_over place calleeOver
      obtain ⟨codes, argumentCodes⟩ := emitExpressions_of_over place argumentsOver
      rw [emitExpression_invocation, calleeCode, argumentCodes]
      by_cases ignored : ignoresArguments callee
      · exact ⟨_, if_pos ignored⟩
      · exact ⟨_, if_neg ignored⟩
  | .member target _ _, ⟨targetOver, _⟩ => by
      obtain ⟨object, objectCode⟩ := emitExpression_of_over place targetOver
      rw [emitExpression, objectCode]
      exact ⟨_, rfl⟩
  | .index target position _, ⟨targetOver, positionOver⟩ => by
      obtain ⟨object, objectCode⟩ := emitExpression_of_over place targetOver
      obtain ⟨inner, innerCode⟩ := emitExpression_of_over place positionOver
      rw [emitExpression, objectCode, innerCode]
      exact ⟨_, rfl⟩
  | .binary _ left right, ⟨_, leftOver, rightOver⟩ => by
      obtain ⟨first, leftCode⟩ := emitExpression_of_over place leftOver
      obtain ⟨second, rightCode⟩ := emitExpression_of_over place rightOver
      rw [emitExpression, leftCode, rightCode]
      exact ⟨_, rfl⟩
  | .closure _ body _, ⟨_, bodyOver⟩ => by
      obtain ⟨inner, bodyCode⟩ := emitBlock_of_over place.nested bodyOver
      rw [emitExpression, bodyCode]
      exact ⟨_, rfl⟩
  | .construction _ _ _, ⟨calleeOver, argumentsOver⟩ => by
      obtain ⟨object, calleeCode⟩ := emitExpression_of_over place calleeOver.over
      obtain ⟨codes, argumentCodes⟩ := emitExpressions_of_over place argumentsOver
      rw [emitExpression, calleeCode, argumentCodes]
      exact ⟨_, rfl⟩
  | .rawCode _ _, _ => ⟨_, rfl⟩

/-- Expressions without gaps are emitted. -/
theorem emitExpressions_of_over
    (place : Place) :
    ∀ {values : List Expression}, Expression.AllOver vocabulary values →
      ∃ codes, emitExpressions place values = .ok codes
  | [], _ => ⟨_, rfl⟩
  | first :: rest, ⟨headOver, tailOver⟩ => by
      obtain ⟨head, headCode⟩ := emitExpression_of_over place headOver
      obtain ⟨tail, tailCode⟩ := emitExpressions_of_over place tailOver
      rw [emitExpressions, headCode, tailCode]
      exact ⟨_, rfl⟩

/-- A block without gaps is emitted. -/
theorem emitBlock_of_over
    (place : Place) :
    ∀ {block : Block}, block.Over vocabulary → ∃ code, emitBlock place block = .ok code
  | .of statements _, bodyOver => by
      rw [emitBlock]
      exact emitStatements_of_over place bodyOver

/-- Statements without gaps are emitted. -/
theorem emitStatements_of_over
    (place : Place) :
    ∀ {nodes : List Statement}, Statement.AllOver vocabulary nodes →
      ∃ code, emitStatements place nodes = .ok code
  | [], _ => ⟨_, rfl⟩
  | first :: rest, ⟨headOver, tailOver⟩ => by
      obtain ⟨head, headCode⟩ := emitStatement_of_over place headOver
      obtain ⟨tail, tailCode⟩ := emitStatements_of_over place tailOver
      rw [emitStatements, headCode, tailCode]
      exact ⟨_, rfl⟩

/-- A statement without gaps is emitted. -/
theorem emitStatement_of_over
    (place : Place) :
    ∀ {node : Statement}, node.Over vocabulary → ∃ code, emitStatement place node = .ok code
  | .returned _ _, valueOver => by
      obtain ⟨code, valueCode⟩ := emitExpression_of_over place valueOver
      rw [emitStatement, valueCode]
      exact ⟨_, rfl⟩
  | .declared _ _ _, ⟨_, valueOver⟩ => by
      obtain ⟨code, valueCode⟩ := emitExpression_of_over place valueOver
      rw [emitStatement, valueCode]
      exact ⟨_, rfl⟩
  | .assigned _ _, ⟨targetOver, valueOver⟩ => by
      obtain ⟨first, targetCode⟩ := emitExpression_of_over place targetOver
      obtain ⟨second, valueCode⟩ := emitExpression_of_over place valueOver
      rw [emitStatement, targetCode, valueCode]
      exact ⟨_, rfl⟩
  | .evaluated _, valueOver => by
      obtain ⟨code, valueCode⟩ := emitExpression_of_over place valueOver
      rw [emitStatement, valueCode]
      exact ⟨_, rfl⟩
  | .conditional _ _ alternative _, ⟨testOver, consequentOver, alternativeOver⟩ => by
      obtain ⟨test, testCode⟩ := emitExpression_of_over place testOver
      obtain ⟨body, bodyCode⟩ := emitBlock_of_over place.nested consequentOver
      have otherwise : ∃ code, emitBlock place.nested alternative = .ok code := by
        rcases alternativeOver with isMissing | alternativeOver
        · rw [isMissing]
          exact ⟨_, rfl⟩
        · exact emitBlock_of_over place.nested alternativeOver
      obtain ⟨other, otherCode⟩ := otherwise
      rw [emitStatement, testCode, bodyCode, otherCode]
      by_cases isShort : alternative.isEmpty
      · exact ⟨_, by simp only [isShort, if_true]; rfl⟩
      · exact ⟨_, by simp only [isShort]; rfl⟩
  | .whileLoop _ _ _, ⟨testOver, bodyOver⟩ => by
      obtain ⟨test, testCode⟩ := emitExpression_of_over place testOver
      obtain ⟨body, bodyCode⟩ := emitBlock_of_over place.nested bodyOver
      rw [emitStatement, testCode, bodyCode]
      exact ⟨_, rfl⟩
  | .forLoop _ _ _ _ _, ⟨initialOver, testOver, incrementOver, bodyOver⟩ => by
      obtain ⟨first, firstCode⟩ := emitClause_of_present fun present =>
        emitStatement_of_over place (initialOver.resolve_left present).2
      obtain ⟨condition, conditionCode⟩ := emitTest_of_present fun present =>
        emitExpression_of_over place (testOver.resolve_left present)
      obtain ⟨inner, innerCode⟩ := emitBlock_of_over place.nested bodyOver
      obtain ⟨last, lastCode⟩ := emitClause_of_present fun present =>
        emitStatement_of_over place.nested (incrementOver.resolve_left present).2
      rw [emitStatement_forLoop, firstCode, conditionCode, innerCode, lastCode]
      exact ⟨_, rfl⟩

end

/-- A procedure whose body has no gaps has Nim code. -/
theorem emitProcedure_of_over
    (name parameters : String)
    {body : Block}
    (bodyOver : body.Over vocabulary) :
    ∃ code, emitProcedure name parameters body = .ok code := by
  obtain ⟨inner, bodyCode⟩ := emitBlock_of_over Place.top.nested bodyOver
  rw [emitProcedure, bodyCode]
  exact ⟨_, rfl⟩

/-- A constructor without gaps has Nim code, and so has the one that a class leaves out. -/
theorem emitConstructor_of_over
    (className : String)
    {constructor? : Option Constructor}
    (nodesOver : ∀ node ∈ constructor?, node.Over vocabulary) :
    ∃ code, emitConstructor className constructor? = .ok code := by
  cases constructor? with
  | none =>
      exact ⟨_, rfl⟩
  | some node =>
      obtain ⟨inner, bodyCode⟩ := emitBlock_of_over constructorPlace (nodesOver node rfl).2
      simp only [emitConstructor, Option.map_some, Option.getD_some, bodyCode]
      exact ⟨_, rfl⟩

/-- Methods without gaps have Nim code. -/
theorem emitMethods_of_over
    (className : String)
    {methods : List Method}
    (nodesOver : ∀ node ∈ methods, node.Over vocabulary) :
    ∃ code, emitMethods className methods = .ok code := by
  induction methods with
  | nil =>
      exact ⟨_, rfl⟩
  | cons method rest inductionHypothesis =>
      obtain ⟨firstOver, restOver⟩ := List.forall_mem_cons.mp nodesOver
      obtain ⟨others, othersCode⟩ := inductionHypothesis restOver
      obtain ⟨code, methodCode⟩ := emitProcedure_of_over method.name.name
        (parameterList [selfName ++ ": " ++ className] method.parameters) firstOver.2.2
      simp only [emitMethods, methodCode, othersCode]
      exact ⟨_, rfl⟩

/-- A declaration without gaps has Nim code. -/
theorem emitDeclaration_of_over
    {declaration : Declaration}
    (isOver : declaration.Over vocabulary) :
    ∃ code, emitDeclaration declaration = .ok code := by
  cases declaration with
  | imported module alias? path span =>
      exact ⟨_, rfl⟩
  | classType name constructor? methods span =>
      obtain ⟨-, constructorOver, methodsOver⟩ := isOver
      obtain ⟨first, firstCode⟩ := emitConstructor_of_over name.name constructorOver
      obtain ⟨others, othersCode⟩ := emitMethods_of_over name.name methodsOver
      simp only [emitDeclaration, firstCode, othersCode]
      exact ⟨_, rfl⟩
  | function name parameters body first =>
      exact emitProcedure_of_over name.name _ isOver.2.2
  | typeName name external span =>
      exact ⟨_, rfl⟩
  | constant name value first =>
      obtain ⟨code, valueCode⟩ := emitExpression_of_over Place.top isOver.2
      simp only [emitDeclaration, valueCode]
      exact ⟨_, rfl⟩
  | statement body =>
      exact emitStatement_of_over Place.top isOver.2

/-- The code of a declaration stands before the code of the others, unless it is blank. -/
theorem emitDeclarations_cons
    {first : Declaration}
    {rest : List Declaration}
    {code others : String}
    (isCode : first.isImport = false)
    (firstCode : emitDeclaration first = .ok code)
    (othersCode : emitDeclarations rest = .ok others) :
    emitDeclarations (first :: rest) =
      .ok (if trimText code = "" then others else code ++ "\n" ++ others) := by
  rw [emitDeclarations, isCode, if_neg Bool.false_ne_true, firstCode, othersCode,
    apply_ite Except.ok]
  simp only [bind, Except.bind, pure, Except.pure]

/-- Declarations without gaps have Nim code. -/
theorem emitDeclarations_of_over
    {declarations : List Declaration}
    (allOver : ∀ declaration ∈ declarations, declaration.Over vocabulary) :
    ∃ code, emitDeclarations declarations = .ok code := by
  induction declarations with
  | nil =>
      exact ⟨_, rfl⟩
  | cons first rest inductionHypothesis =>
      obtain ⟨firstOver, restOver⟩ := List.forall_mem_cons.mp allOver
      obtain ⟨others, othersCode⟩ := inductionHypothesis restOver
      obtain ⟨code, firstCode⟩ := emitDeclaration_of_over firstOver
      by_cases isImport : first.isImport
      · rw [emitDeclarations, if_pos isImport]
        exact ⟨others, othersCode⟩
      · exact ⟨_, emitDeclarations_cons (Bool.eq_false_iff.mpr isImport) firstCode othersCode⟩

end Nim

/-- A program without gaps has a Nim module. -/
theorem generate_of_over
    (library : String)
    {vocabulary : Vocabulary}
    {program : Program}
    (isOver : program.Over vocabulary) :
    ∃ code, generate library program = .ok code := by
  obtain ⟨code, declarationsCode⟩ := Nim.emitDeclarations_of_over isOver
  rw [generate, declarationsCode]
  exact ⟨_, rfl⟩

/-- A program that was parsed has a Nim module. -/
theorem generate_of_parsed
    (library : String)
    {tokens : List Token}
    {program : Program}
    (parsed : parseTokens tokens = .ok program) :
    ∃ code, generate library program = .ok code :=
  generate_of_over library
    (Grammar.programWithin_over Vocabulary.everything_isOpen
      (Vocabulary.everything_admitsAll tokens) parsed)

namespace Failure

/-- A mistake that the scanner or the grammar finds in a source. -/
def IsSourceMistake : Failure → Prop
  | unterminatedString _ _ | tokenLimit _ | unfit _ | tooDeep _ => True
  | _ => False

/-- A lexical error is a mistake of the source. -/
theorem ofLexError_isSourceMistake (error : LexError) :
    (ofLexError error).IsSourceMistake := by
  cases error <;> exact trivial

/-- A grammatical error is a mistake of the source. -/
theorem ofGrammarError_isSourceMistake (error : GrammarError) :
    (ofGrammarError error).IsSourceMistake := by
  cases error <;> exact trivial

/-- A source with one mistake is rejected as the fault of its author. -/
theorem parsing_isUser_not_internal
    (code : Source)
    {mistake : Failure}
    (found : mistake.IsSourceMistake) :
    (parsing code [mistake]).isUser = true ∧ (parsing code [mistake]).isInternal = false := by
  cases mistake with
  | unterminatedString | tokenLimit | unfit | tooDeep =>
      simp [isUser, isInternal, anyInternal]
  | _ =>
      exact found.elim

end Failure

namespace Pipeline

/-- Parsing a prepared source gives the program of its tokens or finds one mistake. -/
theorem parsePrepared_cases (stages : List Stage) (code : Source) :
    (∃ tokens program, parseTokens tokens = .ok program ∧
      (parsePrepared stages code).outcome = .ok program) ∨
    ∃ mistake : Failure, mistake.IsSourceMistake ∧
      (parsePrepared stages code).outcome = .error (.parsing code [mistake]) := by
  unfold parsePrepared
  cases lex code with
  | error error =>
      exact .inr ⟨_, Failure.ofLexError_isSourceMistake error, rfl⟩
  | ok tokens =>
      cases parsed : parseTokens tokens with
      | error error =>
          exact .inr ⟨_, Failure.ofGrammarError_isSourceMistake error, by simp only [parsed]; rfl⟩
      | ok program =>
          exact .inl ⟨tokens, program, parsed, by simp only [parsed]⟩

/--
Transpiling gives Nim code or finds one mistake in the source, and it never
fails inside: whatever the grammar makes of a token list has a Nim module.
-/
theorem transpile_or_sourceMistake
    (normalizer : Normalizer)
    (library : String)
    (code : Source) :
    ((∃ nim, transpile normalizer library code = .ok nim) ∨
      ∃ mistake : Failure, mistake.IsSourceMistake ∧
        transpile normalizer library code =
          .error (.parsing (normalizer.apply code) [mistake]) ∧
        (Failure.parsing (normalizer.apply code) [mistake]).isUser = true ∧
        (Failure.parsing (normalizer.apply code) [mistake]).isInternal = false) ∧
    ∀ tokens program, parseTokens tokens = .ok program →
      ∃ nim, generate library program = .ok nim := by
  refine ⟨?_, fun _ _ parsed => generate_of_parsed library parsed⟩
  unfold transpile run runParse
  rcases parsePrepared_cases (normalizer.stages code) (normalizer.apply code) with
    ⟨tokens, program, parsed, outcome⟩ | ⟨mistake, found, outcome⟩
  · obtain ⟨nim, generated⟩ := generate_of_parsed library parsed
    refine .inl ⟨nim, ?_⟩
    simp only [outcome, emit, generated]
  · refine .inr ⟨mistake, found, ?_, Failure.parsing_isUser_not_internal _ found⟩
    simp only [outcome]

end Pipeline

end FrenchNim
