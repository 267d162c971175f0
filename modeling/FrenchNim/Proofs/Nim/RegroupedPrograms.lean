import FrenchNim.Proofs.Nim.Regrouped

namespace FrenchNim

/-!
# The Nim modules of regrouped programs

The module of a program is the row of the codes of its declarations. Code
without any visible text would be left out, but every declaration has some.
-/

/-- Regrouping leaves the immediate returns of a block where they are. -/
theorem Block.regroup_returns (block : Block) : block.regroup.returns = block.returns := by
  cases block with
  | of statements span =>
      rw [Block.regroup, Block.returns, Block.returns, Block.statements, Block.statements]
      induction statements with
      | nil =>
          rfl
      | cons first rest inductionHypothesis =>
          rw [Statement.regroupAll, List.any_cons, List.any_cons, inductionHypothesis]
          cases first <;> rfl
  | missing =>
      rfl

section Over

variable {vocabulary : Vocabulary}

/-- A regrouped constructor has no gaps. -/
theorem Constructor.regroup_over {node : Constructor} (isOver : node.Over vocabulary) :
    node.regroup.Over vocabulary :=
  ⟨isOver.1.relocate _, Block.regroup_over isOver.2⟩

/-- A regrouped method has no gaps. -/
theorem Method.regroup_over {node : Method} (isOver : node.Over vocabulary) :
    node.regroup.Over vocabulary :=
  ⟨isOver.1, isOver.2.1.relocate _, Block.regroup_over isOver.2.2⟩

/-- A regrouped declaration has no gaps. -/
theorem Declaration.regroup_over {node : Declaration} (isOver : node.Over vocabulary) :
    node.regroup.Over vocabulary := by
  cases node with
  | imported module alias? path span =>
      obtain ⟨named, aliasNamed⟩ := isOver
      refine ⟨named, ?_⟩
      intro newName member
      obtain ⟨original, isOriginal, rfl⟩ := Option.map_eq_some_iff.mp member
      exact aliasNamed original isOriginal
  | classType name constructor? methods span =>
      obtain ⟨named, constructorOver, methodsOver⟩ := isOver
      refine ⟨named, ?_, ?_⟩
      · intro node member
        obtain ⟨original, isOriginal, rfl⟩ := Option.map_eq_some_iff.mp member
        exact Constructor.regroup_over (constructorOver original isOriginal)
      · intro node member
        obtain ⟨original, isOriginal, rfl⟩ := List.mem_map.mp member
        exact Method.regroup_over (methodsOver original isOriginal)
  | function name parameters body first =>
      exact ⟨isOver.1, isOver.2.1.relocate _, Block.regroup_over isOver.2.2⟩
  | typeName name external span =>
      exact isOver
  | constant name value first =>
      exact ⟨isOver.1, (Expression.push_over isOver.2).whole⟩
  | statement body =>
      refine ⟨?_, Statement.regroup_over isOver.2⟩
      cases body with
      | returned => cases isOver.1
      | _ => rfl

end Over

namespace Nim

open Sign (OpensWith startsOperand)

/-! ## Declarations have visible code -/

/-- A character that is not white space. -/
def IsVisible (c : Char) : Prop :=
  isWhiteSpace c = false

instance (c : Char) : Decidable (IsVisible c) :=
  inferInstanceAs (Decidable (_ = _))

/-- Nothing is indented at the top level. -/
theorem opensWith_indented {isGood : Char → Prop} {text : String} (opens : OpensWith isGood text) :
    OpensWith isGood (Place.top.indentation ++ text) := by
  have nothing : Place.top.indentation = "" := rfl
  rwa [nothing, String.empty_append]

/-- The emission succeeds, and the code begins with visible text. -/
def VisibleCode (result : Except UnsupportedNode String) : Prop :=
  ∃ text, result = .ok text ∧ OpensWith IsVisible text

/-- Trimmed text begins with visible text, if there is any. -/
theorem trimText_begins (text : String) :
    trimText text = "" ∨ OpensWith IsVisible (trimText text) := by
  unfold trimText
  cases chars : trimSpace text.toList with
  | nil =>
      exact .inl rfl
  | cons c rest =>
      refine .inr ⟨c, rest, String.toList_ofList, ?_⟩
      have begins : c :: rest <+: text.toList.dropWhile isWhiteSpace := by
        rw [← chars, trimSpace, ← List.reverse_suffix, List.reverse_reverse]
        exact List.dropWhile_suffix _
      obtain ⟨more, same⟩ := begins
      have first := List.head?_dropWhile_not isWhiteSpace text.toList
      rw [← same] at first
      exact first

/-- Only white space is trimmed away. -/
theorem white_of_trimText_eq
    {text : String}
    (blank : trimText text = "") :
    ∀ c ∈ text.toList, isWhiteSpace c = true := by
  have chars : trimSpace text.toList = [] := by
    have same := congrArg String.toList blank
    rwa [trimText, String.toList_ofList] at same
  rw [trimSpace, List.reverse_eq_nil_iff, List.dropWhile_eq_nil_iff] at chars
  have white : ∀ c ∈ text.toList.dropWhile isWhiteSpace, isWhiteSpace c = true := fun c member =>
    chars c (List.mem_reverse.mpr member)
  have first := List.head?_dropWhile_not isWhiteSpace text.toList
  cases rest : text.toList.dropWhile isWhiteSpace with
  | nil =>
      exact List.dropWhile_eq_nil_iff.mp rest
  | cons c more =>
      rw [rest] at white first
      have visible : isWhiteSpace c = false := first
      rw [white c List.mem_cons_self] at visible
      cases visible

/-- A text that begins with visible text is not blank. -/
theorem trimText_ne_empty
    {code : String}
    (opens : OpensWith IsVisible code) :
    trimText code ≠ "" := by
  obtain ⟨c, rest, starts, visible⟩ := opens
  intro blank
  have white := white_of_trimText_eq blank c (by rw [starts]; exact List.mem_cons_self)
  rw [visible] at white
  cases white

section Visible

variable {vocabulary : Vocabulary} (lexical : vocabulary.IsLexical)
  (visible : OpensVisibly vocabulary)

include lexical visible

/-- The code of an expression begins with visible text. -/
theorem code_visible (place : Place) {value : Expression} (isOver : value.Over vocabulary) :
    OpensWith IsVisible (code place value) := by
  have parenthesis : OpensWith IsVisible "(" := ⟨'(', _, rfl, by decide⟩
  induction value using symbolCount.induct with
  | case1 callee arguments last inductionHypothesis =>
      rw [code_invocation isOver.1 isOver.2]
      exact (inductionHypothesis isOver.1).append _
  | case2 target name arrow inductionHypothesis =>
      rw [code_member isOver.1]
      exact (inductionHypothesis isOver.1).append _
  | case3 target position last inductionHypothesis =>
      rw [code_index isOver.1 isOver.2]
      exact (inductionHypothesis isOver.1).append _
  | case4 operator left right =>
      rw [code_binary isOver.2.1 isOver.2.2]
      exact (((parenthesis.append _).append _).append _).append _
  | case5 value notCall notMember notIndex notBinary =>
      have atomic := isAtom_of_ne notCall notMember notIndex notBinary
      exact (opensWith_atom lexical visible isOver atomic).imp fun _ starts => starts.2

/-- The code of a clause of a loop begins with visible text. -/
theorem clause_visible
    {node : Statement}
    (isClause : node.isClause = true)
    (isOver : node.Over vocabulary) :
    VisibleCode (emitStatement Place.top node) := by
  cases node with
  | declared name value first =>
      have keyword : OpensWith IsVisible (Place.top.indentation ++ "var ") :=
        ⟨'v', _, rfl, by decide⟩
      rw [emitStatement, emitExpression_eq_code isOver.2]
      exact ⟨_, rfl, ((((keyword.append _).append _).append _).append _).append _⟩
  | assigned target value =>
      obtain ⟨targetOver, valueOver⟩ := isOver
      rw [emitStatement, emitExpression_eq_code targetOver, emitExpression_eq_code valueOver]
      have starts := opensWith_indented (code_visible lexical visible Place.top targetOver)
      exact ⟨_, rfl, ((starts.append _).append _).append _⟩
  | evaluated value =>
      rw [emitStatement, emitExpression_eq_code isOver]
      have starts := opensWith_indented (code_visible lexical visible Place.top isOver)
      exact ⟨_, rfl, starts.append _⟩
  | _ =>
      cases isClause

/-- The code of a statement at the top level begins with visible text. -/
theorem statement_visible
    {node : Statement}
    (isOver : node.Over vocabulary) :
    VisibleCode (emitStatement Place.top node) := by
  cases node with
  | returned value first =>
      have keyword : OpensWith IsVisible (Place.top.indentation ++ "return ") :=
        ⟨'r', _, rfl, by decide⟩
      rw [emitStatement, emitExpression_eq_code isOver]
      exact ⟨_, rfl, (keyword.append _).append _⟩
  | declared | assigned | evaluated =>
      exact clause_visible lexical visible rfl isOver
  | conditional test consequent alternative first =>
      obtain ⟨testOver, consequentOver, alternativeOver⟩ := isOver
      have keyword : OpensWith IsVisible (Place.top.indentation ++ "if ") :=
        ⟨'i', _, rfl, by decide⟩
      obtain ⟨inner, bodyCode⟩ := emitBlock_of_over Place.top.nested consequentOver
      obtain ⟨other, otherCode⟩ : ∃ code, emitBlock Place.top.nested alternative = .ok code := by
        rcases alternativeOver with isMissing | alternativeOver
        · rw [isMissing]
          exact ⟨_, rfl⟩
        · exact emitBlock_of_over Place.top.nested alternativeOver
      rw [emitStatement, emitExpression_eq_code testOver, bodyCode, otherCode]
      have branch := ((keyword.append (code Place.top test)).append ":\n").append inner
      by_cases isShort : alternative.isEmpty
      · exact ⟨_, by simp only [isShort, if_true]; rfl, branch⟩
      · exact ⟨_, by simp only [isShort]; rfl, ((branch.append _).append _).append _⟩
  | whileLoop test body first =>
      obtain ⟨testOver, bodyOver⟩ := isOver
      have keyword : OpensWith IsVisible (Place.top.indentation ++ "while ") :=
        ⟨'w', _, rfl, by decide⟩
      obtain ⟨inner, bodyCode⟩ := emitBlock_of_over Place.top.nested bodyOver
      rw [emitStatement, emitExpression_eq_code testOver, bodyCode]
      exact ⟨_, rfl, ((keyword.append _).append _).append _⟩
  | forLoop initial test increment body first =>
      obtain ⟨initialOver, testOver, incrementOver, bodyOver⟩ := isOver
      have keyword : OpensWith IsVisible ("" ++ Place.top.indentation ++ "while ") :=
        ⟨'w', _, rfl, by decide⟩
      obtain ⟨condition, conditionCode⟩ := emitTest_of_present fun present =>
        emitExpression_of_over Place.top (testOver.resolve_left present)
      obtain ⟨inner, bodyCode⟩ := emitBlock_of_over Place.top.nested bodyOver
      obtain ⟨last, lastCode⟩ := emitClause_of_present fun present =>
        emitStatement_of_over Place.top.nested (incrementOver.resolve_left present).2
      rw [emitStatement_forLoop, conditionCode, bodyCode, lastCode]
      rcases initialOver with isMissing | ⟨isClause, isOver⟩
      · rw [isMissing]
        exact ⟨_, rfl, (((keyword.append _).append _).append _).append _⟩
      · obtain ⟨first, firstCode, starts⟩ := clause_visible lexical visible isClause isOver
        have sameCode : emitClause Place.top initial = emitStatement Place.top initial := by
          cases initial with
          | missing => cases isClause
          | _ => rfl
        rw [sameCode, firstCode]
        exact ⟨_, rfl, (((((starts.append _).append _).append _).append _).append _).append _⟩
  | unknown | missing =>
      exact isOver.elim

/-- The code of a declaration other than an import begins with visible text. -/
theorem declaration_visible
    {declaration : Declaration}
    (isOver : declaration.Over vocabulary)
    (isCode : declaration.isImport = false) :
    VisibleCode (emitDeclaration declaration) := by
  cases declaration with
  | imported =>
      cases isCode
  | classType name constructor? methods span =>
      have keyword : OpensWith IsVisible "type " := ⟨'t', _, rfl, by decide⟩
      obtain ⟨-, constructorOver, methodsOver⟩ := isOver
      obtain ⟨first, firstCode⟩ := emitConstructor_of_over name.name constructorOver
      obtain ⟨others, othersCode⟩ := emitMethods_of_over name.name methodsOver
      simp only [emitDeclaration, firstCode, othersCode]
      exact ⟨_, rfl, ((((((keyword.append _).append _).append _).append _).append _).append
        _).append _⟩
  | function name parameters body first =>
      have keyword : OpensWith IsVisible "proc " := ⟨'p', _, rfl, by decide⟩
      obtain ⟨inner, bodyCode⟩ := emitBlock_of_over Place.top.nested isOver.2.2
      rw [emitDeclaration, emitProcedure, bodyCode]
      exact ⟨_, rfl, ((((((keyword.append _).append _).append _).append _).append _).append
        _).append _⟩
  | typeName name external span =>
      have comment : OpensWith IsVisible "# External type: " := ⟨'#', _, rfl, by decide⟩
      have keyword : OpensWith IsVisible "type " := ⟨'t', _, rfl, by decide⟩
      cases external with
      | true => exact ⟨_, rfl, comment.append _⟩
      | false => exact ⟨_, rfl, (keyword.append _).append _⟩
  | constant name value first =>
      have keyword : OpensWith IsVisible "const " := ⟨'c', _, rfl, by decide⟩
      rw [emitDeclaration, emitExpression_eq_code isOver.2]
      exact ⟨_, rfl, ((keyword.append _).append _).append _⟩
  | statement body =>
      exact statement_visible lexical visible isOver.2

end Visible

/-! ## Modules before and after regrouping -/

section Programs

variable {vocabulary : Vocabulary} (lexical : vocabulary.IsLexical)

include lexical

/-- The code of a procedure and the code with its body regrouped. -/
theorem procedure_rivals
    (name parameters : String)
    {body : Block}
    (isOver : body.Over vocabulary) :
    RivalCodes (OpensVisibly vocabulary) body.Faithful (emitProcedure name parameters body)
      (emitProcedure name parameters body.regroup) := by
  obtain ⟨before, after, beforeCode, afterCode, rivals⟩ :=
    block_rivals lexical Place.top.nested isOver
  rw [emitProcedure, emitProcedure, beforeCode, afterCode, Block.regroup_returns]
  exact ⟨_, _, rfl, rfl, ((Rivals.constant _).append rivals).of_iff (by rw [true_and])⟩

/-- The code of a constructor and the code of what its text stands for. -/
theorem constructor_rivals
    (className : String)
    {constructor? : Option Constructor}
    (nodesOver : ∀ node ∈ constructor?, node.Over vocabulary) :
    RivalCodes (OpensVisibly vocabulary) (∀ node ∈ constructor?, node.body.Faithful)
      (emitConstructor className constructor?)
      (emitConstructor className (constructor?.map Constructor.regroup)) := by
  cases constructor? with
  | none =>
      exact ⟨_, _, rfl, rfl, (Rivals.constant _).of_iff ⟨fun _ => nofun, fun _ => trivial⟩⟩
  | some node =>
      obtain ⟨before, after, beforeCode, afterCode, rivals⟩ :=
        block_rivals lexical constructorPlace (nodesOver node rfl).2
      simp only [emitConstructor, Option.map_some, Option.getD_some, Constructor.regroup,
        parameterList_relocate, beforeCode, afterCode]
      refine ⟨_, _, rfl, rfl, ((Rivals.constant _).append rivals).of_iff ?_⟩
      simp

/-- The codes of methods and the codes of what their texts stand for. -/
theorem methods_rivals
    (className : String)
    {methods : List Method}
    (nodesOver : ∀ node ∈ methods, node.Over vocabulary) :
    RivalCodes (OpensVisibly vocabulary) (∀ node ∈ methods, node.body.Faithful)
      (emitMethods className methods)
      (emitMethods className (methods.map Method.regroup)) := by
  induction methods with
  | nil =>
      exact ⟨_, _, rfl, rfl, (Rivals.constant "").of_iff ⟨fun _ => nofun, fun _ => trivial⟩⟩
  | cons method rest inductionHypothesis =>
      obtain ⟨firstOver, restOver⟩ := List.forall_mem_cons.mp nodesOver
      obtain ⟨others, othersAfter, othersCode, othersAfterCode, othersRivals⟩ :=
        inductionHypothesis restOver
      obtain ⟨before, after, beforeCode, afterCode, rivals⟩ :=
        procedure_rivals lexical method.name.name
          (parameterList [selfName ++ ": " ++ className] method.parameters) firstOver.2.2
      rw [List.map_cons, emitMethods, emitMethods, othersCode, othersAfterCode]
      simp only [Method.regroup, Identifier.relocate_name, parameterList_relocate, beforeCode,
        afterCode]
      refine ⟨_, _, rfl, rfl, ?_⟩
      exact ((rivals.append (.constant "\n")).append othersRivals).of_iff
        (by rw [and_true, List.forall_mem_cons])

omit lexical in
/-- The fields of a class are the parameters of its constructor, regrouped or not. -/
theorem fields?_regroup (constructor? : Option Constructor) :
    Declaration.fields? (constructor?.map Constructor.regroup) =
      Declaration.fields? constructor? := by
  cases constructor? with
  | none =>
      rfl
  | some node =>
      simp only [Declaration.fields?, Option.map_some, Constructor.regroup, List.map_map]
      rfl

/-- The code of a declaration and the code of what its text stands for. -/
theorem declaration_rivals
    {declaration : Declaration}
    (isOver : declaration.Over vocabulary) :
    RivalCodes (OpensVisibly vocabulary) declaration.Faithful (emitDeclaration declaration)
      (emitDeclaration declaration.regroup) := by
  cases declaration with
  | imported | typeName =>
      exact ⟨_, _, rfl, rfl, .constant _⟩
  | classType name constructor? methods span =>
      obtain ⟨-, constructorOver, methodsOver⟩ := isOver
      obtain ⟨before, after, beforeCode, afterCode, rivals⟩ :=
        constructor_rivals lexical name.name constructorOver
      obtain ⟨others, othersAfter, othersCode, othersAfterCode, othersRivals⟩ :=
        methods_rivals lexical name.name methodsOver
      simp only [Declaration.regroup, emitDeclaration, Identifier.relocate_name,
        fields?_regroup, beforeCode, afterCode, othersCode, othersAfterCode]
      refine ⟨_, _, rfl, rfl, ?_⟩
      exact ((((Rivals.constant _).append rivals).append (.constant "\n")).append
        othersRivals).of_iff (by rw [true_and, and_true]; rfl)
  | function name parameters body first =>
      have rivals := procedure_rivals lexical name.name (parameterList [] parameters) isOver.2.2
      rw [Declaration.regroup, emitDeclaration, emitDeclaration, parameterList_relocate]
      exact rivals
  | constant name value first =>
      obtain ⟨before, after, beforeCode, afterCode, rivals⟩ :=
        (expression_regroups lexical Place.top isOver.2).codes lexical isOver.2
      rw [Declaration.regroup, emitDeclaration, emitDeclaration, beforeCode, Expression.regroup,
        afterCode]
      exact ⟨_, _, rfl, rfl, ((Rivals.constant _).append rivals).of_iff (by rw [true_and]; rfl)⟩
  | statement body =>
      exact statement_rivals lexical Place.top isOver.2

omit lexical in
/-- Codes that are left out only together. -/
theorem Rivals.unlessBlank
    {exact kept otherKept : Prop}
    {first second other others : String}
    (rivals : Rivals exact kept first second)
    (more : Rivals exact otherKept other others)
    (visible : exact → trimText first ≠ "" ∧ trimText second ≠ "") :
    Rivals exact (kept ∧ otherKept)
      (if trimText first = "" then other else first ++ "\n" ++ other)
      (if trimText second = "" then others else second ++ "\n" ++ others) := by
  have whole := ((rivals.append (.constant "\n")).append more).of_iff
    (by rw [and_true] : (kept ∧ True) ∧ otherKept ↔ kept ∧ otherKept)
  refine ⟨fun isKept => ?_, fun isExact => ?_, fun isExact same => ?_⟩
  · rw [rivals.same isKept.1, more.same isKept.2]
  · obtain ⟨firstVisible, secondVisible⟩ := visible isExact
    rw [if_neg firstVisible, if_neg secondVisible]
    exact whole.shorter isExact
  · obtain ⟨firstVisible, secondVisible⟩ := visible isExact
    rw [if_neg firstVisible, if_neg secondVisible] at same
    exact whole.keeps isExact same

/-- The codes of several declarations and the codes of what their texts stand for. -/
theorem declarations_rivals
    {declarations : List Declaration}
    (allOver : ∀ declaration ∈ declarations, declaration.Over vocabulary) :
    RivalCodes (OpensVisibly vocabulary)
      (∀ declaration ∈ declarations, declaration.Faithful)
      (emitDeclarations declarations)
      (emitDeclarations (declarations.map Declaration.regroup)) := by
  induction declarations with
  | nil =>
      have none : ∀ declaration ∈ ([] : List Declaration), declaration.Faithful :=
        List.forall_mem_nil _
      exact ⟨"", "", rfl, rfl, (Rivals.constant "").of_iff (iff_of_true trivial none)⟩
  | cons first rest inductionHypothesis =>
      obtain ⟨firstOver, restOver⟩ := List.forall_mem_cons.mp allOver
      obtain ⟨others, othersAfter, othersCode, othersAfterCode, othersRivals⟩ :=
        inductionHypothesis restOver
      have sameKind : first.regroup.isImport = first.isImport := by
        cases first <;> rfl
      rw [List.map_cons]
      cases isImport : first.isImport with
      | true =>
          refine ⟨others, othersAfter, ?_, ?_, othersRivals.of_iff ?_⟩
          · rw [emitDeclarations, if_pos isImport, othersCode]
          · rw [emitDeclarations, if_pos (sameKind.trans isImport), othersAfterCode]
          · have isFaithful : first.Faithful := by
              cases first with
              | imported => exact trivial
              | _ => cases isImport
            rw [List.forall_mem_cons]
            exact (and_iff_right isFaithful).symm
      | false =>
          obtain ⟨before, after, beforeCode, afterCode, rivals⟩ :=
            declaration_rivals lexical firstOver
          refine ⟨_, _, emitDeclarations_cons isImport beforeCode othersCode,
            emitDeclarations_cons (sameKind.trans isImport) afterCode othersAfterCode, ?_⟩
          refine (rivals.unlessBlank othersRivals fun visible => ?_).of_iff
            List.forall_mem_cons.symm
          obtain ⟨text, textCode, starts⟩ :=
            declaration_visible lexical visible firstOver isImport
          obtain ⟨textAfter, textAfterCode, startsAfter⟩ :=
            declaration_visible lexical visible (Declaration.regroup_over firstOver)
              (sameKind.trans isImport)
          rw [beforeCode] at textCode
          rw [afterCode] at textAfterCode
          cases textCode
          cases textAfterCode
          exact ⟨trimText_ne_empty starts, trimText_ne_empty startsAfter⟩

omit lexical in
/-- An import is emitted as before. -/
theorem emitImport?_regroup (declaration : Declaration) :
    emitImport? declaration.regroup = emitImport? declaration := by
  cases declaration with
  | imported module alias? path span => cases alias? <;> rfl
  | _ => rfl

end Programs

end Nim

end FrenchNim
