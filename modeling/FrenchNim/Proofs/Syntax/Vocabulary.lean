import FrenchNim.Syntax.Tree

namespace FrenchNim

/-!
# Trees over a vocabulary

A tree of the parser has every part that its node needs, and its words come from
somewhere. Both are said at once: a tree is over a vocabulary if no needed part
is missing, no node is unknown, and its names, numbers, operators and embedded
codes belong to the vocabulary. Where the words do not matter the vocabulary
admits everything.
-/

/-- The words that may stand in a tree. -/
structure Vocabulary where
  name : String → Prop
  number : String → Double → Prop
  operator : String → Prop
  code : String → Prop

namespace Vocabulary

/-- The vocabulary that admits every word. -/
def everything : Vocabulary where
  name _ := True
  number _ _ := True
  operator _ := True
  code _ := True

/-- Words that belong to two vocabularies. -/
def meet (left right : Vocabulary) : Vocabulary where
  name word := left.name word ∧ right.name word
  number literal value := left.number literal value ∧ right.number literal value
  operator word := left.operator word ∧ right.operator word
  code text := left.code text ∧ right.code text

/-- The vocabulary that admits every word and the embedded codes with a property. -/
def embedding (holds : String → Prop) : Vocabulary :=
  { everything with code := holds }

/-- The names of a list of parameters belong to the vocabulary. -/
def Names (vocabulary : Vocabulary) (parameters : List Identifier) : Prop :=
  ∀ parameter ∈ parameters, vocabulary.name parameter.name

end Vocabulary

namespace Expression

/-- The name of a class: an identifier, or members behind dots. -/
def IsClassName (vocabulary : Vocabulary) : Expression → Prop
  | identifier name => vocabulary.name name.name
  | member target name arrow =>
      target.IsClassName vocabulary ∧ vocabulary.name name.name ∧ arrow = false
  | _ => False

end Expression

namespace Statement

/-- A statement that may stand in the head of a loop. -/
def isClause : Statement → Bool
  | declared _ _ _ | assigned _ _ | evaluated _ => true
  | _ => false

/-- A statement that returns. -/
def isReturn : Statement → Bool
  | returned _ _ => true
  | _ => false

end Statement

mutual

/-- An expression without gaps whose words belong to the vocabulary. -/
def Expression.Over (vocabulary : Vocabulary) : Expression → Prop
  | .bool _ _ => True
  | .number literal value _ => vocabulary.number literal value
  | .string _ _ => True
  | .array values _ => Expression.AllOver vocabulary values
  | .identifier name => vocabulary.name name.name
  | .invocation callee arguments _ =>
      callee.Over vocabulary ∧ Expression.AllOver vocabulary arguments
  | .member target name _ => target.Over vocabulary ∧ vocabulary.name name.name
  | .index target position _ => target.Over vocabulary ∧ position.Over vocabulary
  | .binary operator left right =>
      vocabulary.operator operator ∧ left.Over vocabulary ∧ right.Over vocabulary
  | .closure parameters body _ => vocabulary.Names parameters ∧ body.Over vocabulary
  | .construction callee arguments _ =>
      callee.IsClassName vocabulary ∧ Expression.AllOver vocabulary arguments
  | .rawCode code _ => vocabulary.code code
  | .unknown _ _ => False
  | .missing => False

/-- Expressions without gaps whose words belong to the vocabulary. -/
def Expression.AllOver (vocabulary : Vocabulary) : List Expression → Prop
  | [] => True
  | first :: rest => first.Over vocabulary ∧ Expression.AllOver vocabulary rest

/-- A block without gaps whose words belong to the vocabulary. -/
def Block.Over (vocabulary : Vocabulary) : Block → Prop
  | .of statements _ => Statement.AllOver vocabulary statements
  | .missing => False

/--
A statement without gaps whose words belong to the vocabulary.

The second branch of a condition and the three parts of a loop's head may be
missing.
-/
def Statement.Over (vocabulary : Vocabulary) : Statement → Prop
  | .returned value _ => value.Over vocabulary
  | .declared name value _ => vocabulary.name name.name ∧ value.Over vocabulary
  | .assigned target value => target.Over vocabulary ∧ value.Over vocabulary
  | .evaluated value => value.Over vocabulary
  | .conditional test consequent alternative _ =>
      test.Over vocabulary ∧ consequent.Over vocabulary ∧
        (alternative = .missing ∨ alternative.Over vocabulary)
  | .whileLoop test body _ => test.Over vocabulary ∧ body.Over vocabulary
  | .forLoop initial test increment body _ =>
      (initial = .missing ∨ initial.isClause ∧ initial.Over vocabulary) ∧
        (test = .missing ∨ test.Over vocabulary) ∧
        (increment = .missing ∨ increment.isClause ∧ increment.Over vocabulary) ∧
        body.Over vocabulary
  | .unknown _ _ => False
  | .missing => False

/-- Statements without gaps whose words belong to the vocabulary. -/
def Statement.AllOver (vocabulary : Vocabulary) : List Statement → Prop
  | [] => True
  | first :: rest => first.Over vocabulary ∧ Statement.AllOver vocabulary rest

end

/-- A constructor without gaps whose words belong to the vocabulary. -/
def Constructor.Over (vocabulary : Vocabulary) (node : Constructor) : Prop :=
  vocabulary.Names node.parameters ∧ node.body.Over vocabulary

/-- A method without gaps whose words belong to the vocabulary. -/
def Method.Over (vocabulary : Vocabulary) (node : Method) : Prop :=
  vocabulary.name node.name.name ∧ vocabulary.Names node.parameters ∧
    node.body.Over vocabulary

namespace Declaration

/-- A declaration without gaps whose words belong to the vocabulary. Nothing returns at the top. -/
def Over (vocabulary : Vocabulary) : Declaration → Prop
  | imported module alias? _ _ =>
      vocabulary.name module.name ∧ ∀ newName ∈ alias?, vocabulary.name newName.name
  | classType name constructor? methods _ =>
      vocabulary.name name.name ∧ (∀ node ∈ constructor?, node.Over vocabulary) ∧
        ∀ node ∈ methods, node.Over vocabulary
  | function name parameters body _ =>
      vocabulary.name name.name ∧ vocabulary.Names parameters ∧ body.Over vocabulary
  | typeName name _ _ => vocabulary.name name.name
  | constant name value _ => vocabulary.name name.name ∧ value.Over vocabulary
  | statement body => body.isReturn = false ∧ body.Over vocabulary

end Declaration

/-- A program without gaps whose words belong to the vocabulary. -/
def Program.Over (vocabulary : Vocabulary) (program : Program) : Prop :=
  ∀ declaration ∈ program.declarations, declaration.Over vocabulary

section Lemmas

variable {vocabulary : Vocabulary}

/-- A list of expressions is over a vocabulary if each of them is. -/
theorem Expression.allOver_iff {values : List Expression} :
    Expression.AllOver vocabulary values ↔ ∀ value ∈ values, value.Over vocabulary := by
  induction values with
  | nil =>
      simp [Expression.AllOver]
  | cons first rest inductionHypothesis =>
      simp [Expression.AllOver, inductionHypothesis]

/-- A list of statements is over a vocabulary if each of them is. -/
theorem Statement.allOver_iff {nodes : List Statement} :
    Statement.AllOver vocabulary nodes ↔ ∀ node ∈ nodes, node.Over vocabulary := by
  induction nodes with
  | nil =>
      simp [Statement.AllOver]
  | cons first rest inductionHypothesis =>
      simp [Statement.AllOver, inductionHypothesis]

/-- An expression over a vocabulary is there. -/
theorem Expression.isPresent_of_over {value : Expression} (isOver : value.Over vocabulary) :
    value.isPresent = true := by
  cases value with
  | missing => exact isOver.elim
  | _ => rfl

/-- A statement over a vocabulary is there. -/
theorem Statement.isPresent_of_over {node : Statement} (isOver : node.Over vocabulary) :
    node.isPresent = true := by
  cases node with
  | missing => exact isOver.elim
  | _ => rfl

/-- The name of a class is an identifier, or a member of the name of a class. -/
@[elab_as_elim]
theorem Expression.IsClassName.induction
    {motive : Expression → Prop}
    {callee : Expression}
    (named : callee.IsClassName vocabulary)
    (identifier : ∀ name, vocabulary.name name.name → motive (.identifier name))
    (member : ∀ target name, target.IsClassName vocabulary → vocabulary.name name.name →
      motive target → motive (.member target name false)) :
    motive callee := by
  match callee, named with
  | .identifier name, known => exact identifier name known
  | .member target name _, ⟨named, known, isDot⟩ =>
      subst isDot
      exact member target name named known (named.induction identifier member)

/-- The name of a class is an expression without gaps. -/
theorem Expression.IsClassName.over
    {callee : Expression}
    (named : callee.IsClassName vocabulary) :
    callee.Over vocabulary :=
  named.induction (fun _ known => known) fun _ _ _ known targetOver => ⟨targetOver, known⟩

end Lemmas

/-! ## Trees over two vocabularies -/

section Meet

variable {left right : Vocabulary}

/-- Names of two vocabularies belong to what they share. -/
theorem Vocabulary.Names.meet
    {names : List Identifier}
    (first : left.Names names)
    (second : right.Names names) :
    (left.meet right).Names names :=
  fun name member => ⟨first name member, second name member⟩

theorem Expression.IsClassName.meet
    {callee : Expression}
    (named : callee.IsClassName left) :
    callee.IsClassName right → callee.IsClassName (left.meet right) :=
  named.induction (fun _ first second => ⟨first, second⟩)
    fun _ _ _ first target second => ⟨target second.1, ⟨first, second.2.1⟩, rfl⟩

mutual

/-- An expression over two vocabularies is over what they share. -/
theorem Expression.Over.meet :
    ∀ {value : Expression}, value.Over left → value.Over right → value.Over (left.meet right)
  | .bool _ _, _, _ => trivial
  | .number _ _ _, first, second => ⟨first, second⟩
  | .string _ _, _, _ => trivial
  | .array _ _, first, second => Expression.AllOver.meet first second
  | .identifier _, first, second => ⟨first, second⟩
  | .invocation _ _ _, ⟨firstCallee, first⟩, ⟨secondCallee, second⟩ =>
      ⟨Expression.Over.meet firstCallee secondCallee, Expression.AllOver.meet first second⟩
  | .member _ _ _, ⟨firstTarget, first⟩, ⟨secondTarget, second⟩ =>
      ⟨Expression.Over.meet firstTarget secondTarget, ⟨first, second⟩⟩
  | .index _ _ _, ⟨firstTarget, first⟩, ⟨secondTarget, second⟩ =>
      ⟨Expression.Over.meet firstTarget secondTarget, Expression.Over.meet first second⟩
  | .binary _ _ _, ⟨firstOperator, firstLeft, firstRight⟩,
      ⟨secondOperator, secondLeft, secondRight⟩ =>
      ⟨⟨firstOperator, secondOperator⟩, Expression.Over.meet firstLeft secondLeft,
        Expression.Over.meet firstRight secondRight⟩
  | .closure _ _ _, ⟨firstNames, first⟩, ⟨secondNames, second⟩ =>
      ⟨firstNames.meet secondNames, Block.Over.meet first second⟩
  | .construction _ _ _, ⟨firstCallee, first⟩, ⟨secondCallee, second⟩ =>
      ⟨firstCallee.meet secondCallee, Expression.AllOver.meet first second⟩
  | .rawCode _ _, first, second => ⟨first, second⟩

theorem Expression.AllOver.meet :
    ∀ {values : List Expression}, Expression.AllOver left values →
      Expression.AllOver right values → Expression.AllOver (left.meet right) values
  | [], _, _ => trivial
  | _ :: _, ⟨firstHead, firstTail⟩, ⟨secondHead, secondTail⟩ =>
      ⟨Expression.Over.meet firstHead secondHead, Expression.AllOver.meet firstTail secondTail⟩

/-- A block over two vocabularies is over what they share. -/
theorem Block.Over.meet :
    ∀ {block : Block}, block.Over left → block.Over right → block.Over (left.meet right)
  | .of _ _, first, second => Statement.AllOver.meet first second

/-- A statement over two vocabularies is over what they share. -/
theorem Statement.Over.meet :
    ∀ {node : Statement}, node.Over left → node.Over right → node.Over (left.meet right)
  | .returned _ _, first, second => Expression.Over.meet first second
  | .declared _ _ _, ⟨firstName, first⟩, ⟨secondName, second⟩ =>
      ⟨⟨firstName, secondName⟩, Expression.Over.meet first second⟩
  | .assigned _ _, ⟨firstTarget, first⟩, ⟨secondTarget, second⟩ =>
      ⟨Expression.Over.meet firstTarget secondTarget, Expression.Over.meet first second⟩
  | .evaluated _, first, second => Expression.Over.meet first second
  | .conditional _ _ _ _, ⟨firstTest, firstBranch, firstOther⟩,
      ⟨secondTest, secondBranch, secondOther⟩ => by
      refine ⟨Expression.Over.meet firstTest secondTest, Block.Over.meet firstBranch secondBranch,
        ?_⟩
      rcases firstOther with isMissing | firstOther
      · exact .inl isMissing
      rcases secondOther with isMissing | secondOther
      · exact .inl isMissing
      · exact .inr (Block.Over.meet firstOther secondOther)
  | .whileLoop _ _ _, ⟨firstTest, first⟩, ⟨secondTest, second⟩ =>
      ⟨Expression.Over.meet firstTest secondTest, Block.Over.meet first second⟩
  | .forLoop _ _ _ _ _, ⟨firstInitial, firstTest, firstIncrement, firstBody⟩,
      ⟨secondInitial, secondTest, secondIncrement, secondBody⟩ => by
      refine ⟨?_, ?_, ?_, Block.Over.meet firstBody secondBody⟩
      · rcases firstInitial with isMissing | ⟨isClause, firstInitial⟩
        · exact .inl isMissing
        rcases secondInitial with isMissing | ⟨-, secondInitial⟩
        · exact .inl isMissing
        · exact .inr ⟨isClause, Statement.Over.meet firstInitial secondInitial⟩
      · rcases firstTest with isMissing | firstTest
        · exact .inl isMissing
        rcases secondTest with isMissing | secondTest
        · exact .inl isMissing
        · exact .inr (Expression.Over.meet firstTest secondTest)
      · rcases firstIncrement with isMissing | ⟨isClause, firstIncrement⟩
        · exact .inl isMissing
        rcases secondIncrement with isMissing | ⟨-, secondIncrement⟩
        · exact .inl isMissing
        · exact .inr ⟨isClause, Statement.Over.meet firstIncrement secondIncrement⟩

theorem Statement.AllOver.meet :
    ∀ {nodes : List Statement}, Statement.AllOver left nodes → Statement.AllOver right nodes →
      Statement.AllOver (left.meet right) nodes
  | [], _, _ => trivial
  | _ :: _, ⟨firstHead, firstTail⟩, ⟨secondHead, secondTail⟩ =>
      ⟨Statement.Over.meet firstHead secondHead, Statement.AllOver.meet firstTail secondTail⟩

end

/-- A declaration over two vocabularies is over what they share. -/
theorem Declaration.Over.meet :
    ∀ {declaration : Declaration}, declaration.Over left → declaration.Over right →
      declaration.Over (left.meet right)
  | .imported _ _ _ _, ⟨first, firstAlias⟩, ⟨second, secondAlias⟩ =>
      ⟨⟨first, second⟩, fun name member => ⟨firstAlias name member, secondAlias name member⟩⟩
  | .classType _ _ _ _, ⟨first, firstConstructor, firstMethods⟩,
      ⟨second, secondConstructor, secondMethods⟩ => by
      refine ⟨⟨first, second⟩, fun node member => ?_, fun node member => ?_⟩
      · obtain ⟨firstNames, firstBody⟩ := firstConstructor node member
        obtain ⟨secondNames, secondBody⟩ := secondConstructor node member
        exact ⟨firstNames.meet secondNames, Block.Over.meet firstBody secondBody⟩
      · obtain ⟨firstName, firstNames, firstBody⟩ := firstMethods node member
        obtain ⟨secondName, secondNames, secondBody⟩ := secondMethods node member
        exact ⟨⟨firstName, secondName⟩, firstNames.meet secondNames,
          Block.Over.meet firstBody secondBody⟩
  | .function _ _ _ _, ⟨first, firstNames, firstBody⟩, ⟨second, secondNames, secondBody⟩ =>
      ⟨⟨first, second⟩, firstNames.meet secondNames, Block.Over.meet firstBody secondBody⟩
  | .typeName _ _ _, first, second => ⟨first, second⟩
  | .constant _ _ _, ⟨first, firstValue⟩, ⟨second, secondValue⟩ =>
      ⟨⟨first, second⟩, Expression.Over.meet firstValue secondValue⟩
  | .statement _, ⟨noReturn, first⟩, ⟨_, second⟩ => ⟨noReturn, Statement.Over.meet first second⟩

/-- A program over two vocabularies is over what they share. -/
theorem Program.Over.meet
    {program : Program}
    (first : program.Over left)
    (second : program.Over right) :
    program.Over (left.meet right) :=
  fun declaration member =>
    Declaration.Over.meet (first declaration member) (second declaration member)

end Meet

end FrenchNim
