import FrenchNim.Proofs.Syntax.Shape
import FrenchNim.Proofs.Syntax.Vocabulary
import FrenchNim.Syntax.Element

namespace FrenchNim

/-!
# Statements that a walk visits

What holds of a whole tree holds of every statement that walking the tree visits,
however deep it stands in closures, branches and loops.
-/

section Walk

variable {vocabulary : Vocabulary} {holds : Expression → Prop} {node : Statement}

/-- No statement stands in the name of a class. -/
theorem Expression.IsClassName.statement_not_mem_walk
    {callee : Expression}
    (named : callee.IsClassName vocabulary) :
    .statement node ∉ callee.walk fun _ => true := by
  refine named.induction (fun name _ => ?_) fun target name _ _ notInTarget => ?_
  · simp [Expression.walk]
  · simpa [Expression.walk] using notInTarget

mutual

/-- A statement that the walk of an expression visits has what the expression has. -/
theorem Expression.statement_of_walk :
    ∀ {value : Expression}, value.Over vocabulary → value.Everywhere holds →
      .statement node ∈ value.walk (fun _ => true) →
        node.Over vocabulary ∧ node.Everywhere holds
  | .bool _ _, _, _, found => by simp [Expression.walk] at found
  | .number _ _ _, _, _, found => by simp [Expression.walk] at found
  | .string _ _, _, _, found => by simp [Expression.walk] at found
  | .identifier _, _, _, found => by simp [Expression.walk] at found
  | .rawCode _ _, _, _, found => by simp [Expression.walk] at found
  | .array values _, isOver, ⟨_, everywhere⟩, found => by
      simp only [Expression.walk, if_true, List.mem_cons, reduceCtorEq, false_or] at found
      exact Expression.statement_of_walkAll isOver everywhere found
  | .invocation callee arguments _, ⟨calleeOver, argumentsOver⟩,
      ⟨_, calleeEverywhere, everywhere⟩, found => by
      simp only [Expression.walk, if_true, List.mem_cons, List.mem_append, reduceCtorEq,
        false_or] at found
      rcases found with inCallee | inArguments
      · exact Expression.statement_of_walk calleeOver calleeEverywhere inCallee
      · exact Expression.statement_of_walkAll argumentsOver everywhere inArguments
  | .member target _ _, ⟨targetOver, _⟩, ⟨_, everywhere⟩, found => by
      simp only [Expression.walk, if_true, List.mem_cons, reduceCtorEq, false_or] at found
      exact Expression.statement_of_walk targetOver everywhere found
  | .index target position _, ⟨targetOver, positionOver⟩,
      ⟨_, targetEverywhere, everywhere⟩, found => by
      simp only [Expression.walk, if_true, List.mem_cons, List.mem_append, reduceCtorEq,
        false_or] at found
      rcases found with inTarget | inPosition
      · exact Expression.statement_of_walk targetOver targetEverywhere inTarget
      · exact Expression.statement_of_walk positionOver everywhere inPosition
  | .binary _ left right, ⟨_, leftOver, rightOver⟩,
      ⟨_, leftEverywhere, rightEverywhere⟩, found => by
      simp only [Expression.walk, if_true, List.mem_cons, List.mem_append, reduceCtorEq,
        false_or] at found
      rcases found with inLeft | inRight
      · exact Expression.statement_of_walk leftOver leftEverywhere inLeft
      · exact Expression.statement_of_walk rightOver rightEverywhere inRight
  | .closure _ body _, ⟨_, bodyOver⟩, ⟨_, everywhere⟩, found => by
      simp only [Expression.walk, if_true, List.mem_cons, reduceCtorEq, false_or] at found
      exact Block.statement_of_walk bodyOver everywhere found
  | .construction callee arguments _, ⟨named, argumentsOver⟩, ⟨_, everywhere⟩, found => by
      simp only [Expression.walk, if_true, List.mem_cons, List.mem_append, reduceCtorEq,
        false_or] at found
      rcases found with inCallee | inArguments
      · exact (named.statement_not_mem_walk inCallee).elim
      · exact Expression.statement_of_walkAll argumentsOver everywhere inArguments

theorem Expression.statement_of_walkAll :
    ∀ {values : List Expression}, Expression.AllOver vocabulary values →
      Expression.AllEverywhere holds values →
        .statement node ∈ Expression.walkAll (fun _ => true) values →
          node.Over vocabulary ∧ node.Everywhere holds
  | [], _, _, found => by cases found
  | first :: rest, ⟨firstOver, restOver⟩, ⟨firstEverywhere, restEverywhere⟩, found => by
      rw [Expression.walkAll] at found
      rcases List.mem_append.mp found with inFirst | inRest
      · exact Expression.statement_of_walk firstOver firstEverywhere inFirst
      · exact Expression.statement_of_walkAll restOver restEverywhere inRest

/-- A statement that the walk of a block visits has what the block has. -/
theorem Block.statement_of_walk :
    ∀ {block : Block}, block.Over vocabulary → block.Everywhere holds →
      .statement node ∈ block.walk (fun _ => true) →
        node.Over vocabulary ∧ node.Everywhere holds
  | .of statements _, isOver, everywhere, found => by
      simp only [Block.walk, if_true, List.mem_cons, reduceCtorEq, false_or] at found
      exact Statement.statement_of_walkAll isOver everywhere found

/-- A statement that the walk of another one visits has what the other one has. -/
theorem Statement.statement_of_walk :
    ∀ {other : Statement}, other.Over vocabulary → other.Everywhere holds →
      .statement node ∈ other.walk (fun _ => true) →
        node.Over vocabulary ∧ node.Everywhere holds
  | .returned value first, isOver, everywhere, found => by
      simp only [Statement.walk, if_true, List.mem_cons] at found
      rcases found with same | inValue
      · cases same
        exact ⟨isOver, everywhere⟩
      · exact Expression.statement_of_walk isOver everywhere inValue
  | .declared name value first, isOver, everywhere, found => by
      simp only [Statement.walk, if_true, List.mem_cons] at found
      rcases found with same | inValue
      · cases same
        exact ⟨isOver, everywhere⟩
      · exact Expression.statement_of_walk isOver.2 everywhere inValue
  | .assigned target value, isOver, everywhere, found => by
      simp only [Statement.walk, if_true, List.mem_cons, List.mem_append] at found
      rcases found with same | inTarget | inValue
      · cases same
        exact ⟨isOver, everywhere⟩
      · exact Expression.statement_of_walk isOver.1 everywhere.1 inTarget
      · exact Expression.statement_of_walk isOver.2 everywhere.2 inValue
  | .evaluated value, isOver, everywhere, found => by
      simp only [Statement.walk, if_true, List.mem_cons] at found
      rcases found with same | inValue
      · cases same
        exact ⟨isOver, everywhere⟩
      · exact Expression.statement_of_walk isOver everywhere inValue
  | .conditional test consequent alternative first, isOver, everywhere, found => by
      simp only [Statement.walk, if_true, List.mem_cons, List.mem_append] at found
      rcases found with same | (inTest | inConsequent) | inAlternative
      · cases same
        exact ⟨isOver, everywhere⟩
      · exact Expression.statement_of_walk isOver.1 everywhere.1 inTest
      · exact Block.statement_of_walk isOver.2.1 everywhere.2.1 inConsequent
      · rcases isOver.2.2 with rfl | alternativeOver
        · cases inAlternative
        · exact Block.statement_of_walk alternativeOver everywhere.2.2 inAlternative
  | .whileLoop test body first, isOver, everywhere, found => by
      simp only [Statement.walk, if_true, List.mem_cons, List.mem_append] at found
      rcases found with same | inTest | inBody
      · cases same
        exact ⟨isOver, everywhere⟩
      · exact Expression.statement_of_walk isOver.1 everywhere.1 inTest
      · exact Block.statement_of_walk isOver.2 everywhere.2 inBody
  | .forLoop initial test increment body first, isOver, everywhere, found => by
      simp only [Statement.walk, if_true, List.mem_cons, List.mem_append] at found
      rcases found with same | ((inInitial | inTest) | inIncrement) | inBody
      · cases same
        exact ⟨isOver, everywhere⟩
      · rcases isOver.1 with rfl | ⟨-, initialOver⟩
        · cases inInitial
        · exact Statement.statement_of_walk initialOver everywhere.1 inInitial
      · rcases isOver.2.1 with rfl | testOver
        · cases inTest
        · exact Expression.statement_of_walk testOver everywhere.2.1 inTest
      · rcases isOver.2.2.1 with rfl | ⟨-, incrementOver⟩
        · cases inIncrement
        · exact Statement.statement_of_walk incrementOver everywhere.2.2.1 inIncrement
      · exact Block.statement_of_walk isOver.2.2.2 everywhere.2.2.2 inBody

theorem Statement.statement_of_walkAll :
    ∀ {nodes : List Statement}, Statement.AllOver vocabulary nodes →
      Statement.AllEverywhere holds nodes →
        .statement node ∈ Statement.walkAll (fun _ => true) nodes →
          node.Over vocabulary ∧ node.Everywhere holds
  | [], _, _, found => by cases found
  | first :: rest, ⟨firstOver, restOver⟩, ⟨firstEverywhere, restEverywhere⟩, found => by
      rw [Statement.walkAll] at found
      rcases List.mem_append.mp found with inFirst | inRest
      · exact Statement.statement_of_walk firstOver firstEverywhere inFirst
      · exact Statement.statement_of_walkAll restOver restEverywhere inRest

end

/-- A statement that the walk of a declaration visits has what the declaration has. -/
theorem Declaration.statement_of_walk
    {declaration : Declaration}
    (isOver : declaration.Over vocabulary)
    (everywhere : declaration.Everywhere holds)
    (found : .statement node ∈ declaration.walk fun _ => true) :
    node.Over vocabulary ∧ node.Everywhere holds := by
  cases declaration with
  | imported | typeName =>
      simp [Declaration.walk] at found
  | classType name constructor? methods span =>
      simp only [Declaration.walk, if_true, List.mem_cons, reduceCtorEq, false_or,
        List.mem_append, List.mem_flatMap] at found
      rcases found with inConstructor | ⟨method, member, inMethod⟩
      · cases constructor? with
        | none => cases inConstructor
        | some first =>
            simp only [Option.map_some, Option.getD_some, Constructor.walk, if_true,
              List.mem_cons, reduceCtorEq, false_or] at inConstructor
            exact Block.statement_of_walk (isOver.2.1 first rfl).2 (everywhere.1 first rfl)
              inConstructor
      · simp only [Method.walk, if_true, List.mem_cons, reduceCtorEq, false_or] at inMethod
        exact Block.statement_of_walk (isOver.2.2 method member).2.2 (everywhere.2 method member)
          inMethod
  | function name parameters body first =>
      simp only [Declaration.walk, if_true, List.mem_cons, reduceCtorEq, false_or] at found
      exact Block.statement_of_walk isOver.2.2 everywhere found
  | constant name value first =>
      simp only [Declaration.walk, if_true, List.mem_cons, reduceCtorEq, false_or] at found
      exact Expression.statement_of_walk isOver.2 everywhere found
  | statement body =>
      exact Statement.statement_of_walk isOver.2 everywhere found

/-- Every statement that walking a program visits has the properties of the program. -/
theorem Program.statement_of_walk
    {program : Program}
    (isOver : program.Over vocabulary)
    (everywhere : program.Everywhere holds)
    (found : .statement node ∈ program.walk fun _ => true) :
    node.Over vocabulary ∧ node.Everywhere holds := by
  simp only [Program.walk, if_true, List.mem_cons, reduceCtorEq, false_or, List.mem_flatMap]
    at found
  obtain ⟨declaration, member, inDeclaration⟩ := found
  exact Declaration.statement_of_walk (isOver declaration member) (everywhere declaration member)
    inDeclaration

end Walk

end FrenchNim
