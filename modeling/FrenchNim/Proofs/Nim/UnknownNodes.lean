import FrenchNim.Proofs.Emission

namespace FrenchNim

/-!
# Programs with unknown nodes

Emission and walking go through a tree on their own. If nothing is missing in
the tree, emission fails exactly if a walk comes to an unknown node, and it fails
at such a node. Only the arguments of calls that pass none are walked in vain, so
such calls are not entered.
-/

namespace Element

/-- The element is a node of a kind that nothing knows how to treat. -/
def isUnknown : Element → Bool
  | statement (.unknown _ _) => true
  | expression (.unknown _ _) => true
  | _ => false

/-- The element is no call that drops its arguments. -/
def isEntered : Element → Bool
  | expression (.invocation callee _ _) => !Nim.ignoresArguments callee
  | _ => true

/-- No statement and no expression is missing where the element needs one. -/
def isWhole : Element → Bool
  | program node =>
      node.declarations.all fun
        | .statement body => body.isPresent
        | _ => true
  | declaration (.constant _ value _) => value.isPresent
  | block node => node.statements.all (·.isPresent)
  | statement (.returned value _) => value.isPresent
  | statement (.declared _ value _) => value.isPresent
  | statement (.assigned target value) => target.isPresent && value.isPresent
  | statement (.evaluated value) => value.isPresent
  | statement (.conditional test _ _ _) => test.isPresent
  | statement (.whileLoop test _ _) => test.isPresent
  | expression (.array values _) => values.all (·.isPresent)
  | expression (.invocation callee arguments _) =>
      callee.isPresent && arguments.all (·.isPresent)
  | expression (.member target _ _) => target.isPresent
  | expression (.index target position _) => target.isPresent && position.isPresent
  | expression (.binary _ left right) => left.isPresent && right.isPresent
  | expression (.construction callee arguments _) =>
      callee.isPresent && arguments.all (·.isPresent)
  | _ => true

/--
A walk that lists the given elements comes to an element. Below a call that drops
its arguments only the callee is walked.
-/
inductive Reached (listed : List Element) : Element → Prop where
  | listed {element : Element} (member : element ∈ listed) : Reached listed element
  | callee {callee : Expression} {arguments : List Expression} {last : Position}
      {element : Element}
      (call : Reached listed (.expression (.invocation callee arguments last)))
      (drops : Nim.ignoresArguments callee = true)
      (member : element ∈ callee.walk isEntered) : Reached listed element

namespace Reached

variable {first second : List Element} {node element : Element}

/-- A walk that lists more comes to more. -/
theorem mono
    (reached : Reached first element)
    (within : ∀ other ∈ first, other ∈ second) :
    Reached second element := by
  induction reached with
  | listed member => exact .listed (within _ member)
  | callee _ drops member inductionHypothesis => exact .callee inductionHypothesis drops member

/-- A walk that lists nothing comes to nothing. -/
theorem of_nil (reached : Reached [] element) : False := by
  induction reached with
  | listed member => cases member
  | callee _ _ _ inductionHypothesis => exact inductionHypothesis

/-- A walk of two parts comes to what one of them comes to. -/
theorem of_append (reached : Reached (first ++ second) element) :
    Reached first element ∨ Reached second element := by
  induction reached with
  | listed member => exact (List.mem_append.mp member).imp .listed .listed
  | callee _ drops member inductionHypothesis =>
      exact inductionHypothesis.imp (.callee · drops member) (.callee · drops member)

/-- What stands in front of a walk adds nothing else to it. -/
theorem of_cons
    (entered : node.isEntered = true)
    (reached : Reached (node :: first) element) :
    element = node ∨ Reached first element := by
  induction reached with
  | listed member => exact (List.mem_cons.mp member).imp_right .listed
  | callee _ drops member inductionHypothesis =>
      rcases inductionHypothesis with rfl | later
      · simp [isEntered, drops] at entered
      · exact .inr (.callee later drops member)

section Call

variable {callee : Expression} {arguments : List Expression} {last : Position}

/-- Below a call, a walk comes to what it comes to in the callee. -/
theorem of_call
    (reached : Reached [.expression (.invocation callee arguments last)] element) :
    element = .expression (.invocation callee arguments last) ∨
      Reached (callee.walk isEntered) element := by
  induction reached with
  | listed member => exact .inl (List.mem_singleton.mp member)
  | callee _ drops member inductionHypothesis =>
      rcases inductionHypothesis with same | later
      · cases same
        exact .inr (.listed member)
      · exact .inr (.callee later drops member)

/-- What a walk comes to in the callee, it comes to below a call that drops its arguments. -/
theorem call
    (drops : Nim.ignoresArguments callee = true)
    (reached : Reached (callee.walk isEntered) element) :
    Reached [.expression (.invocation callee arguments last)] element := by
  induction reached with
  | listed member => exact .callee (.listed List.mem_cons_self) drops member
  | callee _ drops member inductionHypothesis => exact .callee inductionHypothesis drops member

end Call

end Reached

end Element

/-- Nothing is missing below the elements of a walk. -/
def AllWhole (elements : List Element) : Prop :=
  ∀ element ∈ elements, element.isWhole = true

/-- Nothing is missing in a program. -/
def Program.IsWhole (program : Program) : Prop :=
  AllWhole (program.walk fun _ => true)

namespace Nim

open Element (Reached isEntered)

/-- The work fails exactly if a walk comes to an unknown node, and then at one of these nodes. -/
def Rejects {α : Type} (walked : List Element) : Except UnsupportedNode α → Prop
  | .ok _ => ∀ element, Reached walked element → element.isUnknown = false
  | .error node => ∃ element, Reached walked element ∧ element.isUnknown = true ∧
      node = ⟨element.kind, element.span⟩

namespace Rejects

variable {α β : Type} {walked later : List Element} {work : Except UnsupportedNode α}
  {next : α → Except UnsupportedNode β}

/-- Without elements nothing is rejected. -/
theorem nothing (value : α) : Rejects [] (.ok value) :=
  fun _ reached => reached.of_nil.elim

/-- Only which elements are walked matters, not their order. -/
theorem congr
    (rejects : Rejects walked work)
    (same : ∀ element, element ∈ walked ↔ element ∈ later) :
    Rejects later work := by
  cases work with
  | ok value =>
      exact fun element reached =>
        rejects element (reached.mono fun other => (same other).mpr)
  | error node =>
      obtain ⟨element, reached, unknown⟩ := rejects
      exact ⟨element, reached.mono fun other => (same other).mp, unknown⟩

/-- Work behind other work walks behind it. -/
theorem bind
    (rejects : Rejects walked work)
    (rejectsNext : ∀ value, Rejects later (next value)) :
    Rejects (walked ++ later) (work >>= next) := by
  cases work with
  | error node =>
      obtain ⟨element, reached, unknown⟩ := rejects
      exact ⟨element, reached.mono fun _ => List.mem_append_left _, unknown⟩
  | ok value =>
      have continued := rejectsNext value
      change Rejects (walked ++ later) (next value)
      cases outcome : next value with
      | error node =>
          rw [outcome] at continued
          obtain ⟨element, reached, unknown⟩ := continued
          exact ⟨element, reached.mono fun _ => List.mem_append_right _, unknown⟩
      | ok result =>
          rw [outcome] at continued
          intro element reached
          rcases reached.of_append with here | there
          · exact rejects element here
          · exact continued element there

/-- What is made of the result of work does not matter. -/
theorem made
    (rejects : Rejects walked work)
    (made : ∀ value, ∃ result, next value = .ok result) :
    Rejects walked (work >>= next) := by
  have whole : Rejects (walked ++ []) (work >>= next) := by
    refine rejects.bind fun value => ?_
    obtain ⟨result, same⟩ := made value
    rw [same]
    exact nothing result
  rwa [List.append_nil] at whole

/-- A known element that is entered rejects what is rejected below it. -/
theorem below
    {node : Element}
    (rejects : Rejects walked work)
    (known : node.isUnknown = false)
    (entered : node.isEntered = true) :
    Rejects (node :: if isEntered node then walked else []) work := by
  rw [if_pos entered]
  cases work with
  | ok value =>
      intro element reached
      rcases reached.of_cons entered with rfl | inside
      · exact known
      · exact rejects element inside
  | error node =>
      obtain ⟨element, reached, unknown⟩ := rejects
      exact ⟨element, reached.mono fun _ => List.mem_cons_of_mem _, unknown⟩

/-- A known element with nothing below it. -/
theorem leaf
    {node : Element}
    (value : α)
    (known : node.isUnknown = false)
    (entered : node.isEntered = true) :
    Rejects [node] (.ok value) := by
  have rejects := (nothing value).below known entered
  rwa [if_pos entered] at rejects

/-- An unknown node is rejected where it stands. -/
theorem unknownNode
    {node : Element}
    (unknown : node.isUnknown = true) :
    Rejects [node] (.error ⟨node.kind, node.span⟩ : Except UnsupportedNode α) :=
  ⟨node, .listed List.mem_cons_self, unknown, rfl⟩

/-- A call that drops its arguments rejects what its callee rejects. -/
theorem call
    {callee : Expression}
    {arguments : List Expression}
    {last : Position}
    (rejects : Rejects (callee.walk isEntered) work)
    (drops : ignoresArguments callee = true) :
    Rejects [.expression (.invocation callee arguments last)] work := by
  cases work with
  | ok value =>
      intro element reached
      rcases reached.of_call with rfl | inside
      · rfl
      · exact rejects element inside
  | error node =>
      obtain ⟨element, reached, unknown⟩ := rejects
      exact ⟨element, reached.call drops, unknown⟩

end Rejects

/-- A clause of a loop, which may be left out. -/
theorem emitClause_rejects
    {place : Place}
    {clause : Statement}
    (rejects : clause.isPresent = true →
      Rejects (clause.walk isEntered) (emitStatement place clause)) :
    Rejects (clause.walk isEntered) (emitClause place clause) := by
  cases clause with
  | missing =>
      rw [Statement.walk]
      exact Rejects.nothing _
  | _ => exact rejects rfl

/-- The test of a loop, which may be left out. -/
theorem emitTest_rejects
    {place : Place}
    {test : Expression}
    (rejects : test.isPresent = true → Rejects (test.walk isEntered) (emitExpression place test)) :
    Rejects (test.walk isEntered) (emitTest place test) := by
  cases test with
  | missing =>
      rw [Expression.walk]
      exact Rejects.nothing _
  | _ => exact rejects rfl

mutual

/-- Emitting an expression fails exactly if walking it comes to an unknown node. -/
theorem emitExpression_rejects
    (place : Place) :
    ∀ {value : Expression}, value.isPresent = true → AllWhole (value.walk fun _ => true) →
      Rejects (value.walk isEntered) (emitExpression place value)
  | .bool _ _, _, _ => by
      rw [emitExpression, Expression.walk]
      exact .leaf _ rfl rfl
  | .number _ _ _, _, _ => by
      rw [emitExpression, Expression.walk]
      exact .leaf _ rfl rfl
  | .string _ _, _, _ => by
      rw [emitExpression, Expression.walk]
      exact .leaf _ rfl rfl
  | .identifier _, _, _ => by
      rw [emitExpression, Expression.walk]
      exact .leaf _ rfl rfl
  | .rawCode _ _, _, _ => by
      rw [emitExpression, Expression.walk]
      exact .leaf _ rfl rfl
  | .unknown _ _, _, _ => by
      rw [emitExpression, Expression.walk]
      exact .unknownNode rfl
  | .array [] _, _, _ => by
      rw [emitExpression, Expression.walk, Expression.walkAll]
      exact (Rejects.nothing _).below rfl rfl
  | .array (first :: rest) _, _, whole => by
      simp only [Expression.walk, Expression.walkAll, if_true, AllWhole, List.forall_mem_cons,
        List.forall_mem_append, Element.isWhole, List.all_cons, Bool.and_eq_true] at whole
      obtain ⟨⟨present, presentRest⟩, wholeFirst, wholeRest⟩ := whole
      rw [emitExpression, Expression.walk, Expression.walkAll]
      refine Rejects.below ?_ rfl rfl
      refine (emitExpression_rejects place present wholeFirst).bind fun _ => ?_
      exact (emitExpressions_rejects place presentRest wholeRest).made fun _ => ⟨_, rfl⟩
  | .invocation callee arguments _, _, whole => by
      simp only [Expression.walk, if_true, AllWhole, List.forall_mem_cons,
        List.forall_mem_append, Element.isWhole, Bool.and_eq_true] at whole
      obtain ⟨⟨present, presentArguments⟩, wholeCallee, wholeArguments⟩ := whole
      have rejects := emitExpression_rejects place present wholeCallee
      rw [emitExpression_invocation, Expression.walk]
      -- A call that drops its arguments is not entered, but its callee is walked.
      by_cases drops : ignoresArguments callee = true
      · simp only [drops, if_true]
        rw [if_neg (by simp [isEntered, drops])]
        exact (rejects.made fun _ => ⟨_, rfl⟩).call drops
      · simp only [drops]
        refine Rejects.below ?_ rfl (by simpa [isEntered] using drops)
        refine rejects.bind fun _ => ?_
        exact (emitExpressions_rejects place presentArguments wholeArguments).made
          fun _ => ⟨_, rfl⟩
  | .member target _ _, _, whole => by
      simp only [Expression.walk, if_true, AllWhole, List.forall_mem_cons,
        Element.isWhole] at whole
      obtain ⟨present, wholeTarget⟩ := whole
      rw [emitExpression, Expression.walk]
      refine Rejects.below ?_ rfl rfl
      exact (emitExpression_rejects place present wholeTarget).made fun _ => ⟨_, rfl⟩
  | .index target position _, _, whole => by
      simp only [Expression.walk, if_true, AllWhole, List.forall_mem_cons,
        List.forall_mem_append, Element.isWhole, Bool.and_eq_true] at whole
      obtain ⟨⟨present, presentPosition⟩, wholeTarget, wholePosition⟩ := whole
      rw [emitExpression, Expression.walk]
      refine Rejects.below ?_ rfl rfl
      refine (emitExpression_rejects place present wholeTarget).bind fun _ => ?_
      exact (emitExpression_rejects place presentPosition wholePosition).made fun _ => ⟨_, rfl⟩
  | .binary _ left right, _, whole => by
      simp only [Expression.walk, if_true, AllWhole, List.forall_mem_cons,
        List.forall_mem_append, Element.isWhole, Bool.and_eq_true] at whole
      obtain ⟨⟨present, presentRight⟩, wholeLeft, wholeRight⟩ := whole
      rw [emitExpression, Expression.walk]
      refine Rejects.below ?_ rfl rfl
      refine (emitExpression_rejects place present wholeLeft).bind fun _ => ?_
      exact (emitExpression_rejects place presentRight wholeRight).made fun _ => ⟨_, rfl⟩
  | .closure _ body _, _, whole => by
      simp only [Expression.walk, if_true, AllWhole, List.forall_mem_cons] at whole
      rw [emitExpression, Expression.walk]
      refine Rejects.below ?_ rfl rfl
      exact (emitBlock_rejects place.nested whole.2).made fun _ => ⟨_, rfl⟩
  | .construction callee arguments _, _, whole => by
      simp only [Expression.walk, if_true, AllWhole, List.forall_mem_cons,
        List.forall_mem_append, Element.isWhole, Bool.and_eq_true] at whole
      obtain ⟨⟨present, presentArguments⟩, wholeCallee, wholeArguments⟩ := whole
      rw [emitExpression, Expression.walk]
      refine Rejects.below ?_ rfl rfl
      refine (emitExpression_rejects place present wholeCallee).bind fun _ => ?_
      exact (emitExpressions_rejects place presentArguments wholeArguments).made fun _ => ⟨_, rfl⟩

/-- Several expressions are rejected for the unknown nodes in them. -/
theorem emitExpressions_rejects
    (place : Place) :
    ∀ {values : List Expression}, values.all (·.isPresent) = true →
      AllWhole (Expression.walkAll (fun _ => true) values) →
        Rejects (Expression.walkAll isEntered values) (emitExpressions place values)
  | [], _, _ => by
      rw [emitExpressions, Expression.walkAll]
      exact Rejects.nothing _
  | first :: rest, present, whole => by
      rw [List.all_cons, Bool.and_eq_true] at present
      rw [Expression.walkAll] at whole
      obtain ⟨wholeFirst, wholeRest⟩ := List.forall_mem_append.mp whole
      rw [emitExpressions, Expression.walkAll]
      refine (emitExpression_rejects place present.1 wholeFirst).bind fun _ => ?_
      exact (emitExpressions_rejects place present.2 wholeRest).made fun _ => ⟨_, rfl⟩

/-- A block is rejected for the unknown nodes in it. -/
theorem emitBlock_rejects
    (place : Place) :
    ∀ {block : Block}, AllWhole (block.walk fun _ => true) →
      Rejects (block.walk isEntered) (emitBlock place block)
  | .missing, _ => by
      rw [emitBlock, Block.walk]
      exact Rejects.nothing _
  | .of statements _, whole => by
      simp only [Block.walk, if_true, AllWhole, List.forall_mem_cons, Element.isWhole,
        Block.statements] at whole
      rw [emitBlock, Block.walk]
      exact (emitStatements_rejects place whole.1 whole.2).below rfl rfl

/-- Several statements are rejected for the unknown nodes in them. -/
theorem emitStatements_rejects
    (place : Place) :
    ∀ {nodes : List Statement}, nodes.all (·.isPresent) = true →
      AllWhole (Statement.walkAll (fun _ => true) nodes) →
        Rejects (Statement.walkAll isEntered nodes) (emitStatements place nodes)
  | [], _, _ => by
      rw [emitStatements, Statement.walkAll]
      exact Rejects.nothing _
  | first :: rest, present, whole => by
      rw [List.all_cons, Bool.and_eq_true] at present
      rw [Statement.walkAll] at whole
      obtain ⟨wholeFirst, wholeRest⟩ := List.forall_mem_append.mp whole
      rw [emitStatements, Statement.walkAll]
      refine (emitStatement_rejects place present.1 wholeFirst).bind fun _ => ?_
      exact (emitStatements_rejects place present.2 wholeRest).made fun _ => ⟨_, rfl⟩

/-- A statement is rejected for the unknown nodes in it. -/
theorem emitStatement_rejects
    (place : Place) :
    ∀ {node : Statement}, node.isPresent = true → AllWhole (node.walk fun _ => true) →
      Rejects (node.walk isEntered) (emitStatement place node)
  | .unknown _ _, _, _ => by
      rw [emitStatement, Statement.walk]
      exact .unknownNode rfl
  | .returned value _, _, whole => by
      simp only [Statement.walk, if_true, AllWhole, List.forall_mem_cons,
        Element.isWhole] at whole
      rw [emitStatement, Statement.walk]
      refine Rejects.below ?_ rfl rfl
      exact (emitExpression_rejects place whole.1 whole.2).made fun _ => ⟨_, rfl⟩
  | .declared _ value _, _, whole => by
      simp only [Statement.walk, if_true, AllWhole, List.forall_mem_cons,
        Element.isWhole] at whole
      rw [emitStatement, Statement.walk]
      refine Rejects.below ?_ rfl rfl
      exact (emitExpression_rejects place whole.1 whole.2).made fun _ => ⟨_, rfl⟩
  | .assigned target value, _, whole => by
      simp only [Statement.walk, if_true, AllWhole, List.forall_mem_cons,
        List.forall_mem_append, Element.isWhole, Bool.and_eq_true] at whole
      obtain ⟨⟨present, presentValue⟩, wholeTarget, wholeValue⟩ := whole
      rw [emitStatement, Statement.walk]
      refine Rejects.below ?_ rfl rfl
      refine (emitExpression_rejects place present wholeTarget).bind fun _ => ?_
      exact (emitExpression_rejects place presentValue wholeValue).made fun _ => ⟨_, rfl⟩
  | .evaluated value, _, whole => by
      simp only [Statement.walk, if_true, AllWhole, List.forall_mem_cons,
        Element.isWhole] at whole
      rw [emitStatement, Statement.walk]
      refine Rejects.below ?_ rfl rfl
      exact (emitExpression_rejects place whole.1 whole.2).made fun _ => ⟨_, rfl⟩
  | .conditional test consequent alternative _, _, whole => by
      simp only [Statement.walk, if_true, AllWhole, List.forall_mem_cons,
        List.forall_mem_append, Element.isWhole] at whole
      obtain ⟨present, ⟨wholeTest, wholeConsequent⟩, wholeAlternative⟩ := whole
      rw [emitStatement, Statement.walk, List.append_assoc]
      refine Rejects.below ?_ rfl rfl
      refine (emitExpression_rejects place present wholeTest).bind fun _ => ?_
      refine (emitBlock_rejects place.nested wholeConsequent).bind fun _ => ?_
      refine (emitBlock_rejects place.nested wholeAlternative).made fun _ => ?_
      by_cases isShort : alternative.isEmpty = true
      · exact ⟨_, if_pos isShort⟩
      · exact ⟨_, if_neg isShort⟩
  | .whileLoop test body _, _, whole => by
      simp only [Statement.walk, if_true, AllWhole, List.forall_mem_cons,
        List.forall_mem_append, Element.isWhole] at whole
      obtain ⟨present, wholeTest, wholeBody⟩ := whole
      rw [emitStatement, Statement.walk]
      refine Rejects.below ?_ rfl rfl
      refine (emitExpression_rejects place present wholeTest).bind fun _ => ?_
      exact (emitBlock_rejects place.nested wholeBody).made fun _ => ⟨_, rfl⟩
  | .forLoop initial test increment body _, _, whole => by
      simp only [Statement.walk, if_true, AllWhole, List.forall_mem_cons,
        List.forall_mem_append] at whole
      obtain ⟨-, ⟨⟨wholeInitial, wholeTest⟩, wholeIncrement⟩, wholeBody⟩ := whole
      rw [emitStatement_forLoop, Statement.walk]
      refine Rejects.below ?_ rfl rfl
      -- The last clause of the head is emitted behind the body, but walked before it.
      refine @Rejects.congr _ (Statement.walk isEntered initial ++
        (Expression.walk isEntered test ++ (Block.walk isEntered body ++
          Statement.walk isEntered increment))) _ _ ?_ fun element => ?_
      · refine (emitClause_rejects fun present =>
          emitStatement_rejects place present wholeInitial).bind fun _ => ?_
        refine (emitTest_rejects fun present =>
          emitExpression_rejects place present wholeTest).bind fun _ => ?_
        refine (emitBlock_rejects place.nested wholeBody).bind fun _ => ?_
        exact (emitClause_rejects fun present =>
          emitStatement_rejects place.nested present wholeIncrement).made fun _ => ⟨_, rfl⟩
      · simp only [List.mem_append]
        grind

end

/-- A procedure is rejected for the unknown nodes in its body. -/
theorem emitProcedure_rejects
    (name parameters : String)
    {body : Block}
    (whole : AllWhole (body.walk fun _ => true)) :
    Rejects (body.walk isEntered) (emitProcedure name parameters body) := by
  rw [emitProcedure]
  exact (emitBlock_rejects Place.top.nested whole).made fun _ => ⟨_, rfl⟩

/-- A constructor is rejected for the unknown nodes in it, and a missing one is not. -/
theorem emitConstructor_rejects
    (className : String)
    {constructor? : Option Constructor}
    (whole : AllWhole ((constructor?.map (·.walk fun _ => true)).getD [])) :
    Rejects ((constructor?.map (·.walk isEntered)).getD [])
      (emitConstructor className constructor?) := by
  cases constructor? with
  | none =>
      exact (Rejects.nothing _).made fun _ => ⟨_, rfl⟩
  | some node =>
      simp only [Option.map_some, Option.getD_some, Constructor.walk, if_true, AllWhole,
        List.forall_mem_cons] at whole
      exact ((emitBlock_rejects constructorPlace whole.2).made fun _ => ⟨_, rfl⟩).below rfl rfl

/-- Methods are rejected for the unknown nodes in them. -/
theorem emitMethods_rejects
    (className : String)
    {methods : List Method}
    (whole : AllWhole (methods.flatMap (·.walk fun _ => true))) :
    Rejects (methods.flatMap (·.walk isEntered)) (emitMethods className methods) := by
  induction methods with
  | nil =>
      exact Rejects.nothing _
  | cons method rest inductionHypothesis =>
      rw [List.flatMap_cons] at whole
      obtain ⟨wholeFirst, wholeRest⟩ := List.forall_mem_append.mp whole
      simp only [Method.walk, if_true, List.forall_mem_cons] at wholeFirst
      rw [emitMethods, List.flatMap_cons]
      refine ((emitProcedure_rejects _ _ wholeFirst.2).below rfl rfl).bind fun _ => ?_
      exact (inductionHypothesis wholeRest).made fun _ => ⟨_, rfl⟩

/-- Emitting a declaration fails exactly if walking it comes to an unknown node. -/
theorem emitDeclaration_rejects
    {declaration : Declaration}
    (present : declaration ≠ .statement .missing)
    (whole : AllWhole (declaration.walk fun _ => true)) :
    Rejects (declaration.walk isEntered) (emitDeclaration declaration) := by
  cases declaration with
  | imported module alias? path span =>
      exact .leaf _ rfl rfl
  | typeName name external span =>
      exact .leaf _ rfl rfl
  | classType name constructor? methods span =>
      simp only [Declaration.walk, if_true, AllWhole, List.forall_mem_cons,
        List.forall_mem_append] at whole
      obtain ⟨-, wholeConstructor, wholeMethods⟩ := whole
      rw [emitDeclaration, Declaration.walk]
      refine Rejects.below ?_ rfl rfl
      refine (emitConstructor_rejects name.name wholeConstructor).bind fun _ => ?_
      exact (emitMethods_rejects name.name wholeMethods).made fun _ => ⟨_, rfl⟩
  | function name parameters body first =>
      simp only [Declaration.walk, if_true, AllWhole, List.forall_mem_cons] at whole
      rw [emitDeclaration, Declaration.walk]
      exact (emitProcedure_rejects _ _ whole.2).below rfl rfl
  | constant name value first =>
      simp only [Declaration.walk, if_true, AllWhole, List.forall_mem_cons,
        Element.isWhole] at whole
      rw [emitDeclaration, Declaration.walk]
      refine Rejects.below ?_ rfl rfl
      exact (emitExpression_rejects Place.top whole.1 whole.2).made fun _ => ⟨_, rfl⟩
  | statement body =>
      have isThere : body.isPresent = true := by
        cases body with
        | missing => exact (present rfl).elim
        | _ => rfl
      exact emitStatement_rejects Place.top isThere whole

/-- Emitting declarations fails exactly if walking them comes to an unknown node. -/
theorem emitDeclarations_rejects
    {declarations : List Declaration}
    (present : ∀ declaration ∈ declarations, declaration ≠ .statement .missing)
    (whole : AllWhole (declarations.flatMap (·.walk fun _ => true))) :
    Rejects (declarations.flatMap (·.walk isEntered)) (emitDeclarations declarations) := by
  induction declarations with
  | nil =>
      exact Rejects.nothing _
  | cons first rest inductionHypothesis =>
      obtain ⟨presentFirst, presentRest⟩ := List.forall_mem_cons.mp present
      rw [List.flatMap_cons] at whole ⊢
      obtain ⟨wholeFirst, wholeRest⟩ := List.forall_mem_append.mp whole
      have rejects := emitDeclaration_rejects presentFirst wholeFirst
      have rejectsRest := inductionHypothesis presentRest wholeRest
      rw [emitDeclarations]
      by_cases isImport : first.isImport = true
      · -- An import has no code of its own, and emitting it alone cannot fail.
        cases first with
        | imported => exact rejects.bind fun _ => rejectsRest
        | _ => cases isImport
      · rw [if_neg isImport]
        refine rejects.bind fun code => rejectsRest.made fun others => ?_
        by_cases blank : trimText code = ""
        · exact ⟨_, if_pos blank⟩
        · exact ⟨_, if_neg blank⟩

/-- Generating a module fails exactly if walking the program comes to an unknown node. -/
theorem generate_rejects
    (library : String)
    {program : Program}
    (whole : program.IsWhole) :
    Rejects (program.walk isEntered) (generate library program) := by
  simp only [Program.IsWhole, Program.walk, if_true, AllWhole, List.forall_mem_cons,
    Element.isWhole, List.all_eq_true] at whole
  obtain ⟨present, wholeAll⟩ := whole
  have isThere : ∀ declaration ∈ program.declarations, declaration ≠ .statement .missing := by
    rintro _ member rfl
    cases present _ member
  rw [generate, Program.walk]
  exact ((emitDeclarations_rejects isThere wholeAll).made fun _ => ⟨_, rfl⟩).below rfl rfl

end Nim

/--
A program in which nothing is missing has no Nim module exactly if a walk comes
to an unknown node.

The walk does not enter calls that drop their arguments, and below them only what
is called is walked. The failure names the kind and the range of an unknown node
that the walk comes to.
-/
theorem generate_fails_iff
    (library : String)
    {program : Program}
    (whole : program.IsWhole) :
    ((∃ node, generate library program = .error node) ↔
      ∃ element, Element.Reached (program.walk Element.isEntered) element ∧
        element.isUnknown = true) ∧
    ∀ node, generate library program = .error node →
      ∃ element, Element.Reached (program.walk Element.isEntered) element ∧
        element.isUnknown = true ∧ node = ⟨element.kind, element.span⟩ := by
  have rejects := Nim.generate_rejects library whole
  cases outcome : generate library program with
  | ok nim =>
      rw [outcome] at rejects
      refine ⟨iff_of_false nofun ?_, nofun⟩
      rintro ⟨element, reached, unknown⟩
      rw [rejects element reached] at unknown
      cases unknown
  | error node =>
      rw [outcome] at rejects
      obtain ⟨element, reached, unknown, isNode⟩ := rejects
      refine ⟨iff_of_true ⟨node, rfl⟩ ⟨element, reached, unknown⟩, fun other same => ?_⟩
      cases same
      exact ⟨element, reached, unknown, isNode⟩

/-- A call that drops an unknown argument, and a function that returns an unknown value. -/
def patchedProgram : Program :=
  let callee := Expression.member (.identifier ⟨"chat", .zero⟩) ⟨"parler", .zero⟩ false
  let dropped := Expression.unknown ⟨40⟩ .zero
  let returned := Expression.unknown ⟨41⟩ ⟨⟨7, 2, 4⟩, ⟨9, 2, 6⟩⟩
  ⟨[.statement (.evaluated (.invocation callee [dropped] .zero)),
    .function ⟨"f", .zero⟩ [] (.of [.returned returned .zero] .zero) .zero]⟩

/-- The function fails at the value that it returns, not at the argument that is dropped. -/
theorem generate_fails_iff_patchedProgram :
    patchedProgram.IsWhole ∧
      generate standardLibrary patchedProgram = .error ⟨⟨41⟩, ⟨⟨7, 2, 4⟩, ⟨9, 2, 6⟩⟩⟩ ∧
      ∃ element, Element.Reached (patchedProgram.walk Element.isEntered) element ∧
        element.isUnknown = true ∧ element.kind = ⟨41⟩ := by
  have whole : patchedProgram.IsWhole := by
    unfold Program.IsWhole AllWhole
    decide
  have failed : generate standardLibrary patchedProgram =
      .error ⟨⟨41⟩, ⟨⟨7, 2, 4⟩, ⟨9, 2, 6⟩⟩⟩ := by
    rfl
  obtain ⟨element, reached, unknown, isNode⟩ :=
    (generate_fails_iff standardLibrary whole).2 _ failed
  exact ⟨whole, failed, element, reached, unknown, (UnsupportedNode.mk.inj isNode).1.symm⟩

end FrenchNim
