import Mathlib
import FrenchNim.Proofs.Grammar.Continuation
import FrenchNim.Proofs.Grammar.Standing
import FrenchNim.Syntax.Element

namespace FrenchNim

/-!
# The tokens that leaves are read from

Names, numbers, strings and booleans are the leaves of expressions. A rule makes
them from single tokens, at two places: where an operand is read, and where the
class of a new object is named. Everything else that a rule makes has the leaves
of its parts. So every leaf of a tree was read from a token while the tree was.
-/

/-- A name, a number, a string or a boolean. -/
def Expression.isLeaf : Expression → Bool
  | .bool _ _ | .number _ _ _ | .string _ _ | .identifier _ => true
  | _ => false

/-- All leaves among the elements have the property. -/
def LeavesAre (good : Expression → Prop) (elements : List Element) : Prop :=
  ∀ leaf, .expression leaf ∈ elements → leaf.isLeaf = true → good leaf

section Elements

variable {good : Expression → Prop}

@[simp] theorem leavesAre_nil : LeavesAre good [] := by
  simp [LeavesAre]

/-- Elements are looked at one by one. -/
@[simp] theorem leavesAre_cons (first : Element) (rest : List Element) :
    LeavesAre good (first :: rest) ↔
      (∀ leaf, first = .expression leaf → leaf.isLeaf = true → good leaf) ∧
        LeavesAre good rest := by
  simp only [LeavesAre, List.mem_cons, or_imp, forall_and, eq_comm (b := first)]

/-- Elements in a row have the leaves of both parts. -/
@[simp] theorem leavesAre_append (left right : List Element) :
    LeavesAre good (left ++ right) ↔ LeavesAre good left ∧ LeavesAre good right := by
  simp [LeavesAre, or_imp, forall_and]

@[simp] theorem leavesAre_walkAll (values : List Expression) :
    LeavesAre good (Expression.walkAll (fun _ => true) values) ↔
      ∀ value ∈ values, LeavesAre good (value.walk fun _ => true) := by
  induction values with
  | nil => simp [Expression.walkAll]
  | cons first rest inductionHypothesis => simp [Expression.walkAll, inductionHypothesis]

@[simp] theorem leavesAre_walkStatements (nodes : List Statement) :
    LeavesAre good (Statement.walkAll (fun _ => true) nodes) ↔
      ∀ node ∈ nodes, LeavesAre good (node.walk fun _ => true) := by
  induction nodes with
  | nil => simp [Statement.walkAll]
  | cons first rest inductionHypothesis => simp [Statement.walkAll, inductionHypothesis]

@[simp] theorem leavesAre_flatMap (nodes : List α) (elements : α → List Element) :
    LeavesAre good (nodes.flatMap elements) ↔ ∀ node ∈ nodes, LeavesAre good (elements node) := by
  induction nodes with
  | nil => simp
  | cons first rest inductionHypothesis => simp [inductionHypothesis]

end Elements

namespace Grammar

/-! ## The elements that rules make -/

namespace Rule

/-- The elements of the unfinished tree that a rule goes on with. -/
def known : Rule α → List Element
  | className tree | moreTerms tree | moreComparisons tree | moreLinks tree =>
      tree.walk fun _ => true
  | moreItems values => Expression.walkAll (fun _ => true) values
  | statements nodes => Statement.walkAll (fun _ => true) nodes
  | members constructor? methods =>
      (constructor?.map (·.walk fun _ => true)).getD [] ++ methods.flatMap (·.walk fun _ => true)
  | _ => []

/-- The elements of what a rule makes. A name may become the class of a new object. -/
def made : Rule α → α → List Element
  | expect _, _ | moreParameters _, _ | parameters, _ | importedFrom, _ => []
  | name expectation, identifier =>
      if expectation = .className then [.expression (.identifier identifier)] else []
  | className _, value | rawCode _, value | expression, value | moreTerms _, value
  | comparison, value | moreComparisons _, value | chain, value | moreLinks _, value
  | primary, value | condition, value | optionalTest, value =>
      value.walk fun _ => true
  | items _, found => Expression.walkAll (fun _ => true) found.1
  | moreItems _, values => Expression.walkAll (fun _ => true) values
  | procedure, found => found.2.walk fun _ => true
  | block, body | loopBlock, body | blockRest _ _, body => body.walk fun _ => true
  | statements _, nodes => Statement.walkAll (fun _ => true) nodes
  | statement, node | simple, node | variableRest _, node | ifRest _, node | whileRest _, node
  | clause _, node | forRest _, node =>
      node.walk fun _ => true
  | members _ _, found =>
      (found.1.map (·.walk fun _ => true)).getD [] ++ found.2.flatMap (·.walk fun _ => true)
  | importRest _, node | classRest _, node | typeRest _, node | constantRest _, node
  | functionRest _, node | declaration, node =>
      node.walk fun _ => true

end Rule

/-- A course that makes elements whose leaves have the property, if the rules it calls do. -/
def Course.Keeps (good : Expression → Prop) (made : α → List Element) : Course α → Prop
  | done value => LeavesAre good (made value)
  | fail _ => True
  | branch _ yes no => yes.Keeps good made ∧ no.Keeps good made
  | take next => ∀ token, (next token).Keeps good made
  | skipBreaks next => next.Keeps good made
  | capture _ next => ∀ code last, (next code last).Keeps good made
  | call rule next =>
      LeavesAre good rule.known ∧
        ∀ value, LeavesAre good (rule.made value) → (next value).Keeps good made

/-- A rule that makes a leaf from a token itself. -/
def Rule.isSource : Rule α → Bool
  | name expectation => expectation = .className
  | primary => true
  | _ => false

section

variable {good : Expression → Prop}

attribute [local simp] Rule.course Rule.known Rule.made Rule.isSource Course.Keeps
  Expression.isLeaf Expression.walk Block.walk Statement.walk Constructor.walk Method.walk
  Declaration.walk importing or_imp forall_and

/-- All other rules make their elements of those that other rules make. -/
theorem Rule.course_keeps
    {rule : Rule α}
    (noSource : rule.isSource = false)
    (given : LeavesAre good rule.known) :
    rule.course.Keeps good rule.made := by
  cases rule <;> simp_all

/-- An operand that is no leaf is made of elements that other rules make. -/
theorem Rule.exists_course_primary (good : Expression → Prop) :
    ∃ rest, primary.course =
        .branch (·.any Goal.isLeaf) (.take fun token => .done ((leaf? token).getD .missing)) rest ∧
      rest.Keeps good primary.made :=
  ⟨_, rfl, by simp +contextual⟩

/-- A token that is an expression by itself is a leaf. -/
theorem leavesAre_leaf
    {token : Token}
    {leaf : Expression}
    (isLeaf : leaf? token = some leaf)
    (isGood : good leaf) :
    LeavesAre good (leaf.walk fun _ => true) := by
  unfold leaf? at isLeaf
  split at isLeaf
  all_goals cases isLeaf
  all_goals simpa using isGood

end

/-! ## Where leaves are read -/

/--
While a rule reads the tokens, a leaf is read from one of them: as an operand, or as the name of a
class.
-/
inductive Rule.ReadsLeaf (final : Token) :
    {α : Type} → Nat → Rule α → List Token → Token → Expression → Prop where
  | operand {room : Nat} {token : Token} {behind : List Token} {leaf : Expression}
      (isLeaf : leaf? token = some leaf) :
      ReadsLeaf final room primary (token :: behind) token leaf
  | className {room : Nat} {token : Token} {behind : List Token}
      (isName : token.kind = .identifier) :
      ReadsLeaf final room (name .className) (token :: behind) token
        (.identifier (identifierOf token))
  | inside {rule : Rule α} {inner : Rule β} {room : Nat} {tokens later : List Token}
      {token : Token} {leaf : Expression}
      (fits : rule.opens ≤ room)
      (calls : rule.course.Calls final (room - rule.opens) inner later tokens)
      (reads : ReadsLeaf final (room - rule.opens) inner later token leaf) :
      ReadsLeaf final room rule tokens token leaf

section Reading

variable
    {final : Token}
    {good : Expression → Prop}

/-- What a course makes has good leaves, if all rules that it calls make such elements. -/
theorem Course.leavesAre_of_run
    {room : Nat}
    {made : α → List Element}
    {course : Course α}
    (keeps : course.Keeps good made)
    {tokens : List Token}
    (calls : ∀ {β : Type} (inner : Rule β) (later : List Token),
      course.Calls final room inner later tokens → LeavesAre good inner.known →
        ∀ {value rest}, inner.read final room later = .ok (value, rest) →
          LeavesAre good (inner.made value))
    {value : α}
    {rest : List Token}
    (found : course.run final room tokens = .ok (value, rest)) :
    LeavesAre good (made value) := by
  induction course generalizing tokens with
  | done value =>
      cases found
      exact keeps
  | fail expectation? =>
      cases expectation? <;> cases found
  | branch test yes no yesHypothesis noHypothesis =>
      unfold run at found
      by_cases passed : test (nextKind tokens) = true
      · rw [if_pos passed] at found
        exact yesHypothesis keeps.1
          (fun inner later called => calls inner later (.yes passed called)) found
      · rw [if_neg passed] at found
        exact noHypothesis keeps.2 (fun inner later called =>
          calls inner later (.no (eq_false_of_ne_true passed) called)) found
  | take next inductionHypothesis =>
      cases tokens with
      | nil => cases found
      | cons token behind =>
          exact inductionHypothesis token (keeps token)
            (fun inner later called => calls inner later (.take called)) found
  | skipBreaks next inductionHypothesis =>
      exact inductionHypothesis keeps
        (fun inner later called => calls inner later (.skipBreaks called)) found
  | capture opening next inductionHypothesis =>
      exact inductionHypothesis _ _ (keeps _ _)
        (fun inner later called => calls inner later (.capture called)) found
  | call rule next inductionHypothesis =>
      unfold run at found
      rcases first : rule.read final room tokens with error | ⟨result, left⟩
      · rw [first] at found
        cases found
      · rw [first] at found
        exact inductionHypothesis result (keeps.2 result (calls rule tokens .here keeps.1 first))
          (fun inner later called => calls inner later (.behind first called)) found

/-- The name of a class is a leaf that is read from its token. -/
theorem Rule.leavesAre_className
    {room : Nat}
    {tokens : List Token}
    (reads : ∀ token leaf, (name .className).ReadsLeaf final room tokens token leaf → good leaf)
    {identifier : Identifier}
    {rest : List Token}
    (found : (name .className).read final room tokens = .ok (identifier, rest)) :
    LeavesAre good ((name .className).made identifier) := by
  cases tokens with
  | nil => cases found
  | cons token behind =>
      rw [read_name, read_expect_cons] at found
      split at found
      · next isName =>
          cases found
          simpa [made, Expression.isLeaf] using reads token _ (.className isName)
      · cases found

/-- The leaves of what a rule makes are those it was given and those that are read meanwhile. -/
theorem Rule.leavesAre_of_read
    (isEnd : final.kind = .endOfInput)
    (rule : Rule α)
    (tokens : List Token) :
    ∀ {room : Nat}, LeavesAre good rule.known →
      (∀ token leaf, rule.ReadsLeaf final room tokens token leaf → good leaf) →
        ∀ {value : α} {rest : List Token}, rule.read final room tokens = .ok (value, rest) →
          LeavesAre good (rule.made value) := by
  refine callInduction (motive := fun rule tokens => ∀ {room : Nat}, LeavesAre good rule.known →
    (∀ token leaf, rule.ReadsLeaf final room tokens token leaf → good leaf) →
      ∀ {value rest}, rule.read final room tokens = .ok (value, rest) →
        LeavesAre good (rule.made value)) ?_ rule tokens
  intro α rule tokens inductionHypothesis room given reads value rest found
  have fits : rule.opens ≤ room := by
    by_contra tooDeep
    rw [read_eq_run isEnd, if_neg tooDeep] at found
    cases found
  have ran := found
  rw [read_eq_run isEnd, if_pos fits] at ran
  have calls : ∀ {β : Type} (inner : Rule β) (later : List Token),
      rule.course.Calls final (room - rule.opens) inner later tokens →
        LeavesAre good inner.known →
          ∀ {value rest}, inner.read final (room - rule.opens) later = .ok (value, rest) →
            LeavesAre good (inner.made value) := by
    intro β inner later called known
    exact inductionHypothesis final _ inner later called known
      fun token leaf read => reads token leaf (.inside fits called read)
  cases isSource : rule.isSource with
  | false => exact Course.leavesAre_of_run (course_keeps isSource given) calls ran
  | true =>
      cases rule with
      | name expectation =>
          obtain rfl : expectation = .className := by simpa [Rule.isSource] using isSource
          exact leavesAre_className reads found
      | primary =>
          cases tokens with
          | nil =>
              rw [read_primary_nil] at found
              cases found
          | cons token behind =>
              cases isLeaf : leaf? token with
              | some leaf =>
                  rw [read_primary_leaf final room isLeaf, Except.ok.injEq, Prod.mk.injEq] at found
                  rw [← found.1]
                  exact leavesAre_leaf isLeaf (reads token leaf (.operand isLeaf))
              | none =>
                  obtain ⟨rest', shape, keeps⟩ := exists_course_primary good
                  have noLeaf : ((nextKind (token :: behind)).any Goal.isLeaf) = false :=
                    IsTracked.not_isLeaf_of_leaf isLeaf
                  rw [shape] at ran calls
                  rw [Course.run, if_neg (ne_true_of_eq_false noLeaf)] at ran
                  exact Course.leavesAre_of_run keeps
                    (fun inner later called => calls inner later (.no noLeaf called)) ran
      | _ => cases isSource

/-! ## Programs -/

/-- While declarations are read, one of them is read from the later tokens. -/
inductive ReadsDeclaration (final : Token) (room : Nat) : List Token → List Token → Prop where
  | first {tokens : List Token} : ReadsDeclaration final room tokens tokens
  | behind {tokens rest later : List Token} {next : Declaration}
      (found : Rule.declaration.read final room tokens = .ok (next, rest))
      (reads : ReadsDeclaration final room (skipNewlines rest) later) :
      ReadsDeclaration final room tokens later

/-- While a token list is parsed, a leaf is read from one of the tokens. -/
def ReadsLeaf (tokens : List Token) (token : Token) (leaf : Expression) : Prop :=
  ∃ later,
    ReadsDeclaration (finalToken tokens) depthLimit (skipNewlines (properTokens tokens)) later ∧
      Rule.declaration.ReadsLeaf (finalToken tokens) depthLimit later token leaf

/-- The leaves of declarations are those known before and those that are read meanwhile. -/
theorem leavesAre_of_declarations
    (isEnd : final.kind = .endOfInput)
    (room : Nat)
    (known : List Declaration)
    (tokens : List Token) :
    (∀ node ∈ known, LeavesAre good (node.walk fun _ => true)) →
      (∀ later token leaf, ReadsDeclaration final room tokens later →
        Rule.declaration.ReadsLeaf final room later token leaf → good leaf) →
        ∀ {result : List Declaration}, declarations final room known tokens = .ok result →
          ∀ node ∈ result, LeavesAre good (node.walk fun _ => true) := by
  induction known, tokens using declarations_induction final room with
  | finished known =>
      intro given _ result found
      rw [declarations_nil] at found
      cases found
      simpa using given
  | step known token behind inductionHypothesis =>
      intro given reads result found
      rw [declarations_cons] at found
      cases reading : Rule.declaration.read final room (token :: behind) with
      | error error =>
          rw [reading] at found
          cases found
      | ok parsed =>
          obtain ⟨next, rest⟩ := parsed
          rw [reading] at found
          have first := Rule.declaration.leavesAre_of_read isEnd _ (by simp [Rule.known])
            (fun token leaf => reads _ token leaf .first) reading
          exact inductionHypothesis next rest reading
            (List.forall_mem_cons.mpr ⟨first, given⟩)
            (fun later token leaf later' => reads later token leaf (.behind reading later')) found

/-- Every leaf of a parsed program was read from a token. -/
theorem exists_readsLeaf
    {tokens : List Token}
    {program : Program}
    (parsed : parseTokens tokens = .ok program)
    {leaf : Expression}
    (member : .expression leaf ∈ (Element.program program).walk fun _ => true)
    (isLeaf : leaf.isLeaf = true) :
    ∃ token, ReadsLeaf tokens token leaf := by
  unfold parseTokens programWithin at parsed
  cases reading : declarations (finalToken tokens) depthLimit []
      (skipNewlines (properTokens tokens)) with
  | error error =>
      rw [reading] at parsed
      cases parsed
  | ok result =>
      rw [reading] at parsed
      cases parsed
      have leaves : ∀ node ∈ result, LeavesAre (fun leaf => ∃ token, ReadsLeaf tokens token leaf)
          (node.walk fun _ => true) :=
        leavesAre_of_declarations (finalToken_kind tokens) depthLimit [] _ (by simp)
          (fun later token leaf declared read => ⟨token, later, declared, read⟩) reading
      have whole : LeavesAre (fun leaf => ∃ token, ReadsLeaf tokens token leaf)
          ((Element.program ⟨result⟩).walk fun _ => true) := by
        simpa [Element.walk, Program.walk] using leaves
      exact whole leaf member isLeaf

end Reading

/-! ## Tokens that are read are among those that are parsed -/

variable {final : Token}

/-- What a course calls is given the end of its tokens. -/
theorem Course.Calls.suffix
    (isEnd : final.kind = .endOfInput)
    {room : Nat}
    {inner : Rule β}
    {course : Course α}
    {tokens later : List Token}
    (calls : course.Calls final room inner later tokens) :
    later <:+ tokens := by
  induction calls with
  | here => exact List.suffix_rfl
  | behind found _ inductionHypothesis =>
      exact inductionHypothesis.trans (Rule.read_suffix isEnd _ _ found)
  | yes _ _ inductionHypothesis => exact inductionHypothesis
  | no _ _ inductionHypothesis => exact inductionHypothesis
  | take _ inductionHypothesis => exact inductionHypothesis.trans (List.suffix_cons _ _)
  | skipBreaks _ inductionHypothesis => exact inductionHypothesis.trans (skipNewlines_suffix _)
  | capture _ inductionHypothesis => exact inductionHypothesis.trans (capture_rest_suffix _ _)

/-- A declaration is read from the last of the tokens. -/
theorem ReadsDeclaration.suffix
    (isEnd : final.kind = .endOfInput)
    {room : Nat}
    {tokens later : List Token}
    (reads : ReadsDeclaration final room tokens later) :
    later <:+ tokens := by
  induction reads with
  | first => exact List.suffix_rfl
  | behind found _ inductionHypothesis =>
      exact (inductionHypothesis.trans (skipNewlines_suffix _)).trans
        (Rule.read_suffix isEnd _ _ found)

/-- A leaf is read from one of the tokens, which is an expression by itself. -/
theorem Rule.ReadsLeaf.token
    (isEnd : final.kind = .endOfInput)
    {room : Nat}
    {rule : Rule α}
    {tokens : List Token}
    {token : Token}
    {leaf : Expression}
    (reads : rule.ReadsLeaf final room tokens token leaf) :
    token ∈ tokens ∧ leaf? token = some leaf := by
  induction reads with
  | operand isLeaf => exact ⟨List.mem_cons_self .., isLeaf⟩
  | className isName => exact ⟨List.mem_cons_self .., by simp [leaf?, isName]⟩
  | inside _ calls _ inductionHypothesis =>
      exact ⟨(calls.suffix isEnd).subset inductionHypothesis.1, inductionHypothesis.2⟩

/-- A leaf is read from one of the tokens in front of the end. -/
theorem ReadsLeaf.token
    {tokens : List Token}
    {token : Token}
    {leaf : Expression}
    (reads : ReadsLeaf tokens token leaf) :
    token ∈ properTokens tokens ∧ leaf? token = some leaf := by
  obtain ⟨later, declared, read⟩ := reads
  have isEnd := finalToken_kind tokens
  obtain ⟨member, isLeaf⟩ := read.token isEnd
  exact ⟨((declared.suffix isEnd).trans (skipNewlines_suffix _)).subset member, isLeaf⟩

end Grammar

end FrenchNim
