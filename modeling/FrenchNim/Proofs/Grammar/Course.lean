import FrenchNim.Proofs.Grammar.Tracking

namespace FrenchNim.Grammar

/-!
# The course of a rule

What a rule does is a course of few kinds of steps: it looks at the kind of the
next token, takes it, drops line breaks, captures embedded code, or calls another
rule and goes on with what that made. A course does not hold the tokens, so what
it may do is seen from the course alone, and a statement about all rules is
proved by an induction over courses and the calls that are made in them.
-/

/-- What a rule does with the tokens it is given, step by step. -/
inductive Course : Type → Type 1 where
  | done (value : α) : Course α
  /-- Fail at the next token, which is not the expected one or cannot start an expression. -/
  | fail (expectation? : Option Expectation) : Course α
  /-- Go on as the kind of the next token says. There is none at the end of the input. -/
  | branch (test : Option TokenKind → Bool) (yes no : Course α) : Course α
  | take (next : Token → Course α) : Course α
  | skipBreaks (next : Course α) : Course α
  /-- Capture embedded code and go on with its text and its last token. -/
  | capture (opening : Token) (next : String → Token → Course α) : Course α
  | call {β : Type} (rule : Rule β) (next : β → Course α) : Course α

/-- The kind of the next token, if there is one. -/
def nextKind (tokens : List Token) : Option TokenKind :=
  tokens.head?.map (·.kind)

@[simp] theorem nextKind_nil : nextKind [] = none :=
  rfl

@[simp] theorem nextKind_cons (token : Token) (behind : List Token) :
    nextKind (token :: behind) = some token.kind :=
  rfl

/-- Of two lists in a row, the first one tells the next kind if it is not empty. -/
theorem nextKind_append {front : List Token} (present : front ≠ []) (behind : List Token) :
    nextKind (front ++ behind) = nextKind front := by
  cases front with
  | nil => exact (present rfl).elim
  | cons token rest => rfl

/-- Tokens that do not start with a line break are left as they are. -/
theorem skipNewlines_of_nextKind {tokens : List Token} (noBreak : nextKind tokens ≠ some .newline) :
    skipNewlines tokens = tokens := by
  cases tokens with
  | nil => rfl
  | cons token rest =>
      have other : token.kind ≠ .newline := fun isBreak => noBreak (congrArg some isBreak)
      rw [skipNewlines, List.dropWhile_cons, if_neg (by simpa using other)]

namespace Parsed

/-- Going on with what was found changes nothing. -/
theorem andThen_finish (parsed : Parsed α) :
    (parsed.andThen fun value rest => .ok (value, rest)) = parsed := by
  rcases parsed with error | ⟨value, rest⟩
  · rfl
  · rfl

/-- What goes on behind a rule may be replaced by what makes the same of all results. -/
theorem andThen_congr
    {first : Parsed α}
    {next later : α → List Token → Parsed β}
    (agree : ∀ value rest, next value rest = later value rest) :
    first.andThen next = first.andThen later := by
  rcases first with error | ⟨value, rest⟩
  · rfl
  · exact agree value rest

end Parsed

namespace Course

/-- The next token is of the given kind. -/
def is (kind : TokenKind) (next : Option TokenKind) : Bool :=
  next == some kind

@[simp] theorem is_none (kind : TokenKind) : is kind none = false :=
  rfl

@[simp] theorem is_some (kind other : TokenKind) : is kind (some other) = decide (other = kind) := by
  rw [is, Bool.eq_iff_iff, beq_iff_eq, decide_eq_true_eq, Option.some_inj]

/-- The next token ends a list, or there is no token. -/
def isEndOf (ends : TokenKind → Bool) (next : Option TokenKind) : Bool :=
  next.all ends

/-- Follow a course on a token list, with the given room in the rules it calls. -/
def run (final : Token) (room : Nat) : Course α → List Token → Parsed α
  | done value, tokens => .ok (value, tokens)
  | fail (some expectation), tokens => .error (.expected expectation (current final tokens))
  | fail none, tokens => .error (.unexpected (current final tokens))
  | branch test yes no, tokens =>
      if test (nextKind tokens) then yes.run final room tokens else no.run final room tokens
  | take _, [] => .error (.unexpected final)
  | take next, token :: behind => (next token).run final room behind
  | skipBreaks next, tokens => next.run final room (skipNewlines tokens)
  | capture opening next, tokens =>
      let captured := RawCode.capture opening tokens
      (next captured.code captured.last).run final room captured.rest
  | call rule next, tokens =>
      (rule.read final room tokens).andThen fun value rest => (next value).run final room rest

end Course

/-- A token that ends the statements of a block. -/
def endsBlock (kind : TokenKind) : Bool :=
  kind == .closeKeyword || kind == .braceClose

namespace Rule

open Course in
/-- The course of a rule. -/
def course : Rule α → Course α
  | expect expectation =>
      branch (is expectation.kind) (take done) (fail (some expectation))
  | name expectation => call (expect expectation) fun token => done (identifierOf token)
  | moreParameters known =>
      call (name .parameterName) fun parameter =>
        branch (is .comma)
          (take fun _ => call (moreParameters (parameter :: known)) done)
          (done (parameter :: known).reverse)
  | parameters =>
      call (expect .parenOpen) fun _ =>
        branch (is .parenClose)
          (call (expect .parenClose) fun _ => done [])
          (call (moreParameters []) fun names => call (expect .parenClose) fun _ => done names)
  | className callee =>
      branch (is .dot)
        (take fun _ => call (name .propertyName) fun property =>
          call (className (.member callee property false)) done)
        (done callee)
  | rawCode start =>
      call (expect .nimWord) fun _ => call (expect .parenOpen) fun opening =>
        capture opening fun code last => done (.rawCode code ⟨start.span.first, last.span.last⟩)
  | expression => call comparison fun left => call (moreTerms left) done
  | moreTerms left =>
      branch (·.any (·.isAdditive))
        (take fun operator => call comparison fun right =>
          call (moreTerms (.binary operator.literal left right)) done)
        (done left)
  | comparison => call chain fun left => call (moreComparisons left) done
  | moreComparisons left =>
      branch (·.any (·.isComparison))
        (take fun operator => call chain fun right =>
          call (moreComparisons (.binary operator.literal left right)) done)
        (done left)
  | chain => call primary fun head => call (moreLinks head) done
  | moreLinks target =>
      branch (fun next => is .dot next || is .arrow next)
        (take fun link => call (name .propertyName) fun property =>
          call (moreLinks (.member target property (link.kind = .arrow))) done) <|
      branch (is .parenOpen)
        (take fun _ => call (items .parenClose) fun found =>
          call (moreLinks (.invocation target found.1 found.2.span.last)) done) <|
      branch (is .bracketOpen)
        (take fun _ => call expression fun position => call (expect .bracketClose) fun closing =>
          call (moreLinks (.index target position closing.span.last)) done)
        (done target)
  | items closing =>
      branch (is closing.kind)
        (call (expect closing) fun token => done ([], token))
        (call (moreItems []) fun values => call (expect closing) fun token => done (values, token))
  | moreItems known =>
      call expression fun value =>
        branch (is .comma)
          (take fun _ => call (moreItems (value :: known)) done)
          (done (value :: known).reverse)
  | primary =>
      branch (·.any Goal.isLeaf) (take fun token => done ((leaf? token).getD .missing)) <|
      branch (is .newKeyword)
        (take fun token => call (name .className) fun class' =>
          call (className (.identifier class')) fun callee => call (expect .parenOpen) fun _ =>
            call (items .parenClose) fun found =>
              done (.construction callee found.1 ⟨token.span.first, found.2.span.last⟩)) <|
      branch (is .functionKeyword)
        (take fun token => call procedure fun found =>
          done (.closure found.1 found.2 token.span.first)) <|
      branch (is .atSign) (take fun token => call (rawCode token) done) <|
      branch (is .bracketOpen)
        (take fun token => call (items .bracketClose) fun found =>
          done (.array found.1 ⟨token.span.first, found.2.span.last⟩)) <|
      branch (is .parenOpen)
        (take fun _ => call expression fun inner => call (expect .parenClose) fun _ => done inner)
        (fail none)
  | procedure => call parameters fun names => call block fun body => done (names, body)
  | block =>
      call (expect .openWord) fun opening => call (blockRest opening .closeWord) done
  | loopBlock =>
      branch (is .braceOpen) (take fun opening => call (blockRest opening .braceClose) done) <|
      branch (is .openKeyword)
        (take fun opening => call (blockRest opening .closeWord) done)
        (fail (some .loopOpen))
  | blockRest opening closing =>
      skipBreaks <| call (statements []) fun body => call (expect closing) fun token =>
        done (.of body ⟨opening.span.first, token.span.last⟩)
  | statements known =>
      branch (isEndOf endsBlock) (done known.reverse)
        (call statement fun next => skipBreaks (call (statements (next :: known)) done))
  | statement =>
      branch (is .returnKeyword)
        (take fun token => call expression fun value =>
          done (.returned value token.span.first)) <|
      branch (is .variableKeyword) (take fun token => call (variableRest token) done) <|
      branch (is .forKeyword) (take fun token => call (forRest token) done) <|
      branch (is .whileKeyword) (take fun token => call (whileRest token) done) <|
      branch (is .ifKeyword) (take fun token => call (ifRest token) done)
        (call simple done)
  | simple =>
      call expression fun target =>
        branch (is .equal)
          (take fun _ => call expression fun value => done (.assigned target value))
          (done (.evaluated target))
  | variableRest start =>
      call (name .variableName) fun identifier => call (expect .equalWord) fun _ =>
        call expression fun value => done (.declared identifier value start.span.first)
  | condition =>
      call (expect .parenOpen) fun _ => call expression fun test =>
        call (expect .parenClose) fun _ => done test
  | ifRest start =>
      call condition fun test => call block fun consequent =>
        branch (is .elseKeyword)
          (take fun _ => call block fun alternative =>
            done (.conditional test consequent alternative start.span.first))
          (done (.conditional test consequent .missing start.span.first))
  | whileRest start =>
      call condition fun test => call loopBlock fun body =>
        done (.whileLoop test body start.span.first)
  | clause closing =>
      branch (is closing) (done .missing) <|
      branch (is .variableKeyword) (take fun token => call (variableRest token) done)
        (call simple done)
  | optionalTest => branch (is .semicolon) (done .missing) (call expression done)
  | forRest start =>
      call (expect .parenOpen) fun _ => call (clause .semicolon) fun initial =>
        call (expect .semicolon) fun _ => call optionalTest fun test =>
          call (expect .semicolon) fun _ => call (clause .parenClose) fun increment =>
            call (expect .parenClose) fun _ => call loopBlock fun body =>
              done (.forLoop initial test increment body start.span.first)
  | importedFrom => call (expect .fromWord) fun _ => call (expect .importedPath) done
  | importRest start =>
      call (name .moduleName) fun module' =>
        branch (is .asKeyword)
          (take fun _ => call (name .aliasName) fun newName => call importedFrom fun path =>
            done (importing start module' (some newName) path))
          (call importedFrom fun path => done (importing start module' none path))
  | members constructor? methods =>
      branch (isEndOf (· == .closeKeyword)) (done (constructor?, methods.reverse)) <|
      branch (is .constructorKeyword)
        (take fun token => call procedure fun found =>
          call (members (some ⟨found.1, found.2, token.span.first⟩) methods) done) <|
      branch (is .identifier)
        (take fun token => call procedure fun found =>
          call (members constructor? (⟨identifierOf token, found.1, found.2⟩ :: methods)) done)
        (take fun _ => call (members constructor? methods) done)
  | classRest start =>
      call (name .className) fun class' => call (expect .openWord) fun _ =>
        call (members none []) fun found => call (expect .closeWord) fun closing =>
          done (.classType class' found.1 found.2 ⟨start.span.first, closing.span.last⟩)
  | typeRest start =>
      call (name .typeName) fun type' => call (expect .equalWord) fun equal =>
        branch (is .externalKeyword)
          (take fun word => done (.typeName type' true ⟨start.span.first, word.span.last⟩))
          (done (.typeName type' false ⟨start.span.first, equal.span.last⟩))
  | constantRest start =>
      call (name .constantName) fun identifier => call (expect .equalWord) fun _ =>
        call expression fun value => done (.constant identifier value start.span.first)
  | functionRest start =>
      call (name .functionName) fun identifier => call procedure fun found =>
        done (.function identifier found.1 found.2 start.span.first)
  | declaration =>
      branch (is .importKeyword) (take fun token => call (importRest token) done) <|
      branch (is .classKeyword) (take fun token => call (classRest token) done) <|
      branch (is .typeKeyword) (take fun token => call (typeRest token) done) <|
      branch (is .constantKeyword) (take fun token => call (constantRest token) done) <|
      branch (is .functionKeyword) (take fun token => call (functionRest token) done) <|
      branch (is .returnKeyword)
        (call simple fun body => done (.statement body))
        (call statement fun body => done (.statement body))

/-- How many expressions a rule opens before it calls other rules. -/
def opens : Rule α → Nat
  | expression => 1
  | _ => 0

/-- A rule opens one expression at most by itself. -/
theorem opens_le_one (rule : Rule α) : rule.opens ≤ 1 := by
  cases rule <;> simp [opens]

/-! ## Reading is following the course -/

section

variable {final : Token} {room : Nat} {tokens : List Token}

attribute [local simp] course opens Course.run Course.isEndOf Parsed.andThen_finish current
  endsStatements endsBlock

/-- The items follow their course: closed at once, or read and then closed. -/
theorem read_course_items (isEnd : final.kind = .endOfInput) (closing : Expectation) :
    (items closing).read final room tokens = (items closing).course.run final room tokens := by
  rw [read_items]
  cases tokens with
  | nil =>
      have noClose : TokenKind.endOfInput ≠ closing.kind := by
        cases closing <;> simp [Expectation.kind]
      simp [isEnd, noClose]
  | cons first rest => simp

/-- A primary expression follows the course that its first token chooses. -/
theorem read_course_primary :
    primary.read final room tokens = primary.course.run final room tokens := by
  cases tokens with
  | nil => simp
  | cons token behind =>
      cases found : leaf? token with
      | some leaf =>
          simp [read_primary_leaf final room found, IsTracked.isLeaf_of_leaf found, found]
      | none =>
          simp [read_primary_cons final room found, IsTracked.not_isLeaf_of_leaf found]

/-- A type follows its course, with the external word or without. -/
theorem read_course_typeRest (start : Token) :
    (typeRest start).read final room tokens =
      (typeRest start).course.run final room tokens := by
  rw [read_typeRest]
  refine Parsed.andThen_congr fun type' behind => ?_
  refine Parsed.andThen_congr fun equal after => ?_
  cases after with
  | nil => rfl
  | cons word rest =>
      by_cases isExternal : word.kind = .externalKeyword
      · simp [externalWord, isExternal, takeFirst, Progress.toAdvance]
      · simp [externalWord, isExternal, Advance.nothing]

/-- A rule follows its course, if there is room for it. -/
theorem read_eq_run
    (isEnd : final.kind = .endOfInput)
    (rule : Rule α)
    (room : Nat)
    (tokens : List Token) :
    rule.read final room tokens =
      if rule.opens ≤ room then
        rule.course.run final (room - rule.opens) tokens
      else
        .error (.tooDeep (current final tokens).span.first) := by
  -- The equation of each rule is its course, so only the first token is told apart.
  cases rule with
  | expect expectation =>
      cases tokens with
      | nil => rfl
      | cons token behind => simp [read_expect_cons]
  | name expectation => simp [read_name]
  | moreParameters known =>
      rw [read_moreParameters]
      refine Parsed.andThen_congr fun parameter rest => ?_
      cases rest with
      | nil => rfl
      | cons comma behind => simp
  | parameters =>
      rw [read_parameters]
      refine Parsed.andThen_congr fun _ inner => ?_
      cases inner with
      | nil => simp [isEnd]
      | cons first rest => simp
  | className callee =>
      cases tokens with
      | nil => simp
      | cons dot behind => simp [read_className_cons]
  | rawCode start => simp [read_rawCode]
  | expression =>
      cases room with
      | zero => simp
      | succ room => simp [read_expression_succ]
  | moreTerms left =>
      cases tokens with
      | nil => simp
      | cons operator operands => simp [read_moreTerms_cons]
  | comparison => simp [read_comparison]
  | moreComparisons left =>
      cases tokens with
      | nil => simp
      | cons operator operands => simp [read_moreComparisons_cons]
  | chain => simp [read_chain]
  | moreLinks target =>
      cases tokens with
      | nil => simp
      | cons link inner => simp [read_moreLinks_cons]
  | items closing => exact read_course_items isEnd closing
  | moreItems known =>
      rw [read_moreItems]
      refine Parsed.andThen_congr fun value rest => ?_
      cases rest with
      | nil => rfl
      | cons comma behind => simp
  | primary => exact read_course_primary
  | procedure => simp [read_procedure]
  | block => simp [read_block]
  | loopBlock =>
      cases tokens with
      | nil => simp
      | cons opening inner => simp [read_loopBlock_cons]
  | blockRest opening closing => simp [read_blockRest]
  | statements known =>
      cases tokens with
      | nil => simp
      | cons token behind => simp [read_statements_cons]
  | statement =>
      cases tokens with
      | nil => simp
      | cons token behind => simp [read_statement_cons]
  | simple =>
      rw [read_simple]
      refine Parsed.andThen_congr fun target rest => ?_
      cases rest with
      | nil => rfl
      | cons equal behind => simp
  | variableRest start => simp [read_variableRest]
  | condition => simp [read_condition]
  | ifRest start =>
      rw [read_ifRest]
      refine Parsed.andThen_congr fun test behind => ?_
      refine Parsed.andThen_congr fun consequent after => ?_
      cases after with
      | nil => rfl
      | cons word inner => simp
  | whileRest start => simp [read_whileRest]
  | clause closing =>
      cases tokens with
      | nil => simp
      | cons token behind => simp [read_clause_cons]
  | optionalTest =>
      rw [read_optionalTest]
      cases tokens with
      | nil => simp [isEnd]
      | cons token behind => simp
  | forRest start => simp [read_forRest]
  | importedFrom => simp [read_importedFrom]
  | importRest start =>
      rw [read_importRest]
      refine Parsed.andThen_congr fun module' behind => ?_
      cases behind with
      | nil => simp [isEnd]
      | cons token after => simp
  | members constructor? methods =>
      cases tokens with
      | nil => simp
      | cons token behind => simp [read_members_cons]
  | classRest start => simp [read_classRest]
  | typeRest start => exact read_course_typeRest start
  | constantRest start => simp [read_constantRest]
  | functionRest start => simp [read_functionRest]
  | declaration =>
      cases tokens with
      | nil => simp [read_declaration_nil]
      | cons token behind => simp [read_declaration_cons]

end

end Rule

/-! ## The calls of a course -/

namespace Course

/--
While the course is followed on a token list, it calls the inner rule on the later tokens.
-/
inductive Calls (final : Token) (room : Nat) (inner : Rule β) (later : List Token) :
    Course α → List Token → Prop where
  | here {next : β → Course α} : Calls final room inner later (call inner next) later
  | behind {rule : Rule γ} {next : γ → Course α} {value : γ} {tokens rest : List Token}
      (found : rule.read final room tokens = .ok (value, rest))
      (calls : Calls final room inner later (next value) rest) :
      Calls final room inner later (call rule next) tokens
  | yes {test : Option TokenKind → Bool} {yes no : Course α} {tokens : List Token}
      (passed : test (nextKind tokens) = true)
      (calls : Calls final room inner later yes tokens) :
      Calls final room inner later (branch test yes no) tokens
  | no {test : Option TokenKind → Bool} {yes no : Course α} {tokens : List Token}
      (failed : test (nextKind tokens) = false)
      (calls : Calls final room inner later no tokens) :
      Calls final room inner later (branch test yes no) tokens
  | take {next : Token → Course α} {token : Token} {rest : List Token}
      (calls : Calls final room inner later (next token) rest) :
      Calls final room inner later (take next) (token :: rest)
  | skipBreaks {next : Course α} {tokens : List Token}
      (calls : Calls final room inner later next (skipNewlines tokens)) :
      Calls final room inner later (skipBreaks next) tokens
  | capture {opening : Token} {next : String → Token → Course α} {tokens : List Token}
      (calls : Calls final room inner later
        (next (RawCode.capture opening tokens).code (RawCode.capture opening tokens).last)
        (RawCode.capture opening tokens).rest) :
      Calls final room inner later (capture opening next) tokens

/-- Before a token is taken, only rules that bind tighter than the given level are called. -/
def Descends (level : Nat) : Bool → Course α → Prop
  | _, done _ | _, fail _ => True
  | taken, branch _ yes no => yes.Descends level taken ∧ no.Descends level taken
  | _, take next => ∀ token, (next token).Descends level true
  | taken, skipBreaks next => next.Descends level taken
  | taken, capture _ next => ∀ code last, (next code last).Descends level taken
  | taken, call rule next =>
      (taken = true ∨ rule.level < level) ∧
        ∀ value, (next value).Descends level (taken || !rule.isOptional)

/-- What a course calls is below it: it has fewer tokens, or it binds tighter. -/
theorem Calls.descends
    {final : Token}
    {room level : Nat}
    {inner : Rule β}
    {course : Course α}
    {tokens later : List Token}
    (calls : course.Calls final room inner later tokens)
    {taken : Bool}
    (descends : course.Descends level taken) :
    later.length < tokens.length ∨
      later.length ≤ tokens.length ∧ (taken = true ∨ inner.level < level) := by
  induction calls generalizing taken with
  | here => exact .inr ⟨Nat.le_refl _, descends.1⟩
  | behind found calls inductionHypothesis =>
      have shape := inductionHypothesis (descends.2 _)
      have notLonger := Rule.read_notLonger _ found
      rw [Bool.or_eq_true, Bool.not_eq_true', or_assoc] at shape
      rcases shape with fewer | ⟨within, isTaken | required | tighter⟩
      · exact .inl (Nat.lt_of_lt_of_le fewer notLonger)
      · exact .inr ⟨Nat.le_trans within notLonger, .inl isTaken⟩
      · exact .inl (Nat.lt_of_le_of_lt within (Rule.read_shorter required found))
      · exact .inr ⟨Nat.le_trans within notLonger, .inr tighter⟩
  | yes _ _ inductionHypothesis => exact inductionHypothesis descends.1
  | no _ _ inductionHypothesis => exact inductionHypothesis descends.2
  | take _ inductionHypothesis =>
      refine .inl (Nat.lt_succ_of_le ?_)
      rcases inductionHypothesis (descends _) with fewer | ⟨within, _⟩
      · exact Nat.le_of_lt fewer
      · exact within
  | @skipBreaks _ _ tokens _ inductionHypothesis =>
      have notLonger := length_skipNewlines_le tokens
      rcases inductionHypothesis descends with fewer | ⟨within, called⟩
      · exact .inl (Nat.lt_of_lt_of_le fewer notLonger)
      · exact .inr ⟨Nat.le_trans within notLonger, called⟩
  | @capture _ opening _ tokens _ inductionHypothesis =>
      have notLonger := RawCode.length_capture_rest_le opening tokens
      rcases inductionHypothesis (descends _ _) with fewer | ⟨within, called⟩
      · exact .inl (Nat.lt_of_lt_of_le fewer notLonger)
      · exact .inr ⟨Nat.le_trans within notLonger, called⟩

end Course

namespace Rule

/-- A rule calls only rules below it. -/
theorem course_descends (rule : Rule α) : rule.course.Descends rule.level false := by
  cases rule <;> simp [course, Course.Descends, level, isOptional]

/--
Induction over all rules along their calls. A statement holds of a rule on a token list if it
follows from the same statement about all that the rule calls.
-/
theorem callInduction
    {motive : ∀ {α : Type}, Rule α → List Token → Prop}
    (step : ∀ {α : Type} (rule : Rule α) (tokens : List Token),
      (∀ {β : Type} (final : Token) (room : Nat) (inner : Rule β) (later : List Token),
        rule.course.Calls final room inner later tokens → motive inner later) →
      motive rule tokens)
    (rule : Rule α)
    (tokens : List Token) :
    motive rule tokens := by
  refine Rule.induction (motive := fun rule _ tokens => motive rule tokens) ?_ rule 0 tokens
  intro _ rule room tokens below
  refine step rule tokens fun _ _ inner later calls => ?_
  rcases calls.descends rule.course_descends with fewer | ⟨within, taken | tighter⟩
  · exact below.shorter inner room later fewer
  · cases taken
  · exact below.tighter inner room later tighter within

end Rule

end FrenchNim.Grammar
