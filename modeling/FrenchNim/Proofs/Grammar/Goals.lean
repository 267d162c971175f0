import FrenchNim.Proofs.Grammar.Induction

namespace FrenchNim.Grammar

/-!
# What a program still awaits

The grammar decides by the kind of one token how to go on. So behind tokens that
may start a program there is a list of goals, the innermost first: the parts of
the program that are still to be read. The first goal takes the next token and
leaves further goals, or it is met without that token, or it refuses it. The
end of the input is met like a token, so it shows which goals may stay unmet.

Literals and positions do not matter to goals, and nothing that was read does.
-/

/--
A part of a program that is still to be read. The room is the number of
expressions that may be nested in it.
-/
inductive Goal where
  | token (kind : TokenKind)
  /-- Parameters behind their opening parenthesis. -/
  | names
  | moreNames
  /-- Further members of a class name. -/
  | path
  /-- The rest of embedded code, with the number of parentheses opened in it. -/
  | code (nesting : Nat)
  | operand (room : Nat)
  | links (room : Nat)
  | comparisons (room : Nat)
  | terms (room : Nat)
  | expression (room : Nat)
  /-- Expressions up to and including the closing token. -/
  | items (room : Nat) (closing : TokenKind)
  | moreItems (room : Nat)
  | loopBody (room : Nat)
  | statements (room : Nat)
  | statement (room : Nat)
  /-- The right side of an assignment, if an equal sign follows. -/
  | assignment (room : Nat)
  | alternative (room : Nat)
  | clause (room : Nat) (closing : TokenKind)
  | test (room : Nat)
  /-- The new name of an imported module, if it has one, and its path. -/
  | origin
  | external
  | members (room : Nat)
  | declaration (room : Nat)
  | program (room : Nat)
  deriving Repr, DecidableEq

/-- What a goal makes of a token. -/
inductive Step where
  | takes (goals : List Goal)
  | passes
  | refuses

namespace Step

/-- A token that has to be taken. -/
def ofOption : Option (List Goal) → Step
  | some goals => takes goals
  | none => refuses

/-- What a goal in front of others makes of a token, if they make the given step of it. -/
def before (step : Step) (others : List Goal) (next : Step) : Step :=
  match step with
  | takes goals => takes (goals ++ others)
  | passes => next
  | refuses => refuses

/-- What a token asks for is put in front of the other goals. -/
theorem before_ofOption
    (found : Option (List Goal))
    (others : List Goal)
    (next : Step) :
    (ofOption found).before others next = ofOption (found.map (· ++ others)) := by
  cases found <;> rfl

end Step

namespace Goal

/-! ## The parts of larger parts -/

/-- What may follow the first operand of an expression. -/
def further (room : Nat) : List Goal :=
  [links room, comparisons room, terms room]

def block (room : Nat) : List Goal :=
  [token .openKeyword, statements room, token .closeKeyword]

def procedure (room : Nat) : List Goal :=
  token .parenOpen :: names :: block room

def condition (room : Nat) : List Goal :=
  [token .parenOpen, expression room, token .parenClose]

/-- A name and its value. -/
def definition (room : Nat) : List Goal :=
  [token .identifier, token .equal, expression room]

def importedFrom : List Goal :=
  [token .fromKeyword, token .string]

def forRest (room : Nat) : List Goal :=
  [token .parenOpen, clause room .semicolon, token .semicolon, test room, token .semicolon,
    clause room .parenClose, token .parenClose, loopBody room]

def ifRest (room : Nat) : List Goal :=
  condition room ++ block room ++ [alternative room]

def whileRest (room : Nat) : List Goal :=
  condition room ++ [loopBody room]

def classRest (room : Nat) : List Goal :=
  [token .identifier, token .openKeyword, members room, token .closeKeyword]

def construction (room : Nat) : List Goal :=
  [token .identifier, path, token .parenOpen, items room .parenClose]

/-- What is left of embedded code behind a closing parenthesis. -/
def codeBehind : Nat → List Goal
  | 0 => []
  | nesting + 1 => [code nesting]

/-! ## What the first token of a part asks for -/

/-- A token that is an expression of its own. -/
def isLeaf : TokenKind → Bool
  | .selfKeyword | .string | .identifier | .number | .boolean => true
  | _ => false

def operand? (room : Nat) (kind : TokenKind) : Option (List Goal) :=
  if isLeaf kind then some []
  else if kind = .newKeyword then some (construction room)
  else if kind = .functionKeyword then some (procedure room)
  else if kind = .atSign then some [token .nimKeyword, token .parenOpen, code 0]
  else if kind = .bracketOpen then some [items room .bracketClose]
  else if kind = .parenOpen then some [expression room, token .parenClose]
  else none

def expression? (room : Nat) (kind : TokenKind) : Option (List Goal) :=
  match room with
  | 0 => none
  | room + 1 => (operand? room kind).map (· ++ further room)

def simple? (room : Nat) (kind : TokenKind) : Option (List Goal) :=
  (expression? room kind).map (· ++ [assignment room])

def statement? (room : Nat) (kind : TokenKind) : Option (List Goal) :=
  if kind = .returnKeyword then some [expression room]
  else if kind = .variableKeyword then some (definition room)
  else if kind = .forKeyword then some (forRest room)
  else if kind = .whileKeyword then some (whileRest room)
  else if kind = .ifKeyword then some (ifRest room)
  else simple? room kind

def declaration? (room : Nat) (kind : TokenKind) : Option (List Goal) :=
  if kind = .importKeyword then some [token .identifier, origin]
  else if kind = .classKeyword then some (classRest room)
  else if kind = .typeKeyword then some [token .identifier, token .equal, external]
  else if kind = .constantKeyword then some (definition room)
  else if kind = .functionKeyword then some (token .identifier :: procedure room)
  else if kind = .returnKeyword then simple? room kind
  else statement? room kind

/-! ## Meeting a token -/

/-- What a goal makes of a token of the given kind. -/
def meet (kind : TokenKind) : Goal → Step
  | token expected => if kind = expected then .takes [] else .refuses
  | names =>
      if kind = .parenClose then .takes []
      else if kind = .identifier then .takes [moreNames, token .parenClose]
      else .refuses
  | moreNames => if kind = .comma then .takes [token .identifier, moreNames] else .passes
  | path => if kind = .dot then .takes [token .identifier, path] else .passes
  | code nesting =>
      if kind = .endOfInput then .passes
      else if kind = .parenOpen then .takes [code (nesting + 1)]
      else if kind = .parenClose then .takes (codeBehind nesting)
      else .takes [code nesting]
  | operand room => .ofOption (operand? room kind)
  | links room =>
      if kind = .dot ∨ kind = .arrow then .takes [token .identifier, links room]
      else if kind = .parenOpen then .takes [items room .parenClose, links room]
      else if kind = .bracketOpen then .takes [expression room, token .bracketClose, links room]
      else .passes
  | comparisons room =>
      if kind.isComparison then .takes [operand room, links room, comparisons room] else .passes
  | terms room =>
      if kind.isAdditive then .takes [operand room, links room, comparisons room, terms room]
      else .passes
  | expression room => .ofOption (expression? room kind)
  | items room closing =>
      if kind = closing then .takes []
      else .ofOption ((expression? room kind).map (· ++ [moreItems room, token closing]))
  | moreItems room => if kind = .comma then .takes [expression room, moreItems room] else .passes
  | loopBody room =>
      if kind = .braceOpen then .takes [statements room, token .braceClose]
      else if kind = .openKeyword then .takes [statements room, token .closeKeyword]
      else .refuses
  | statements room =>
      if kind = .endOfInput ∨ kind = .closeKeyword ∨ kind = .braceClose then .passes
      else if kind = .newline then .takes [statements room]
      else .ofOption ((statement? room kind).map (· ++ [statements room]))
  | statement room => .ofOption (statement? room kind)
  | assignment room => if kind = .equal then .takes [expression room] else .passes
  | alternative room => if kind = .elseKeyword then .takes (block room) else .passes
  | clause room closing =>
      if kind = closing then .passes
      else if kind = .variableKeyword then .takes (definition room)
      else .ofOption (simple? room kind)
  | test room => if kind = .semicolon then .passes else .ofOption (expression? room kind)
  | origin =>
      if kind = .asKeyword then .takes (token .identifier :: importedFrom)
      else if kind = .fromKeyword then .takes [token .string]
      else .refuses
  | external => if kind = .externalKeyword then .takes [] else .passes
  | members room =>
      if kind = .endOfInput ∨ kind = .closeKeyword then .passes
      else if kind = .constructorKeyword ∨ kind = .identifier then
        .takes (procedure room ++ [members room])
      else .takes [members room]
  | declaration room => .ofOption (declaration? room kind)
  | program room =>
      if kind = .endOfInput then .passes
      else if kind = .newline then .takes [program room]
      else .ofOption ((declaration? room kind).map (· ++ [program room]))

/-- What a list of goals makes of a token. -/
def meetAll (kind : TokenKind) : List Goal → Step
  | [] => .passes
  | goal :: rest => (goal.meet kind).before rest (meetAll kind rest)

/-- The goals behind one more token. -/
def feed (goals : List Goal) (kind : TokenKind) : Option (List Goal) :=
  match meetAll kind goals with
  | .takes left => some left
  | _ => none

/-- The goals behind further tokens. -/
def await (goals : List Goal) (kinds : List TokenKind) : Option (List Goal) :=
  kinds.foldlM feed goals

@[simp] theorem meetAll_nil (kind : TokenKind) : meetAll kind [] = .passes :=
  rfl

/-- The first goal meets a token before the others do. -/
theorem meetAll_cons (kind : TokenKind) (goal : Goal) (rest : List Goal) :
    meetAll kind (goal :: rest) = (goal.meet kind).before rest (meetAll kind rest) :=
  rfl

/-- The goals at the end of a list matter only if those before them pass. -/
theorem meetAll_append (kind : TokenKind) (front behind : List Goal) :
    meetAll kind (front ++ behind) = (meetAll kind front).before behind (meetAll kind behind) := by
  induction front with
  | nil =>
      rfl
  | cons goal rest inductionHypothesis =>
      rw [List.cons_append, meetAll_cons, meetAll_cons, inductionHypothesis]
      cases goal.meet kind with
      | takes goals => simp [Step.before]
      | passes => rfl
      | refuses => rfl

/-- A token that the first goal has to take decides for all goals. -/
theorem meetAll_of_meet
    {kind : TokenKind}
    {goal : Goal}
    {found : Option (List Goal)}
    (meets : goal.meet kind = .ofOption found)
    (rest : List Goal) :
    meetAll kind (goal :: rest) = .ofOption (found.map (· ++ rest)) := by
  rw [meetAll_cons, meets, Step.before_ofOption]

/-- Goals in front of others take what they take without them. -/
theorem ofOption_map_append (found : Option (List Goal)) (front behind : List Goal) :
    Step.ofOption ((found.map (· ++ front)).map (· ++ behind)) =
      .ofOption (found.map (· ++ (front ++ behind))) := by
  cases found with
  | none => rfl
  | some goals => exact congrArg Step.takes (List.append_assoc ..)

/-- An expression with room left is an operand and what may follow it. -/
theorem meetAll_expression_succ (kind : TokenKind) (room : Nat) (rest : List Goal) :
    meetAll kind (expression (room + 1) :: rest) =
      meetAll kind (operand room :: (further room ++ rest)) := by
  rw [meetAll_of_meet rfl, meetAll_of_meet rfl]
  exact ofOption_map_append ..

/-- Items that are not closed at once begin with an expression. -/
theorem meetAll_items
    {kind closing : TokenKind}
    (noClose : kind ≠ closing)
    (room : Nat)
    (rest : List Goal) :
    meetAll kind (items room closing :: rest) =
      meetAll kind (expression room :: moreItems room :: token closing :: rest) := by
  have meets : (items room closing).meet kind =
      .ofOption ((expression? room kind).map (· ++ [moreItems room, token closing])) :=
    if_neg noClose
  rw [meetAll_of_meet meets, meetAll_of_meet rfl]
  exact ofOption_map_append ..

/-- Statements go on with a statement, unless they end or a line breaks. -/
theorem meetAll_statements
    {kind : TokenKind}
    (continues : ¬(kind = .endOfInput ∨ kind = .closeKeyword ∨ kind = .braceClose))
    (noBreak : kind ≠ .newline)
    (room : Nat)
    (rest : List Goal) :
    meetAll kind (statements room :: rest) =
      meetAll kind (statement room :: statements room :: rest) := by
  have meets : (statements room).meet kind =
      .ofOption ((statement? room kind).map (· ++ [statements room])) := by
    rw [meet, if_neg continues, if_neg noBreak]
  rw [meetAll_of_meet meets, meetAll_of_meet rfl]
  exact ofOption_map_append ..

/-- A part that starts like an expression or an assignment is one. -/
theorem meetAll_of_simple
    {kind : TokenKind}
    {goal : Goal}
    {room : Nat}
    (meets : goal.meet kind = .ofOption (simple? room kind))
    (rest : List Goal) :
    meetAll kind (goal :: rest) = meetAll kind (expression room :: assignment room :: rest) := by
  rw [meetAll_of_meet meets, meetAll_of_meet rfl]
  exact ofOption_map_append ..

@[simp] theorem await_nil (goals : List Goal) : await goals [] = some goals :=
  rfl

/-- Tokens are awaited one by one. -/
theorem await_cons (goals : List Goal) (kind : TokenKind) (kinds : List TokenKind) :
    await goals (kind :: kinds) = (feed goals kind).bind fun left => await left kinds :=
  rfl

/-- Tokens in a row are awaited one part behind the other. -/
theorem await_append (goals : List Goal) (front behind : List TokenKind) :
    await goals (front ++ behind) = (await goals front).bind fun left => await left behind :=
  List.foldlM_append

/-- Goals that pass a token leave it to those behind them. -/
theorem feed_of_passes
    {kind : TokenKind}
    {front : List Goal}
    (passes : meetAll kind front = .passes)
    (behind : List Goal) :
    feed (front ++ behind) kind = feed behind kind := by
  rw [feed, meetAll_append, passes]
  rfl

/-- What is taken by goals is taken by them in front of others. -/
theorem await_frame
    {goals left : List Goal}
    {kinds : List TokenKind}
    (reached : await goals kinds = some left)
    (others : List Goal) :
    await (goals ++ others) kinds = some (left ++ others) := by
  induction kinds generalizing goals with
  | nil =>
      cases reached
      rfl
  | cons kind kinds inductionHypothesis =>
      rw [await_cons] at reached ⊢
      obtain ⟨middle, taken, later⟩ := Option.bind_eq_some_iff.mp reached
      have framed : feed (goals ++ others) kind = some (middle ++ others) := by
        unfold feed at taken ⊢
        rw [meetAll_append]
        cases meets : meetAll kind goals with
        | takes found =>
            rw [meets] at taken
            cases taken
            rfl
        | passes =>
            rw [meets] at taken
            cases taken
        | refuses =>
            rw [meets] at taken
            cases taken
      rw [framed]
      exact inductionHypothesis later

end Goal

end FrenchNim.Grammar
