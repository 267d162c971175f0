import FrenchNim.Grammar.RawCode
import FrenchNim.Grammar.Reading
import FrenchNim.Number.Reading
import FrenchNim.Syntax.Range

namespace FrenchNim

/-!
# Expressions and statements

The rules for expressions and statements call each other, since a closure holds
statements. From loosest to tightest an expression is a sum, a comparison, a
chain of member accesses, calls and indices, and a primary expression;
comparisons bind tighter than sums. Line breaks end an expression.

Every rule takes the number of further expressions that may be nested in the
current one. Each rule ends because it works on fewer tokens, or on the same
tokens at a tighter level.
-/

namespace Grammar

/-- The number of expressions that may be nested. -/
def depthLimit : Nat := 1024

/-- Read an expression that is a single token. -/
def leaf? (token : Token) : Option Expression :=
  match token.kind with
  | .selfKeyword => some (.identifier ⟨selfName, token.span.first⟩)
  | .string => some (.string token.literal token.span)
  | .identifier => some (.identifier (identifierOf token))
  | .number => some (.number token.literal (Number.ofLiteral token.literal) token.span)
  | .boolean => some (.bool (token.literal = Keyword.trueWord) token.span)
  | _ => none

/-- Read the rest of a class name: members behind a dot. -/
def className (final : Token) (callee : Expression) (tokens : List Token) :
    OptionalReading Expression tokens :=
  match tokens with
  | [] => .ok (.nothing callee [])
  | dot :: behind =>
      if dot.kind = .dot then do
        let ⟨name, rest, shorter⟩ ← expectName final .propertyName behind
        let whole ← className final (.member callee name false) rest
        return ((whole.after shorter).behindToken dot).toAdvance
      else
        .ok (.nothing callee (dot :: behind))
  termination_by tokens.length
  decreasing_by (simp only [List.length_cons] at *; omega)

/-- Read embedded code behind its `@`. -/
def rawCode (final start : Token) (tokens : List Token) : Reading Expression tokens := do
  let ⟨_, behind, first⟩ ← expect final .nimWord tokens
  let ⟨opening, inner, second⟩ ← expect final .parenOpen behind
  let captured := RawCode.capture opening inner
  let code : Advance Expression inner :=
    ⟨.rawCode captured.code ⟨start.span.first, captured.last.span.last⟩, captured.rest,
      RawCode.length_capture_rest_le opening inner⟩
  return (code.after second).after first

/-- A token that ends a statement list. -/
def endsStatements (token : Token) : Bool :=
  token.kind = .closeKeyword || token.kind = .braceClose

mutual

/-- Read an expression. -/
def expression (final : Token) (room : Nat) (tokens : List Token) : Reading Expression tokens :=
  match room with
  | 0 => .error (.tooDeep (current final tokens).span.first)
  | room + 1 => do
      let ⟨left, behind, first⟩ ← comparison final room tokens
      let whole ← moreTerms final room left behind
      return whole.after first
  termination_by 16 * tokens.length + 4
  decreasing_by all_goals omega

/-- Read the further terms of a sum. -/
def moreTerms (final : Token) (room : Nat) (left : Expression) (tokens : List Token) :
    OptionalReading Expression tokens :=
  match tokens with
  | [] => .ok (.nothing left [])
  | operator :: operands =>
      if operator.kind.isAdditive then do
        let ⟨right, behind, first⟩ ← comparison final room operands
        let whole ← moreTerms final room (.binary operator.literal left right) behind
        return ((whole.after first).behindToken operator).toAdvance
      else
        .ok (.nothing left (operator :: operands))
  termination_by 16 * tokens.length + 3
  decreasing_by all_goals (simp only [List.length_cons] at *; omega)

/-- Read a term of a sum. -/
def comparison (final : Token) (room : Nat) (tokens : List Token) : Reading Expression tokens := do
  let ⟨left, behind, first⟩ ← chain final room tokens
  let whole ← moreComparisons final room left behind
  return whole.after first
  termination_by 16 * tokens.length + 3
  decreasing_by all_goals omega

/-- Read the further operands of a comparison. -/
def moreComparisons (final : Token) (room : Nat) (left : Expression) (tokens : List Token) :
    OptionalReading Expression tokens :=
  match tokens with
  | [] => .ok (.nothing left [])
  | operator :: operands =>
      if operator.kind.isComparison then do
        let ⟨right, behind, first⟩ ← chain final room operands
        let whole ← moreComparisons final room (.binary operator.literal left right) behind
        return ((whole.after first).behindToken operator).toAdvance
      else
        .ok (.nothing left (operator :: operands))
  termination_by 16 * tokens.length + 2
  decreasing_by all_goals (simp only [List.length_cons] at *; omega)

/-- Read a primary expression and the links behind it. -/
def chain (final : Token) (room : Nat) (tokens : List Token) : Reading Expression tokens := do
  let ⟨head, behind, first⟩ ← primary final room tokens
  let whole ← moreLinks final room head behind
  return whole.after first
  termination_by 16 * tokens.length + 2
  decreasing_by all_goals omega

/-- Read the further links of a chain: member accesses, calls and indices. -/
def moreLinks (final : Token) (room : Nat) (target : Expression) (tokens : List Token) :
    OptionalReading Expression tokens :=
  match tokens with
  | [] => .ok (.nothing target [])
  | link :: inner =>
      match link.kind with
      | .dot | .arrow => do
          let ⟨name, behind, first⟩ ← expectName final .propertyName inner
          let whole ← moreLinks final room (.member target name (link.kind = .arrow)) behind
          return ((whole.after first).behindToken link).toAdvance
      | .parenOpen => do
          let ⟨(arguments, closing), behind, first⟩ ← items final room .parenClose inner
          let whole ←
            moreLinks final room (.invocation target arguments closing.span.last) behind
          return ((whole.after first).behindToken link).toAdvance
      | .bracketOpen => do
          let ⟨position, behind, first⟩ ← expression final room inner
          let ⟨closing, after, closed⟩ ← expect final .bracketClose behind
          let whole ← moreLinks final room (.index target position closing.span.last) after
          return (((whole.after closed).after first).behindToken link).toAdvance
      | _ => .ok (.nothing target (link :: inner))
  termination_by 16 * tokens.length + 1
  decreasing_by all_goals (simp only [List.length_cons] at *; omega)

/-- Read expressions separated by commas, up to and including the closing token. -/
def items (final : Token) (room : Nat) (closing : Expectation) (tokens : List Token) :
    Reading (List Expression × Token) tokens :=
  if (current final tokens).kind = closing.kind then do
    let token ← expect final closing tokens
    return token.map fun token => ([], token)
  else do
    let ⟨values, behind, first⟩ ← moreItems final room [] tokens
    let token ← expect final closing behind
    return (token.map fun token => (values, token)).after first
  termination_by 16 * tokens.length + 6
  decreasing_by all_goals omega

/-- Read at least one more item behind items that are already read, newest first. -/
def moreItems (final : Token) (room : Nat) (read : List Expression) (tokens : List Token) :
    Reading (List Expression) tokens := do
  let ⟨value, behind, first⟩ ← expression final room tokens
  match behind, first with
  | [], first => return ⟨(value :: read).reverse, [], first⟩
  | comma :: after, first =>
      if comma.kind = .comma then
        let values ← moreItems final room (value :: read) after
        return (values.behindToken comma).after first
      else
        return ⟨(value :: read).reverse, comma :: after, first⟩
  termination_by 16 * tokens.length + 5
  decreasing_by all_goals grind

/-- Read a primary expression. -/
def primary (final : Token) (room : Nat) (tokens : List Token) : Reading Expression tokens :=
  match tokens with
  | [] => .error (.unexpected final)
  | token :: behind =>
      match leaf? token with
      | some leaf => .ok (takeFirst leaf token behind)
      | none =>
          match token.kind with
          | .newKeyword => do
              let ⟨name, after, first⟩ ← expectName final .className behind
              let ⟨callee, inner, second⟩ ← className final (.identifier name) after
              let ⟨_, inside, opened⟩ ← expect final .parenOpen inner
              let arguments ← items final room .parenClose inside
              let construction := arguments.map fun (arguments, closing) =>
                .construction callee arguments ⟨token.span.first, closing.span.last⟩
              return (((construction.after opened).afterOptional second).after first).behindToken
                token
          | .functionKeyword => do
              let closure ← procedure final room behind
              return (closure.map fun (names, body) =>
                .closure names body token.span.first).behindToken token
          | .atSign => do
              let code ← rawCode final token behind
              return code.behindToken token
          | .bracketOpen => do
              let values ← items final room .bracketClose behind
              return (values.map fun (values, closing) =>
                .array values ⟨token.span.first, closing.span.last⟩).behindToken token
          | .parenOpen => do
              let ⟨inner, after, first⟩ ← expression final room behind
              let closing ← expect final .parenClose after
              return ((closing.map fun _ => inner).after first).behindToken token
          | _ => .error (.unexpected token)
  termination_by 16 * tokens.length + 1
  decreasing_by all_goals (simp only [List.length_cons] at *; omega)

/-- Read parameters and a body. -/
def procedure (final : Token) (room : Nat) (tokens : List Token) :
    Reading (List Identifier × Block) tokens := do
  let ⟨names, behind, first⟩ ← parameters final tokens
  let body ← block final room behind
  return (body.map fun body => (names, body)).after first
  termination_by 16 * tokens.length + 1
  decreasing_by all_goals omega

/-- Read a body between `ouvrir` and `refermer`. -/
def block (final : Token) (room : Nat) (tokens : List Token) : Reading Block tokens := do
  let ⟨opening, inner, first⟩ ← expect final .openWord tokens
  let body ← blockRest final room opening .closeWord inner
  return body.after first
  termination_by 16 * tokens.length + 1
  decreasing_by all_goals omega

/-- Read the body of a loop, which may also stand between braces. -/
def loopBlock (final : Token) (room : Nat) (tokens : List Token) : Reading Block tokens :=
  match tokens with
  | [] => .error (.expected .loopOpen final)
  | opening :: inner =>
      if opening.kind = .braceOpen then do
        let body ← blockRest final room opening .braceClose inner
        return body.behindToken opening
      else if opening.kind = .openKeyword then do
        let body ← blockRest final room opening .closeWord inner
        return body.behindToken opening
      else
        .error (.expected .loopOpen opening)
  termination_by 16 * tokens.length + 1
  decreasing_by all_goals (simp only [List.length_cons] at *; omega)

/-- Read statements and the token that closes them. -/
def blockRest (final : Token) (room : Nat) (opening : Token) (closing : Expectation)
    (tokens : List Token) : Reading Block tokens := do
  have skipped := length_skipNewlines_le tokens
  let ⟨body, behind, first⟩ ← statements final room [] (skipNewlines tokens)
  let token ← expect final closing behind
  let whole := token.map fun token => Block.of body ⟨opening.span.first, token.span.last⟩
  return (whole.afterOptional first).afterOptional skipped
  termination_by 16 * tokens.length + 8
  decreasing_by all_goals omega

/-- Read statements behind statements that are already read, newest first. -/
def statements (final : Token) (room : Nat) (read : List Statement) (tokens : List Token) :
    OptionalReading (List Statement) tokens :=
  match tokens with
  | [] => .ok (.nothing read.reverse [])
  | token :: behind =>
      if endsStatements token then
        .ok (.nothing read.reverse (token :: behind))
      else do
        let ⟨next, after, first⟩ ← statement final room (token :: behind)
        have skipped := length_skipNewlines_le after
        let all ← statements final room (next :: read) (skipNewlines after)
        return ((all.afterOptional skipped).after first).toAdvance
  termination_by 16 * tokens.length + 7
  decreasing_by all_goals (simp only [List.length_cons] at *; omega)

/-- Read a statement. -/
def statement (final : Token) (room : Nat) (tokens : List Token) : Reading Statement tokens :=
  match tokens with
  | [] => simple final room []
  | token :: behind =>
      match token.kind with
      | .returnKeyword => do
          let value ← expression final room behind
          return (value.map fun value => .returned value token.span.first).behindToken token
      | .variableKeyword => do
          let declared ← variableRest final room token behind
          return declared.behindToken token
      | .forKeyword => do
          let loop ← forRest final room token behind
          return loop.behindToken token
      | .whileKeyword => do
          let loop ← whileRest final room token behind
          return loop.behindToken token
      | .ifKeyword => do
          let branch ← ifRest final room token behind
          return branch.behindToken token
      | _ => simple final room (token :: behind)
  termination_by 16 * tokens.length + 6
  decreasing_by all_goals grind

/-- Read an expression, or an assignment if an equal sign follows it. -/
def simple (final : Token) (room : Nat) (tokens : List Token) : Reading Statement tokens := do
  let ⟨target, behind, first⟩ ← expression final room tokens
  match behind, first with
  | [], first => return ⟨.evaluated target, [], first⟩
  | equal :: after, first =>
      if equal.kind = .equal then
        let value ← expression final room after
        return ((value.map fun value => .assigned target value).behindToken equal).after first
      else
        return ⟨.evaluated target, equal :: after, first⟩
  termination_by 16 * tokens.length + 5
  decreasing_by all_goals grind

/-- Read a variable declaration behind its keyword. -/
def variableRest (final : Token) (room : Nat) (start : Token) (tokens : List Token) :
    Reading Statement tokens := do
  let ⟨name, behind, first⟩ ← expectName final .variableName tokens
  let ⟨_, after, second⟩ ← expect final .equalWord behind
  let value ← expression final room after
  let declared := value.map fun value => Statement.declared name value start.span.first
  return (declared.after second).after first
  termination_by 16 * tokens.length + 1
  decreasing_by all_goals omega

/-- Read a condition between parentheses. -/
def condition (final : Token) (room : Nat) (tokens : List Token) : Reading Expression tokens := do
  let ⟨_, inner, first⟩ ← expect final .parenOpen tokens
  let ⟨test, behind, second⟩ ← expression final room inner
  let closing ← expect final .parenClose behind
  return ((closing.map fun _ => test).after second).after first
  termination_by 16 * tokens.length + 1
  decreasing_by all_goals omega

/-- Read an if statement behind its keyword. -/
def ifRest (final : Token) (room : Nat) (start : Token) (tokens : List Token) :
    Reading Statement tokens := do
  let ⟨test, behind, first⟩ ← condition final room tokens
  let ⟨consequent, after, second⟩ ← block final room behind
  let branch := fun alternative =>
    Statement.conditional test consequent alternative start.span.first
  match after, second with
  | [], second =>
      let short : Progress Statement behind := ⟨branch .missing, [], second⟩
      return short.after first
  | word :: inner, second =>
      if word.kind = .elseKeyword then
        let alternative ← block final room inner
        return (((alternative.map branch).behindToken word).after second).after first
      else
        let short : Progress Statement behind := ⟨branch .missing, word :: inner, second⟩
        return short.after first
  termination_by 16 * tokens.length + 2
  decreasing_by all_goals grind

/-- Read a while statement behind its keyword. -/
def whileRest (final : Token) (room : Nat) (start : Token) (tokens : List Token) :
    Reading Statement tokens := do
  let ⟨test, behind, first⟩ ← condition final room tokens
  let body ← loopBlock final room behind
  return (body.map fun body => Statement.whileLoop test body start.span.first).after first
  termination_by 16 * tokens.length + 2
  decreasing_by all_goals omega

/-- Read a clause of a for statement, unless the token that ends it comes first. -/
def clause (final : Token) (room : Nat) (closing : TokenKind) (tokens : List Token) :
    OptionalReading Statement tokens :=
  match tokens with
  | [] => do
      let value ← simple final room []
      return value.toAdvance
  | token :: behind =>
      if token.kind = closing then
        .ok (.nothing .missing (token :: behind))
      else if token.kind = .variableKeyword then do
        let declared ← variableRest final room token behind
        return (declared.behindToken token).toAdvance
      else do
        let value ← simple final room (token :: behind)
        return value.toAdvance
  termination_by 16 * tokens.length + 6
  decreasing_by all_goals grind

/-- Read the test of a for statement, unless the token that ends it comes first. -/
def optionalTest (final : Token) (room : Nat) (tokens : List Token) :
    OptionalReading Expression tokens :=
  if (current final tokens).kind = .semicolon then
    .ok (.nothing .missing tokens)
  else do
    let test ← expression final room tokens
    return test.toAdvance
  termination_by 16 * tokens.length + 5
  decreasing_by all_goals omega

/-- Read a for statement behind its keyword. -/
def forRest (final : Token) (room : Nat) (start : Token) (tokens : List Token) :
    Reading Statement tokens := do
  let ⟨_, inner, opened⟩ ← expect final .parenOpen tokens
  let ⟨initial, behindInitial, first⟩ ← clause final room .semicolon inner
  let ⟨_, beforeTest, second⟩ ← expect final .semicolon behindInitial
  let ⟨test, behindTest, third⟩ ← optionalTest final room beforeTest
  let ⟨_, beforeIncrement, fourth⟩ ← expect final .semicolon behindTest
  let ⟨increment, behindIncrement, fifth⟩ ← clause final room .parenClose beforeIncrement
  let ⟨_, beforeBody, sixth⟩ ← expect final .parenClose behindIncrement
  let body ← loopBlock final room beforeBody
  let loop := body.map fun body =>
    Statement.forLoop initial test increment body start.span.first
  let fromIncrement := ((loop.after sixth).afterOptional fifth).after fourth
  let fromTest := (fromIncrement.afterOptional third).after second
  return (fromTest.afterOptional first).after opened
  termination_by 16 * tokens.length + 1
  decreasing_by all_goals omega

end

end Grammar

end FrenchNim
