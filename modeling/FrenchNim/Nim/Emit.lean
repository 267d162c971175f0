import FrenchNim.Number.Layout
import FrenchNim.Syntax.Element

namespace FrenchNim

/-!
# Nim code of statements and expressions

Emission follows the tree. Statements stand on lines of their own, indented by
two spaces per level. It fails only on a node that it does not know.
-/

/-- A node that has no Nim form, by kind and range. -/
structure UnsupportedNode where
  kind : ElementKind
  span : Span
  deriving Repr, DecidableEq

namespace Nim

/-- Where code is emitted: at which depth, and whether inside a constructor. -/
structure Place where
  depth : Nat
  inConstructor : Bool
  deriving Repr, DecidableEq

namespace Place

/-- The top level of a file. -/
def top : Place := ⟨0, false⟩

/-- One level further in. -/
def nested (place : Place) : Place :=
  { place with depth := place.depth + 1 }

/-- The indentation of a line. -/
def indentation (place : Place) : String :=
  String.ofList (List.replicate (2 * place.depth) ' ')

end Place

/-- Numbers are written without a sign of zero, and the special values by name. -/
def numberStyle : NumberStyle :=
  { zero := "0"
    negativeZero := "0"
    infinity := "Infinity"
    negativeInfinity := "-Infinity"
    nan := "NaN" }

/-- Methods whose calls never pass arguments. -/
def argumentlessMethods : List String :=
  ["parler", "recupererNom"]

/-- The name of the instance that a constructor builds. -/
def resultName : String := "result"

/-- A string literal: both kinds of quotes are escaped, nothing else is. -/
def stringLiteral (value : String) : String :=
  let escaped := value.toList.flatMap fun c =>
    if c = '"' then ['\\', '"'] else if c = '\'' then ['\\', '\''] else [c]
  String.ofList ('"' :: escaped ++ ['"'])

/-- A name in expression position. Self-reference means the result inside a constructor. -/
def name (place : Place) (identifier : Identifier) : String :=
  if identifier.name = selfName ∧ place.inConstructor then resultName else identifier.name

/-- Typed parameters behind parameters that are already written. -/
def parameterList (leading : List String) (parameters : List Identifier) : String :=
  String.intercalate ", " (leading ++ parameters.map (·.name ++ ": auto"))

/-- Arguments between parentheses. -/
def call (callee : String) (arguments : List String) : String :=
  callee ++ "(" ++ String.intercalate ", " arguments ++ ")"

/-- The failure at a missing node. -/
def missingNode : UnsupportedNode := ⟨.unknown, .zero⟩

mutual

/-- The Nim code of an expression. -/
def emitExpression (place : Place) : Expression → Except UnsupportedNode String
  | .bool value _ => return if value then "true" else "false"
  | .number _ value _ => return value.text numberStyle
  | .string value _ => return stringLiteral value
  | .array [] _ => return "newSeq[string]()"
  | .array (first :: rest) _ => do
      let head ← emitExpression place first
      let tail ← emitExpressions place rest
      return "@[" ++ String.intercalate ", " (head :: tail) ++ "]"
  | .identifier identifier => return name place identifier
  | .invocation (.member target method _) arguments _ => do
      let object ← emitExpression place target
      let callee := object ++ "." ++ method.name
      if argumentlessMethods.contains method.name then
        return call callee []
      else
        return call callee (← emitExpressions place arguments)
  | .invocation callee arguments _ => do
      let callee ← emitExpression place callee
      let arguments ← emitExpressions place arguments
      return call callee arguments
  | .member target member _ => do
      let object ← emitExpression place target
      return object ++ "." ++ member.name
  | .index target position _ => do
      let target ← emitExpression place target
      let position ← emitExpression place position
      return target ++ "[" ++ position ++ "]"
  | .binary operator left right => do
      let left ← emitExpression place left
      let right ← emitExpression place right
      return "(" ++ left ++ operator ++ right ++ ")"
  | .closure parameters body _ => do
      let body ← emitBlock place.nested body
      return "proc(" ++ parameterList [] parameters ++ "): auto \x7b.closure, gcsafe.\x7d =\n" ++
        body
  | .construction callee arguments _ => do
      let callee ← emitExpression place callee
      let arguments ← emitExpressions place arguments
      return call callee arguments
  | .rawCode code _ => return code
  | .unknown kind span => throw ⟨kind, span⟩
  | .missing => throw missingNode

/-- The Nim code of each expression of a list. -/
def emitExpressions (place : Place) : List Expression → Except UnsupportedNode (List String)
  | [] => return []
  | first :: rest => do
      let first ← emitExpression place first
      let rest ← emitExpressions place rest
      return first :: rest

/-- The Nim code of the statements of a block. -/
def emitBlock (place : Place) : Block → Except UnsupportedNode String
  | .of statements _ => emitStatements place statements
  | .missing => return ""

/-- The Nim code of statements, one after the other. -/
def emitStatements (place : Place) : List Statement → Except UnsupportedNode String
  | [] => return ""
  | first :: rest => do
      let first ← emitStatement place first
      let rest ← emitStatements place rest
      return first ++ rest

/--
The Nim code of a statement.

Variables are exported at the top level only. A for loop is a while loop behind
its first clause, with its last clause at the end of the body; a test that is
left out is always met.
-/
def emitStatement (place : Place) : Statement → Except UnsupportedNode String
  | .returned value _ => do
      let value ← emitExpression place value
      return place.indentation ++ "return " ++ value ++ "\n"
  | .declared identifier value _ => do
      let value ← emitExpression place value
      let exported := if place.depth = 0 then "*" else ""
      return place.indentation ++ "var " ++ identifier.name ++ exported ++ " = " ++ value ++ "\n"
  | .assigned target value => do
      let target ← emitExpression place target
      let value ← emitExpression place value
      return place.indentation ++ target ++ " = " ++ value ++ "\n"
  | .evaluated value => do
      let value ← emitExpression place value
      return place.indentation ++ value ++ "\n"
  | .conditional test consequent alternative _ => do
      let test ← emitExpression place test
      let body ← emitBlock place.nested consequent
      let otherwise ← emitBlock place.nested alternative
      let branch := place.indentation ++ "if " ++ test ++ ":\n" ++ body
      if alternative.isEmpty then
        return branch
      else
        return branch ++ place.indentation ++ "else:\n" ++ otherwise
  | .whileLoop test body _ => do
      let test ← emitExpression place test
      let body ← emitBlock place.nested body
      return place.indentation ++ "while " ++ test ++ ":\n" ++ body
  | .forLoop initial test increment body _ => do
      let initial ←
        match initial with
        | .missing => pure ""
        | _ => emitStatement place initial
      let test ←
        match test with
        | .missing => pure "true"
        | _ => emitExpression place test
      let body ← emitBlock place.nested body
      let increment ←
        match increment with
        | .missing => pure ""
        | _ => emitStatement place.nested increment
      return initial ++ place.indentation ++ "while " ++ test ++ ":\n" ++ body ++ increment
  | .unknown kind span => throw ⟨kind, span⟩
  | .missing => throw missingNode

end

/-- The Nim code of a clause of a loop, empty if it is left out. -/
def emitClause (place : Place) : Statement → Except UnsupportedNode String
  | .missing => return ""
  | clause => emitStatement place clause

/-- The Nim code of the test of a loop, always met if it is left out. -/
def emitTest (place : Place) : Expression → Except UnsupportedNode String
  | .missing => return "true"
  | test => emitExpression place test

/-- What follows a clause is told by whether the clause is left out. -/
theorem emitClause_bind
    (place : Place)
    (clause : Statement)
    (next : String → Except UnsupportedNode String) :
    (emitClause place clause >>= next) =
      match clause with
      | .missing => pure "" >>= next
      | _ => emitStatement place clause >>= next := by
  cases clause <;> rfl

/-- What follows a test is told by whether the test is left out. -/
theorem emitTest_bind
    (place : Place)
    (test : Expression)
    (next : String → Except UnsupportedNode String) :
    (emitTest place test >>= next) =
      match test with
      | .missing => pure "true" >>= next
      | _ => emitExpression place test >>= next := by
  cases test <;> rfl

/-- A for loop in terms of its clauses and its test. -/
theorem emitStatement_forLoop
    (place : Place)
    (initial : Statement)
    (test : Expression)
    (increment : Statement)
    (body : Block)
    (first : Position) :
    emitStatement place (.forLoop initial test increment body first) = do
      let initial ← emitClause place initial
      let test ← emitTest place test
      let body ← emitBlock place.nested body
      let increment ← emitClause place.nested increment
      return initial ++ place.indentation ++ "while " ++ test ++ ":\n" ++ body ++ increment := by
  rw [emitStatement.eq_def]
  simp only [emitClause_bind, emitTest_bind]

end Nim

end FrenchNim
