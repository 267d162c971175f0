import FrenchNim.Nim.Module
import FrenchNim.Proofs.Nim.Signs

namespace FrenchNim

/-!
# Emitted code as a row of chunks

The text of a module does not tell where its blocks begin: a line that ends in a
colon may as well be embedded code. So emission is followed once more as a row of
chunks, which keeps the line breaks apart from the code, and those behind the
header of a block from the others. The row spells the text that is emitted.
-/

namespace Nim

/-- A piece of emitted code. -/
inductive Chunk where
  | code (text : String)
  | lineBreak
  /-- The line break behind the header of a block, with the depth of the header. -/
  | header (depth : Nat)
  deriving Repr, DecidableEq

namespace Chunk

/-- The characters of a chunk. -/
def chars : Chunk → List Char
  | code text => text.toList
  | lineBreak => ['\n']
  | header _ => ['\n']

/-- The characters of a row. -/
def spelled (row : List Chunk) : List Char :=
  row.flatMap chars

/-- The text of a row. -/
def written (row : List Chunk) : String :=
  String.ofList (spelled row)

section Spelled

variable (text : String) (depth : Nat) (row rest : List Chunk)

@[simp] theorem spelled_nil : spelled [] = [] :=
  rfl

/-- A piece of code is spelled by its characters. -/
@[simp] theorem spelled_code : spelled (code text :: rest) = text.toList ++ spelled rest :=
  rfl

/-- A line break is spelled by one character. -/
@[simp] theorem spelled_lineBreak : spelled (lineBreak :: rest) = '\n' :: spelled rest :=
  rfl

/-- The end of a header is spelled as a line break. -/
@[simp] theorem spelled_header : spelled (header depth :: rest) = '\n' :: spelled rest :=
  rfl

@[simp] theorem spelled_append : spelled (row ++ rest) = spelled row ++ spelled rest :=
  List.flatMap_append

@[simp] theorem written_nil : written [] = "" :=
  rfl

@[simp] theorem written_append : written (row ++ rest) = written row ++ written rest := by
  rw [written, spelled_append, String.ofList_append]
  rfl

@[simp] theorem written_code : written (code text :: rest) = text ++ written rest := by
  rw [written, spelled_code, String.ofList_append, String.ofList_toList]
  rfl

/-- A single piece of code is written as it is. -/
theorem written_single : written [code text] = text := by
  rw [written_code, written_nil, String.append_empty]

@[simp] theorem written_lineBreak : written (lineBreak :: rest) = "\n" ++ written rest := by
  rw [written, spelled_lineBreak, ← List.singleton_append, String.ofList_append]
  rfl

@[simp] theorem written_header : written (header depth :: rest) = "\n" ++ written rest :=
  written_lineBreak rest

end Spelled

end Chunk

open Chunk (written)

/-! ## The rows of a tree -/

/-- The header of a closure. -/
def closureHeader (parameters : List Identifier) : String :=
  "proc(" ++ parameterList [] parameters ++ "): auto \x7b.closure, gcsafe.\x7d ="

/-- What a variable is declared with in front of its value. -/
def variableHead (place : Place) (identifier : Identifier) : String :=
  "var " ++ identifier.name ++ (if place.depth = 0 then "*" else "") ++ " = "

mutual

/-- The row of an expression. -/
def expressionRow (place : Place) : Expression → List Chunk
  | .array (first :: rest) _ =>
      .code "@[" :: (itemsRow place "" (first :: rest) ++ [.code "]"])
  | .invocation callee arguments _ =>
      expressionRow place callee ++ .code "(" ::
        ((if ignoresArguments callee then [] else itemsRow place "" arguments) ++ [.code ")"])
  | .member target name _ => expressionRow place target ++ [.code ("." ++ name.name)]
  | .index target position _ =>
      expressionRow place target ++ .code "[" :: (expressionRow place position ++ [.code "]"])
  | .binary operator left right =>
      .code "(" :: (expressionRow place left ++
        .code operator :: (expressionRow place right ++ [.code ")"]))
  | .closure parameters body _ =>
      .code (closureHeader parameters) :: .header place.depth :: blockRow place.nested body
  | .construction callee arguments _ =>
      expressionRow place callee ++
        .code "(" :: (itemsRow place "" arguments ++ [.code ")"])
  | value => [.code (code place value)]

/-- The row of a list of expressions, the first of which stands behind a separator of its own. -/
def itemsRow (place : Place) (separator : String) : List Expression → List Chunk
  | [] => []
  | first :: rest => .code separator :: (expressionRow place first ++ itemsRow place ", " rest)

/-- The row of a block. -/
def blockRow (place : Place) : Block → List Chunk
  | .of statements _ => statementsRow place statements
  | .missing => []

/-- The row of statements. -/
def statementsRow (place : Place) : List Statement → List Chunk
  | [] => []
  | first :: rest => statementRow place first ++ statementsRow place rest

/-- The row of a statement. A clause that is left out has none. -/
def statementRow (place : Place) : Statement → List Chunk
  | .returned value _ =>
      .code place.indentation :: .code "return " :: (expressionRow place value ++ [.lineBreak])
  | .declared identifier value _ =>
      .code place.indentation :: .code (variableHead place identifier) ::
        (expressionRow place value ++ [.lineBreak])
  | .assigned target value =>
      .code place.indentation :: (expressionRow place target ++
        .code " = " :: (expressionRow place value ++ [.lineBreak]))
  | .evaluated value => .code place.indentation :: (expressionRow place value ++ [.lineBreak])
  | .conditional test consequent alternative _ =>
      .code place.indentation :: .code "if " :: (expressionRow place test ++
        .code ":" :: .header place.depth :: (blockRow place.nested consequent ++
          if alternative.isEmpty then []
          else
            .code place.indentation :: .code "else:" :: .header place.depth ::
              blockRow place.nested alternative))
  | .whileLoop test body _ =>
      .code place.indentation :: .code "while " :: (expressionRow place test ++
        .code ":" :: .header place.depth :: blockRow place.nested body)
  | .forLoop initial test increment body _ =>
      statementRow place initial ++
        .code place.indentation :: .code "while " ::
          ((if test.isPresent then expressionRow place test else [.code "true"]) ++
            .code ":" :: .header place.depth ::
              (blockRow place.nested body ++ statementRow place.nested increment))
  | .unknown _ _ => []
  | .missing => []

end

/-- The row of a procedure. -/
def procedureRow (name parameters : String) (body : Block) : List Chunk :=
  .code ("proc " ++ name ++ "*(" ++ parameters ++ ")" ++ (if body.returns then ": auto" else "") ++
    " =") :: .header 0 :: blockRow Place.top.nested body

/-- The row of the procedure that builds an instance of a class. -/
def constructorRow (className : String) (constructor? : Option Constructor) : List Chunk :=
  .code ("proc new" ++ className ++ "*(" ++
    parameterList [] ((constructor?.map (·.parameters)).getD []) ++ "): " ++ className ++ " =") ::
  .header 0 :: .code constructorPlace.indentation ::
  .code (resultName ++ " = " ++ className ++ "()") :: .lineBreak ::
  blockRow constructorPlace ((constructor?.map (·.body)).getD .missing)

/-- The row of the methods of a class. -/
def methodsRow (className : String) : List Method → List Chunk
  | [] => []
  | method :: rest =>
      procedureRow method.name.name
        (parameterList [selfName ++ ": " ++ className] method.parameters) method.body ++
      .lineBreak :: methodsRow className rest

/-- What stands in front of the procedures of a class. -/
def classHead (className : String) (constructor? : Option Constructor) : String :=
  "type " ++ className ++ "* = ref object\n" ++
    String.join (((Declaration.fields? constructor?).getD []).map
      (Place.top.nested.indentation ++ · ++ "*: auto\n")) ++ "\n"

/-- The row of a declaration. -/
def declarationRow : Declaration → List Chunk
  | .imported _ _ _ _ => []
  | .classType name constructor? methods _ =>
      .code (classHead name.name constructor?) ::
        (constructorRow name.name constructor? ++ .lineBreak :: methodsRow name.name methods)
  | .function name parameters body _ =>
      procedureRow name.name (parameterList [] parameters) body
  | .typeName name external _ =>
      [.code (if external then "# External type: " ++ name.name
        else "type " ++ name.name ++ "* = object")]
  | .constant name value _ =>
      .code ("const " ++ name.name ++ "* = ") :: expressionRow Place.top value
  | .statement body => statementRow Place.top body

/-- The row of declarations. Blank ones are left out, and imports are. -/
def declarationsRow : List Declaration → List Chunk
  | [] => []
  | first :: rest =>
      if trimText (written (declarationRow first)) = "" then
        declarationsRow rest
      else
        declarationRow first ++ .lineBreak :: declarationsRow rest

/-- The row of a module. -/
def programRow (library : String) (program : Program) : List Chunk :=
  .code ("import " ++ library ++ "\n" ++
    String.join ((program.declarations.filterMap emitImport?).map (· ++ "\n")) ++ "\n") ::
  declarationsRow program.declarations

/-! ## Rows spell the code -/

/-- A list with commas is its first text with the others behind a comma each. -/
theorem intercalate_cons (first : String) (rest : List String) :
    String.intercalate ", " (first :: rest) = first ++ String.join (rest.map (", " ++ ·)) := by
  induction rest generalizing first with
  | nil =>
      rw [String.intercalate_singleton, List.map_nil, String.join_nil, String.append_empty]
  | cons second others inductionHypothesis =>
      rw [String.intercalate_cons_cons, inductionHypothesis, List.map_cons, String.join_cons]
      simp only [String.append_assoc]

/-- A line and its break, written at once. -/
theorem append_lineBreak
    {line ended : String}
    (same : line ++ "\n" = ended)
    (text : String) :
    line ++ ("\n" ++ text) = ended ++ text := by
  rw [← String.append_assoc, same]

/-- A clause of a loop is spelled by its row, if it is where it is there. -/
theorem emitClause_eq_written
    {place : Place}
    {clause : Statement}
    (known : clause ≠ .missing →
      emitStatement place clause = .ok (written (statementRow place clause))) :
    emitClause place clause = .ok (written (statementRow place clause)) := by
  cases clause with
  | missing => rfl
  | _ => exact known (by simp)

/-- The test of a loop is spelled by its row, if it is where it is there. -/
theorem emitTest_eq_written
    {place : Place}
    {test : Expression}
    (known : test ≠ .missing →
      emitExpression place test = .ok (written (expressionRow place test))) :
    emitTest place test =
      .ok (written (if test.isPresent then expressionRow place test else [.code "true"])) := by
  cases test with
  | missing => rfl
  | _ => exact known (by simp)

variable {vocabulary : Vocabulary}

/-- An expression whose row spells its code is spelled by its row. -/
theorem emitExpression_eq_of_row
    {place : Place}
    {value : Expression}
    (isOver : value.Over vocabulary)
    (row : written (expressionRow place value) = code place value) :
    emitExpression place value = .ok (written (expressionRow place value)) := by
  rw [emitExpression_eq_code isOver, row]

mutual

/-- The row of an expression spells its code. -/
theorem written_expressionRow (place : Place) :
    ∀ {value : Expression}, value.Over vocabulary →
      written (expressionRow place value) = code place value
  | .bool _ _, _ => Chunk.written_single _
  | .number _ _ _, _ => Chunk.written_single _
  | .string _ _, _ => Chunk.written_single _
  | .array [] _, _ => Chunk.written_single _
  | .array (first :: rest) _, isOver => by
      rw [expressionRow, code_array isOver, Chunk.written_code, Chunk.written_append,
        written_itemsRow place isOver, Chunk.written_single, String.append_assoc]
  | .identifier _, _ => Chunk.written_single _
  | .invocation callee arguments _, ⟨calleeOver, argumentsOver⟩ => by
      rw [expressionRow, code_invocation calleeOver argumentsOver, Chunk.written_append,
        written_expressionRow place calleeOver, passedCodes, call]
      split
      · rfl
      · rw [Chunk.written_code, Chunk.written_append, written_itemsRow place argumentsOver,
          Chunk.written_single, String.empty_append, String.append_assoc]
  | .member target _ _, ⟨targetOver, _⟩ => by
      rw [expressionRow, code_member targetOver, Chunk.written_append,
        written_expressionRow place targetOver, Chunk.written_single]
  | .index target position _, ⟨targetOver, positionOver⟩ => by
      rw [expressionRow, code_index targetOver positionOver]
      simp only [Chunk.written_append, Chunk.written_code, Chunk.written_nil, String.append_empty,
        written_expressionRow place targetOver, written_expressionRow place positionOver,
        String.append_assoc]
  | .binary _ left right, ⟨_, leftOver, rightOver⟩ => by
      rw [expressionRow, code_binary leftOver rightOver]
      simp only [Chunk.written_append, Chunk.written_code, Chunk.written_nil, String.append_empty,
        written_expressionRow place leftOver, written_expressionRow place rightOver,
        String.append_assoc]
  | .closure parameters body _, ⟨_, bodyOver⟩ => by
      rw [expressionRow, code, emitExpression, emitBlock_eq_written place.nested bodyOver,
        Chunk.written_code, Chunk.written_header, closureHeader]
      simp only [String.append_assoc]
      rfl
  | .construction callee arguments _, ⟨calleeOver, argumentsOver⟩ => by
      rw [expressionRow, code_construction calleeOver.over argumentsOver, call]
      simp only [Chunk.written_append, Chunk.written_code, Chunk.written_nil, String.append_empty,
        written_expressionRow place calleeOver.over, written_itemsRow place argumentsOver,
        String.empty_append, String.append_assoc]
  | .rawCode _ _, _ => Chunk.written_single _

/-- Items are written with commas between them. -/
theorem written_itemsRow (place : Place) :
    ∀ {values : List Expression}, Expression.AllOver vocabulary values →
      written (itemsRow place "" values) = String.intercalate ", " (values.map (code place))
  | [], _ => rfl
  | first :: rest, ⟨firstOver, restOver⟩ => by
      rw [itemsRow, Chunk.written_code, Chunk.written_append, written_expressionRow place firstOver,
        written_furtherRow place restOver, String.empty_append, List.map_cons, intercalate_cons]

/-- Further items are written with a comma before each of them. -/
theorem written_furtherRow (place : Place) :
    ∀ {values : List Expression}, Expression.AllOver vocabulary values →
      written (itemsRow place ", " values) =
        String.join ((values.map (code place)).map (", " ++ ·))
  | [], _ => rfl
  | first :: rest, ⟨firstOver, restOver⟩ => by
      rw [itemsRow, Chunk.written_code, Chunk.written_append, written_expressionRow place firstOver,
        written_furtherRow place restOver, List.map_cons, List.map_cons, String.join_cons,
        String.append_assoc]

/-- The row of a block spells its code. -/
theorem emitBlock_eq_written (place : Place) :
    ∀ {block : Block}, block.Over vocabulary →
      emitBlock place block = .ok (written (blockRow place block))
  | .of statements _, isOver => by
      rw [emitBlock, blockRow, emitStatements_eq_written place isOver]

/-- The code of several statements is what their row writes. -/
theorem emitStatements_eq_written (place : Place) :
    ∀ {nodes : List Statement}, Statement.AllOver vocabulary nodes →
      emitStatements place nodes = .ok (written (statementsRow place nodes))
  | [], _ => rfl
  | first :: rest, ⟨firstOver, restOver⟩ => by
      rw [emitStatements, statementsRow, emitStatement_eq_written place firstOver,
        emitStatements_eq_written place restOver, Chunk.written_append]
      rfl

/-- The row of a statement spells its code. -/
theorem emitStatement_eq_written (place : Place) :
    ∀ {node : Statement}, node.Over vocabulary →
      emitStatement place node = .ok (written (statementRow place node))
  | .returned _ _, valueOver => by
      rw [emitStatement, emitExpression_eq_of_row valueOver (written_expressionRow place valueOver)]
      refine congrArg Except.ok ?_
      simp [statementRow, String.append_assoc]
  | .declared _ _ _, ⟨_, valueOver⟩ => by
      rw [emitStatement, emitExpression_eq_of_row valueOver (written_expressionRow place valueOver)]
      refine congrArg Except.ok ?_
      simp [statementRow, variableHead, String.append_assoc]
  | .assigned _ _, ⟨targetOver, valueOver⟩ => by
      rw [emitStatement, emitExpression_eq_of_row targetOver (written_expressionRow place targetOver),
        emitExpression_eq_of_row valueOver (written_expressionRow place valueOver)]
      refine congrArg Except.ok ?_
      simp [statementRow, String.append_assoc]
  | .evaluated _, valueOver => by
      rw [emitStatement, emitExpression_eq_of_row valueOver (written_expressionRow place valueOver)]
      refine congrArg Except.ok ?_
      simp [statementRow, String.append_assoc]
  | .conditional _ _ alternative _, ⟨testOver, consequentOver, alternativeOver⟩ => by
      have otherwise : emitBlock place.nested alternative =
          .ok (written (blockRow place.nested alternative)) := by
        rcases alternativeOver with rfl | alternativeOver
        · rfl
        · exact emitBlock_eq_written place.nested alternativeOver
      rw [emitStatement, emitExpression_eq_of_row testOver (written_expressionRow place testOver),
        emitBlock_eq_written place.nested consequentOver, otherwise, statementRow]
      by_cases isEmpty : alternative.isEmpty
      · simp only [isEmpty, if_true]
        refine congrArg Except.ok ?_
        simp [String.append_assoc, append_lineBreak (rfl : ":" ++ "\n" = ":\n")]
      · simp only [isEmpty]
        refine congrArg Except.ok ?_
        simp [String.append_assoc, append_lineBreak (rfl : ":" ++ "\n" = ":\n"),
          append_lineBreak (rfl : "else:" ++ "\n" = "else:\n")]
  | .whileLoop _ _ _, ⟨testOver, bodyOver⟩ => by
      rw [emitStatement, emitExpression_eq_of_row testOver (written_expressionRow place testOver),
        emitBlock_eq_written place.nested bodyOver]
      refine congrArg Except.ok ?_
      simp [statementRow, String.append_assoc, append_lineBreak (rfl : ":" ++ "\n" = ":\n")]
  | .forLoop _ _ _ _ _, ⟨initialOver, testOver, incrementOver, bodyOver⟩ => by
      have initial := emitClause_eq_written fun present =>
        emitStatement_eq_written place (initialOver.resolve_left present).2
      have test := emitTest_eq_written fun present =>
        emitExpression_eq_of_row (testOver.resolve_left present)
          (written_expressionRow place (testOver.resolve_left present))
      have increment := emitClause_eq_written fun present =>
        emitStatement_eq_written place.nested (incrementOver.resolve_left present).2
      rw [emitStatement_forLoop, initial, test, emitBlock_eq_written place.nested bodyOver,
        increment]
      refine congrArg Except.ok ?_
      simp [statementRow, String.append_assoc, append_lineBreak (rfl : ":" ++ "\n" = ":\n")]

end

/-- The code of an expression is what its row writes. -/
theorem emitExpression_eq_written
    (place : Place)
    {value : Expression}
    (isOver : value.Over vocabulary) :
    emitExpression place value = .ok (written (expressionRow place value)) :=
  emitExpression_eq_of_row isOver (written_expressionRow place isOver)

/-- The row of a procedure spells its code. -/
theorem emitProcedure_eq_written
    (name parameters : String)
    {body : Block}
    (bodyOver : body.Over vocabulary) :
    emitProcedure name parameters body = .ok (written (procedureRow name parameters body)) := by
  rw [emitProcedure, emitBlock_eq_written Place.top.nested bodyOver]
  refine congrArg Except.ok ?_
  simp [procedureRow, String.append_assoc, append_lineBreak (rfl : " =" ++ "\n" = " =\n")]

/-- The row of a constructor spells its code. -/
theorem emitConstructor_eq_written
    (className : String)
    {constructor? : Option Constructor}
    (nodesOver : ∀ node ∈ constructor?, node.Over vocabulary) :
    emitConstructor className constructor? =
      .ok (written (constructorRow className constructor?)) := by
  have body : emitBlock constructorPlace ((constructor?.map (·.body)).getD .missing) =
      .ok (written (blockRow constructorPlace ((constructor?.map (·.body)).getD .missing))) := by
    cases constructor? with
    | none => rfl
    | some node => exact emitBlock_eq_written constructorPlace (nodesOver node rfl).2
  simp only [emitConstructor, body]
  refine congrArg Except.ok ?_
  simp [constructorRow, String.append_assoc, append_lineBreak (rfl : " =" ++ "\n" = " =\n"),
    append_lineBreak (rfl : "()" ++ "\n" = "()\n")]

/-- The row of methods spells their code. -/
theorem emitMethods_eq_written
    (className : String)
    {methods : List Method}
    (nodesOver : ∀ node ∈ methods, node.Over vocabulary) :
    emitMethods className methods = .ok (written (methodsRow className methods)) := by
  induction methods with
  | nil =>
      rfl
  | cons method rest inductionHypothesis =>
      obtain ⟨firstOver, restOver⟩ := List.forall_mem_cons.mp nodesOver
      rw [emitMethods, inductionHypothesis restOver, emitProcedure_eq_written _ _ firstOver.2.2]
      refine congrArg Except.ok ?_
      simp [methodsRow, String.append_assoc]

/-- The row of a declaration spells its code. -/
theorem emitDeclaration_eq_written
    {declaration : Declaration}
    (isOver : declaration.Over vocabulary) :
    emitDeclaration declaration = .ok (written (declarationRow declaration)) := by
  cases declaration with
  | imported module alias? path span =>
      rfl
  | classType name constructor? methods span =>
      obtain ⟨-, constructorOver, methodsOver⟩ := isOver
      simp only [emitDeclaration, emitConstructor_eq_written name.name constructorOver,
        emitMethods_eq_written name.name methodsOver]
      refine congrArg Except.ok ?_
      simp [declarationRow, classHead, String.append_assoc]
  | function name parameters body first =>
      exact emitProcedure_eq_written name.name _ isOver.2.2
  | typeName name external span =>
      rw [declarationRow, Chunk.written_single]
      rfl
  | constant name value first =>
      simp only [emitDeclaration, emitExpression_eq_written Place.top isOver.2]
      refine congrArg Except.ok ?_
      simp [declarationRow, String.append_assoc]
  | statement body =>
      exact emitStatement_eq_written Place.top isOver.2

/-- There is nothing to see where nothing is written. -/
theorem trimText_empty : trimText (written []) = "" :=
  rfl

/-- The row of declarations spells their code. -/
theorem emitDeclarations_eq_written
    {declarations : List Declaration}
    (allOver : ∀ declaration ∈ declarations, declaration.Over vocabulary) :
    emitDeclarations declarations = .ok (written (declarationsRow declarations)) := by
  induction declarations with
  | nil =>
      rfl
  | cons first rest inductionHypothesis =>
      obtain ⟨firstOver, restOver⟩ := List.forall_mem_cons.mp allOver
      have others := inductionHypothesis restOver
      by_cases isImport : first.isImport
      · rw [emitDeclarations, if_pos isImport, others, declarationsRow]
        cases first with
        | imported => rw [declarationRow, if_pos trimText_empty]
        | _ => cases isImport
      · rw [emitDeclarations_cons (Bool.eq_false_iff.mpr isImport)
          (emitDeclaration_eq_written firstOver) others, declarationsRow]
        split
        · rfl
        · simp [String.append_assoc]

end Nim

/-- The row of a program without gaps spells its module. -/
theorem generate_eq_written
    (library : String)
    {vocabulary : Vocabulary}
    {program : Program}
    (isOver : program.Over vocabulary) :
    generate library program = .ok (Nim.Chunk.written (Nim.programRow library program)) := by
  simp only [generate, Nim.emitDeclarations_eq_written isOver]
  refine congrArg Except.ok ?_
  simp [Nim.programRow, String.append_assoc]

end FrenchNim
