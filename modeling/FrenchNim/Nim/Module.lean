import FrenchNim.Nim.Emit
import FrenchNim.Text.Trim

namespace FrenchNim

/-!
# Nim modules

The module of a program imports the standard library first, then everything the
program imports, and then holds the code of all other declarations in order.
-/

/-- Drop a text from the end of another, if it stands there. -/
def dropEnding (ending text : String) : String :=
  if text.toList.reverse.take ending.length = ending.toList.reverse then
    String.ofList (text.toList.take (text.length - ending.length))
  else
    text

/-- Drop a text from the start of another, if it stands there. -/
def dropLeading (leading text : String) : String :=
  if text.toList.take leading.length = leading.toList then
    String.ofList (text.toList.drop leading.length)
  else
    text

namespace Nim

/-- The module an import path names: without the source extension and a leading `./`. -/
def importedModule (path : String) : String :=
  dropLeading "./" (dropEnding ".fr" path)

/-- The import line of a declaration that imports. -/
def emitImport? : Declaration → Option String
  | .imported _ (some newName) path _ =>
      some ("import " ++ importedModule path ++ " as " ++ newName.name)
  | .imported _ none path _ => some ("import " ++ importedModule path)
  | _ => none

/-- An exported procedure. Its result is declared only if its body returns at once. -/
def emitProcedure (name parameters : String) (body : Block) : Except UnsupportedNode String := do
  let code ← emitBlock Place.top.nested body
  let result := if body.returns then ": auto" else ""
  return "proc " ++ name ++ "*(" ++ parameters ++ ")" ++ result ++ " =\n" ++ code

/-- The place of a constructor's body. -/
def constructorPlace : Place :=
  { Place.top.nested with inConstructor := true }

/-- The procedure that builds an instance of a class. -/
def emitConstructor (className : String) (constructor? : Option Constructor) :
    Except UnsupportedNode String := do
  let parameters := (constructor?.map (·.parameters)).getD []
  let body := (constructor?.map (·.body)).getD .missing
  let code ← emitBlock constructorPlace body
  return "proc new" ++ className ++ "*(" ++ parameterList [] parameters ++ "): " ++ className ++
    " =\n" ++ constructorPlace.indentation ++ resultName ++ " = " ++ className ++ "()\n" ++ code

/-- The procedures of the methods of a class, each followed by an empty line. -/
def emitMethods (className : String) : List Method → Except UnsupportedNode String
  | [] => return ""
  | method :: rest => do
      let parameters := parameterList [selfName ++ ": " ++ className] method.parameters
      let code ← emitProcedure method.name.name parameters method.body
      let others ← emitMethods className rest
      return code ++ "\n" ++ others

/-- The Nim code of a declaration other than an import. -/
def emitDeclaration : Declaration → Except UnsupportedNode String
  | .imported _ _ _ _ => return ""
  | .classType name constructor? methods _ => do
      let fields := (Declaration.fields? constructor?).getD []
      let fieldLines := fields.map (Place.top.nested.indentation ++ · ++ "*: auto\n")
      let constructor ← emitConstructor name.name constructor?
      let methods ← emitMethods name.name methods
      return "type " ++ name.name ++ "* = ref object\n" ++ String.join fieldLines ++ "\n" ++
        constructor ++ "\n" ++ methods
  | .function name parameters body _ =>
      emitProcedure name.name (parameterList [] parameters) body
  | .typeName name external _ =>
      return if external then
        "# External type: " ++ name.name
      else
        "type " ++ name.name ++ "* = object"
  | .constant name value _ => do
      let value ← emitExpression Place.top value
      return "const " ++ name.name ++ "* = " ++ value
  | .statement body => emitStatement Place.top body

/-- The code of declarations. Code without any visible text is left out. -/
def emitDeclarations : List Declaration → Except UnsupportedNode String
  | [] => return ""
  | first :: rest =>
      if first.isImport then
        emitDeclarations rest
      else do
        let code ← emitDeclaration first
        let others ← emitDeclarations rest
        if trimText code = "" then
          return others
        else
          return code ++ "\n" ++ others

end Nim

/-- The Nim module of a program, given the name of the standard library module. -/
def generate (library : String) (program : Program) : Except UnsupportedNode String := do
  let imports := program.declarations.filterMap Nim.emitImport?
  let code ← Nim.emitDeclarations program.declarations
  return "import " ++ library ++ "\n" ++ String.join (imports.map (· ++ "\n")) ++ "\n" ++ code

end FrenchNim
