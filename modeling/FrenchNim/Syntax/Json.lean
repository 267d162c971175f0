import FrenchNim.Json.Value
import FrenchNim.Syntax.Element

namespace FrenchNim

/-!
# Trees as JSON

Every node becomes an object that starts with its type. The range stands behind
the type if it is computed, and at the end if the node stores it.
-/

namespace Position

/-- A position as JSON. -/
def toJson (position : Position) : Json :=
  .object [("Offset", .integer position.offset), ("Line", .integer position.line),
    ("Column", .integer position.column)]

end Position

namespace Span

/-- The two members of a range. -/
def jsonMembers (span : Span) : List (String × Json) :=
  [("StartPos", span.first.toJson), ("EndPos", span.last.toJson)]

end Span

namespace Identifier

/-- A name as JSON. -/
def toJson (identifier : Identifier) : Json :=
  .object [("Identifier", .string identifier.name), ("Pos", identifier.position.toJson)]

/-- A parameter as JSON. -/
def toParameterJson (identifier : Identifier) : Json :=
  .object (("Identifier", identifier.toJson) :: identifier.span.jsonMembers)

end Identifier

namespace ElementKind

/-- A node whose range is computed from its parts. -/
def computedJson (kind : ElementKind) (span : Span) (members : List (String × Json)) : Json :=
  .object (("Type", .string kind.shortName) :: span.jsonMembers ++ members)

/-- A node that stores its range. -/
def storedJson (kind : ElementKind) (span : Span) (members : List (String × Json)) : Json :=
  .object (("Type", .string kind.shortName) :: members ++ span.jsonMembers)

end ElementKind

/-- Parameters as JSON. -/
def parametersJson (parameters : List Identifier) : Json :=
  .arrayOrNull (parameters.map Identifier.toParameterJson)

mutual

/-- An expression as JSON. -/
def Expression.toJson : Expression → Json
  | .bool value span => ElementKind.storedJson ⟨17⟩ span [("Value", .bool value)]
  | .number literal value span =>
      ElementKind.storedJson ⟨18⟩ span [("Literal", .string literal), ("Value", .number value)]
  | .string value span => ElementKind.storedJson ⟨19⟩ span [("Value", .string value)]
  | .array values span =>
      ElementKind.storedJson ⟨20⟩ span [("Values", .arrayOrNull (Expression.allToJson values))]
  | .identifier name =>
      ElementKind.computedJson ⟨21⟩ name.span [("Identifier", name.toJson)]
  | .invocation callee arguments last =>
      ElementKind.computedJson ⟨22⟩ ⟨callee.first, last⟩
        [("InvokedExpression", callee.toJson),
         ("Arguments", .arrayOrNull (Expression.allToJson arguments))]
  | .member target name arrow =>
      ElementKind.computedJson ⟨23⟩ ⟨target.first, name.last⟩
        [("Expression", target.toJson), ("Identifier", name.toJson), ("Arrow", .bool arrow)]
  | .index target position last =>
      ElementKind.computedJson ⟨24⟩ ⟨target.first, last⟩
        [("TargetExpression", target.toJson), ("IndexingExpression", position.toJson)]
  | .binary operator left right =>
      ElementKind.computedJson ⟨25⟩ ⟨left.first, right.last⟩
        [("Operator", .string operator), ("Left", left.toJson), ("Right", right.toJson)]
  | .closure parameters body first =>
      ElementKind.computedJson ⟨26⟩ ⟨first, body.span.last⟩
        [("Parameters", parametersJson parameters), ("Body", body.toJson)]
  | .construction callee arguments span =>
      ElementKind.storedJson ⟨27⟩ span
        [("InvokedExpression", callee.toJson),
         ("Arguments", .arrayOrNull (Expression.allToJson arguments))]
  | .rawCode code span => ElementKind.storedJson ⟨28⟩ span [("Code", .string code)]
  | .unknown _ _ => .null
  | .missing => .null

/-- Expressions as JSON. -/
def Expression.allToJson : List Expression → List Json
  | [] => []
  | first :: rest => first.toJson :: Expression.allToJson rest

/-- A block as JSON. -/
def Block.toJson : Block → Json
  | .of statements span =>
      ElementKind.storedJson .block span
        [("Statements", .arrayOrNull (Statement.allToJson statements))]
  | .missing => .null

/-- A statement as JSON. -/
def Statement.toJson : Statement → Json
  | .returned value first =>
      ElementKind.computedJson ⟨10⟩ ⟨first, value.last⟩ [("Expression", value.toJson)]
  | .conditional test consequent alternative first =>
      ElementKind.computedJson ⟨11⟩
        ⟨first, (Statement.conditional test consequent alternative first).last⟩
        [("Test", test.toJson), ("Then", consequent.toJson), ("Else", alternative.toJson)]
  | .whileLoop test body first =>
      ElementKind.computedJson ⟨12⟩ ⟨first, body.span.last⟩
        [("Test", test.toJson), ("Block", body.toJson)]
  | .forLoop initial test increment body first =>
      ElementKind.computedJson ⟨13⟩ ⟨first, body.span.last⟩
        [("Init", initial.toJson), ("Test", test.toJson), ("Increment", increment.toJson),
         ("Block", body.toJson)]
  | .declared name value first =>
      ElementKind.computedJson ⟨14⟩ ⟨first, value.last⟩
        [("Identifier", name.toJson), ("Value", value.toJson)]
  | .assigned target value =>
      ElementKind.computedJson ⟨15⟩ ⟨target.first, value.last⟩
        [("Target", target.toJson), ("Value", value.toJson)]
  | .evaluated value =>
      ElementKind.computedJson ⟨16⟩ value.span [("Expression", value.toJson)]
  | .unknown _ _ => .null
  | .missing => .null

/-- Statements as JSON. -/
def Statement.allToJson : List Statement → List Json
  | [] => []
  | first :: rest => first.toJson :: Statement.allToJson rest

end

namespace Constructor

/-- A constructor as JSON. -/
def toJson (node : Constructor) : Json :=
  ElementKind.computedJson .constructor node.span
    [("Parameters", parametersJson node.parameters), ("Body", node.body.toJson)]

end Constructor

namespace Method

/-- A method as JSON. -/
def toJson (node : Method) : Json :=
  ElementKind.computedJson .method node.span
    [("Identifier", node.name.toJson), ("Parameters", parametersJson node.parameters),
     ("Body", node.body.toJson)]

end Method

namespace Declaration

/-- The fields of a class as JSON. They are null for a class without a constructor. -/
def fieldsJson (constructor? : Option Constructor) : Json :=
  match fields? constructor? with
  | some names => .array (names.map .string)
  | none => .null

/-- A declaration as JSON. -/
def toJson : Declaration → Json
  | imported module alias? path span =>
      ElementKind.storedJson ⟨3⟩ span
        [("Module", module.toJson), ("Alias", (alias?.map Identifier.toJson).getD .null),
         ("Path", .string path)]
  | classType name constructor? methods span =>
      ElementKind.storedJson ⟨4⟩ span
        [("Fields", fieldsJson constructor?), ("Identifier", name.toJson),
         ("Constructor", (constructor?.map Constructor.toJson).getD .null),
         ("Methods", .arrayOrNull (methods.map Method.toJson))]
  | function name parameters body first =>
      ElementKind.computedJson ⟨7⟩ ⟨first, body.span.last⟩
        [("Identifier", name.toJson), ("Parameters", parametersJson parameters),
         ("Body", body.toJson)]
  | typeName name external span =>
      ElementKind.storedJson ⟨8⟩ span
        [("Identifier", name.toJson), ("External", .bool external)]
  | constant name value first =>
      ElementKind.computedJson ⟨9⟩ ⟨first, value.last⟩
        [("Identifier", name.toJson), ("Value", value.toJson)]
  | statement body => body.toJson

end Declaration

namespace Program

/-- A program as JSON. -/
def toJson (program : Program) : Json :=
  ElementKind.computedJson .program program.span
    [("Declarations", .arrayOrNull (program.declarations.map Declaration.toJson))]

end Program

namespace Element

/-- An element as JSON. -/
def toJson : Element → Json
  | program node => node.toJson
  | declaration node => node.toJson
  | constructor node => node.toJson
  | method node => node.toJson
  | block node => node.toJson
  | statement node => node.toJson
  | expression node => node.toJson

end Element

/-- A number that JSON cannot hold, and the types of the nodes around it, outermost first. -/
structure UnsupportedNumber where
  value : Double
  path : List String
  deriving Repr

namespace UnsupportedNumber

/-- What the innermost failure says. -/
def innermost (fault : UnsupportedNumber) : String :=
  "json: unsupported value: " ++ fault.value.text Json.numberStyle

/-- What the failure says with one note per node around the number. -/
def message (fault : UnsupportedNumber) : String :=
  fault.path.foldr
    (fun type text => "json: error calling MarshalJSON for type *ast." ++ type ++ ": " ++ text)
    fault.innermost

end UnsupportedNumber

namespace Json

/-- The type an object names in its first member. -/
def typeName? : List (String × Json) → Option String
  | ("Type", .string type) :: _ => some type
  | _ => none

mutual

/-- The first number of a tree that JSON cannot hold. -/
def unsupported? (path : List String) : Json → Option UnsupportedNumber
  | number value =>
      if value.isNaN || value.isInfinite then some ⟨value, path.reverse⟩ else none
  | array items => unsupportedItem? path items
  | object members => unsupportedMember? ((typeName? members).toList ++ path) members
  | null => none
  | bool _ => none
  | integer _ => none
  | string _ => none

/-- The first such number among items. -/
def unsupportedItem? (path : List String) : List Json → Option UnsupportedNumber
  | [] => none
  | first :: rest =>
      match unsupported? path first with
      | some fault => some fault
      | none => unsupportedItem? path rest

/-- The first such number among members. -/
def unsupportedMember? (path : List String) : List (String × Json) → Option UnsupportedNumber
  | [] => none
  | (_, value) :: rest =>
      match unsupported? path value with
      | some fault => some fault
      | none => unsupportedMember? path rest

end

/-- A JSON value that can be written, or the first number that cannot. -/
def writable (value : Json) : Except UnsupportedNumber Json :=
  match unsupported? [] value with
  | some fault => .error fault
  | none => .ok value

end Json

end FrenchNim
