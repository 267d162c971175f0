import FrenchNim.Syntax.Range
import FrenchNim.Syntax.Render

namespace FrenchNim

/-!
# Walking a tree

An element is any node of a tree that has a kind and a range. Walking visits an
element before its children, and the children in source order. Missing nodes
are not visited.
-/

namespace ElementKind

/-- The kind of a missing node. -/
def unknown : ElementKind := ⟨0⟩
/-- The kind of a program. -/
def program : ElementKind := ⟨1⟩
/-- The kind of a block. -/
def block : ElementKind := ⟨2⟩
/-- The kind of a constructor. -/
def constructor : ElementKind := ⟨5⟩
/-- The kind of a method. -/
def method : ElementKind := ⟨6⟩

/-- The names of all kinds, by number. -/
def names : List String :=
  ["Unknown", "Program", "Block", "ImportDeclaration", "ClassDeclaration",
   "ConstructorDeclaration", "MethodDeclaration", "FunctionDeclaration", "TypeDeclaration",
   "ConstantDeclaration", "ReturnStatement", "IfStatement", "WhileStatement", "ForStatement",
   "VariableDeclaration", "AssignmentStatement", "ExpressionStatement", "BoolExpression",
   "NumberExpression", "StringExpression", "ArrayExpression", "IdentifierExpression",
   "InvocationExpression", "MemberExpression", "IndexExpression", "BinaryExpression",
   "FunctionExpression", "NewExpression", "RawCodeExpression", "Max"]

/-- The name of a kind, or its number if it has none. -/
def name (kind : ElementKind) : String :=
  match names[kind.number]? with
  | some name => "ElementType" ++ name
  | none => s!"ElementType({kind.number})"

/-- The short name of a kind. -/
def shortName (kind : ElementKind) : String :=
  (names[kind.number]?).getD ""

end ElementKind

namespace Expression

/-- The kind of an expression. -/
def kind : Expression → ElementKind
  | bool _ _ => ⟨17⟩
  | number _ _ _ => ⟨18⟩
  | string _ _ => ⟨19⟩
  | array _ _ => ⟨20⟩
  | identifier _ => ⟨21⟩
  | invocation _ _ _ => ⟨22⟩
  | member _ _ _ => ⟨23⟩
  | index _ _ _ => ⟨24⟩
  | binary _ _ _ => ⟨25⟩
  | closure _ _ _ => ⟨26⟩
  | construction _ _ _ => ⟨27⟩
  | rawCode _ _ => ⟨28⟩
  | unknown kind _ => kind
  | missing => .unknown

end Expression

namespace Statement

/-- The kind of a statement. -/
def kind : Statement → ElementKind
  | returned _ _ => ⟨10⟩
  | conditional _ _ _ _ => ⟨11⟩
  | whileLoop _ _ _ => ⟨12⟩
  | forLoop _ _ _ _ _ => ⟨13⟩
  | declared _ _ _ => ⟨14⟩
  | assigned _ _ => ⟨15⟩
  | evaluated _ => ⟨16⟩
  | unknown kind _ => kind
  | missing => .unknown

end Statement

namespace Declaration

/-- The kind of a declaration. -/
def kind : Declaration → ElementKind
  | imported _ _ _ _ => ⟨3⟩
  | classType _ _ _ _ => ⟨4⟩
  | function _ _ _ _ => ⟨7⟩
  | typeName _ _ _ => ⟨8⟩
  | constant _ _ _ => ⟨9⟩
  | statement body => body.kind

end Declaration

/-- A node of a tree. -/
inductive Element where
  | program (node : Program)
  | declaration (node : Declaration)
  | constructor (node : Constructor)
  | method (node : Method)
  | block (node : Block)
  | statement (node : Statement)
  | expression (node : Expression)
  deriving Repr

namespace Element

/-- The kind of an element. -/
def kind : Element → ElementKind
  | program _ => .program
  | declaration node => node.kind
  | constructor _ => .constructor
  | method _ => .method
  | block _ => .block
  | statement node => node.kind
  | expression node => node.kind

/-- The range of an element. -/
def span : Element → Span
  | program node => node.span
  | declaration node => node.span
  | constructor node => node.span
  | method node => node.span
  | block node => node.span
  | statement node => node.span
  | expression node => node.span

end Element

/-! ## Depth-first traversal -/

mutual

/-- The elements of an expression. Below an element that is not to be entered, none is listed. -/
def Expression.walk (enter : Element → Bool) : Expression → List Element
  | .missing => []
  | .array values span =>
      let node := .expression (.array values span)
      node :: if enter node then Expression.walkAll enter values else []
  | .invocation callee arguments last =>
      let node := .expression (.invocation callee arguments last)
      node ::
        if enter node then
          Expression.walk enter callee ++ Expression.walkAll enter arguments
        else []
  | .member target name arrow =>
      let node := .expression (.member target name arrow)
      node :: if enter node then Expression.walk enter target else []
  | .index target position last =>
      let node := .expression (.index target position last)
      node ::
        if enter node then
          Expression.walk enter target ++ Expression.walk enter position
        else []
  | .binary operator left right =>
      let node := .expression (.binary operator left right)
      node ::
        if enter node then
          Expression.walk enter left ++ Expression.walk enter right
        else []
  | .closure parameters body first =>
      let node := .expression (.closure parameters body first)
      node :: if enter node then Block.walk enter body else []
  | .construction callee arguments span =>
      let node := .expression (.construction callee arguments span)
      node ::
        if enter node then
          Expression.walk enter callee ++ Expression.walkAll enter arguments
        else []
  | .bool value span => [.expression (.bool value span)]
  | .number literal value span => [.expression (.number literal value span)]
  | .string value span => [.expression (.string value span)]
  | .identifier name => [.expression (.identifier name)]
  | .rawCode code span => [.expression (.rawCode code span)]
  | .unknown kind span => [.expression (.unknown kind span)]

/-- The elements of a list of expressions. -/
def Expression.walkAll (enter : Element → Bool) : List Expression → List Element
  | [] => []
  | first :: rest => Expression.walk enter first ++ Expression.walkAll enter rest

/-- The elements of a block. -/
def Block.walk (enter : Element → Bool) : Block → List Element
  | .missing => []
  | .of statements span =>
      let node := .block (.of statements span)
      node :: if enter node then Statement.walkAll enter statements else []

/-- The elements of a statement. -/
def Statement.walk (enter : Element → Bool) : Statement → List Element
  | .missing => []
  | .returned value first =>
      let node := .statement (.returned value first)
      node :: if enter node then Expression.walk enter value else []
  | .declared name value first =>
      let node := .statement (.declared name value first)
      node :: if enter node then Expression.walk enter value else []
  | .assigned target value =>
      let node := .statement (.assigned target value)
      node ::
        if enter node then
          Expression.walk enter target ++ Expression.walk enter value
        else []
  | .evaluated value =>
      let node := .statement (.evaluated value)
      node :: if enter node then Expression.walk enter value else []
  | .conditional test consequent alternative first =>
      let node := .statement (.conditional test consequent alternative first)
      node ::
        if enter node then
          Expression.walk enter test ++ Block.walk enter consequent ++ Block.walk enter alternative
        else []
  | .whileLoop test body first =>
      let node := .statement (.whileLoop test body first)
      node ::
        if enter node then
          Expression.walk enter test ++ Block.walk enter body
        else []
  | .forLoop initial test increment body first =>
      let node := .statement (.forLoop initial test increment body first)
      node ::
        if enter node then
          Statement.walk enter initial ++ Expression.walk enter test ++
            Statement.walk enter increment ++ Block.walk enter body
        else []
  | .unknown kind span => [.statement (.unknown kind span)]

/-- The elements of a list of statements. -/
def Statement.walkAll (enter : Element → Bool) : List Statement → List Element
  | [] => []
  | first :: rest => Statement.walk enter first ++ Statement.walkAll enter rest

end

namespace Constructor

/-- The elements of a constructor. -/
def walk (enter : Element → Bool) (node : Constructor) : List Element :=
  .constructor node ::
    if enter (.constructor node) then node.body.walk enter else []

end Constructor

namespace Method

/-- The elements of a method. -/
def walk (enter : Element → Bool) (node : Method) : List Element :=
  .method node ::
    if enter (.method node) then node.body.walk enter else []

end Method

namespace Declaration

/-- The elements of a declaration. -/
def walk (enter : Element → Bool) : Declaration → List Element
  | statement body => body.walk enter
  | classType name constructor? methods span =>
      let node := .declaration (classType name constructor? methods span)
      node ::
        if enter node then
          (constructor?.map (·.walk enter)).getD [] ++ methods.flatMap (·.walk enter)
        else []
  | function name parameters body first =>
      let node := .declaration (function name parameters body first)
      node :: if enter node then body.walk enter else []
  | constant name value first =>
      let node := .declaration (constant name value first)
      node :: if enter node then value.walk enter else []
  | imported module alias? path span => [.declaration (imported module alias? path span)]
  | typeName name external span => [.declaration (typeName name external span)]

end Declaration

namespace Program

/-- The elements of a program. -/
def walk (enter : Element → Bool) (node : Program) : List Element :=
  .program node ::
    if enter (.program node) then node.declarations.flatMap (·.walk enter) else []

end Program

namespace Element

/-- An element and the elements below it, parents first. -/
def walk (enter : Element → Bool) : Element → List Element
  | program node => node.walk enter
  | declaration node => node.walk enter
  | constructor node => node.walk enter
  | method node => node.walk enter
  | block node => node.walk enter
  | statement node => node.walk enter
  | expression node => node.walk enter

/-- The source text of an element on its own. -/
def render : Element → String
  | program node => node.render
  | declaration node => node.render
  | constructor node => node.render 0
  | method node => node.render 0
  | block node => node.render 0
  | statement node => node.render 0
  | expression node => node.render 0

/-- The expressions of a list that are not missing. -/
def presentExpressions (nodes : List Expression) : List Element :=
  nodes.filterMap fun
    | .missing => none
    | node => some (.expression node)

/-- The statements of a list that are not missing. -/
def presentStatements (nodes : List Statement) : List Element :=
  nodes.filterMap fun
    | .missing => none
    | node => some (.statement node)

/-- The blocks of a list that are not missing. -/
def presentBlocks (nodes : List Block) : List Element :=
  nodes.filterMap fun
    | .missing => none
    | node => some (.block node)

/-- The children of an element, in source order, without missing nodes. -/
def children : Element → List Element
  | program node =>
      node.declarations.filterMap fun
        | .statement .missing => none
        | .statement body => some (.statement body)
        | other => some (.declaration other)
  | declaration (.classType _ constructor? methods _) =>
      (constructor?.map .constructor).toList ++ methods.map .method
  | declaration (.function _ _ body _) => presentBlocks [body]
  | declaration (.constant _ value _) => presentExpressions [value]
  | declaration (.statement body) => presentStatements [body]
  | declaration _ => []
  | constructor node => presentBlocks [node.body]
  | method node => presentBlocks [node.body]
  | block node => presentStatements node.statements
  | statement (.returned value _) => presentExpressions [value]
  | statement (.declared _ value _) => presentExpressions [value]
  | statement (.assigned target value) => presentExpressions [target, value]
  | statement (.evaluated value) => presentExpressions [value]
  | statement (.conditional test consequent alternative _) =>
      presentExpressions [test] ++ presentBlocks [consequent, alternative]
  | statement (.whileLoop test body _) => presentExpressions [test] ++ presentBlocks [body]
  | statement (.forLoop initial test increment body _) =>
      presentStatements [initial] ++ presentExpressions [test] ++
        presentStatements [increment] ++ presentBlocks [body]
  | statement _ => []
  | expression (.array values _) => presentExpressions values
  | expression (.invocation callee arguments _) => presentExpressions (callee :: arguments)
  | expression (.member target _ _) => presentExpressions [target]
  | expression (.index target position _) => presentExpressions [target, position]
  | expression (.binary _ left right) => presentExpressions [left, right]
  | expression (.closure _ body _) => presentBlocks [body]
  | expression (.construction callee arguments _) => presentExpressions (callee :: arguments)
  | expression _ => []

end Element

end FrenchNim
