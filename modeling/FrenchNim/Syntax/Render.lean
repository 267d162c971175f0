import FrenchNim.Syntax.Tree
import FrenchNim.Text.Quoted

namespace FrenchNim

/-!
# Canonical source text

Rendering writes a tree back as source code. Blocks are indented by four
spaces and stand between `ouvrir` and `refermer`, no line is ever broken, and
an operand that is itself a binary expression stands between parentheses.
-/

namespace Render

/-- A line break followed by the indentation of a depth. -/
def lineBreak (depth : Nat) : String :=
  "\n" ++ String.ofList (List.replicate (4 * depth) ' ')

/-- A list of parameters. -/
def parameters (names : List Identifier) : String :=
  "(" ++ String.intercalate ", " (names.map (·.name)) ++ ")"

/-- The spelling of a name in expression position. -/
def name (identifier : Identifier) : String :=
  if identifier.name = selfName then "ceci" else identifier.name

/-- An operand, with parentheses around it if it is a binary expression. -/
def operand (expression : Expression) (text : String) : String :=
  match expression with
  | .binary _ _ _ => "(" ++ text ++ ")"
  | _ => text

end Render

mutual

/-- The source text of an expression at an indentation depth. -/
def Expression.render (depth : Nat) : Expression → String
  | .bool value _ => if value then "vrai" else "faux"
  | .number literal _ _ => literal
  | .string value _ => Quoted.literal value
  | .array values _ =>
      "[" ++ String.intercalate ", " (Expression.renderAll depth values) ++ "]"
  | .identifier name => Render.name name
  | .invocation callee arguments _ =>
      callee.render depth ++
        "(" ++ String.intercalate ", " (Expression.renderAll depth arguments) ++ ")"
  | .member target name arrow =>
      target.render depth ++ (if arrow then "->" else ".") ++ name.name
  | .index target position _ =>
      target.render depth ++ "[" ++ position.render depth ++ "]"
  | .binary operator left right =>
      Render.operand left (left.render depth) ++ " " ++ operator ++ " " ++
        Render.operand right (right.render depth)
  | .closure parameters body _ =>
      "fonction" ++ Render.parameters parameters ++ " " ++ body.render depth
  | .construction callee arguments _ =>
      "nouveau " ++ callee.render depth ++
        "(" ++ String.intercalate ", " (Expression.renderAll depth arguments) ++ ")"
  | .rawCode code _ => "@nim(" ++ code ++ ")"
  | .unknown _ _ => ""
  | .missing => ""

/-- The source texts of a list of expressions. -/
def Expression.renderAll (depth : Nat) : List Expression → List String
  | [] => []
  | first :: rest => first.render depth :: Expression.renderAll depth rest

/-- The source text of a block at an indentation depth. -/
def Block.render (depth : Nat) : Block → String
  | .of statements _ =>
      "ouvrir" ++ Statement.renderAll (depth + 1) statements ++
        Render.lineBreak depth ++ "refermer"
  | .missing =>
      "ouvrir" ++ Render.lineBreak depth ++ "refermer"

/-- The source text of a statement at an indentation depth. -/
def Statement.render (depth : Nat) : Statement → String
  | .returned value _ => "retourne " ++ value.render depth
  | .declared name value _ =>
      "variable " ++ name.name ++ " = " ++ value.render depth
  | .assigned target value =>
      target.render depth ++ " = " ++ value.render depth
  | .evaluated value => value.render depth
  | .conditional test consequent .missing _ =>
      "si (" ++ test.render depth ++ ") " ++ consequent.render depth
  | .conditional test consequent alternative _ =>
      "si (" ++ test.render depth ++ ") " ++ consequent.render depth ++
        " sinon " ++ alternative.render depth
  | .whileLoop test body _ =>
      "tantque (" ++ test.render depth ++ ") " ++ body.render depth
  | .forLoop initial test increment body _ =>
      "pour (" ++ initial.render depth ++ "; " ++ test.render depth ++ "; " ++
        increment.render depth ++ ") " ++ body.render depth
  | .unknown _ _ => ""
  | .missing => ""

/-- The source text of statements, each on a new line of the depth. -/
def Statement.renderAll (depth : Nat) : List Statement → String
  | [] => ""
  | first :: rest =>
      Render.lineBreak depth ++ first.render depth ++ Statement.renderAll depth rest

end

namespace Constructor

/-- The source text of a constructor at an indentation depth. -/
def render (depth : Nat) (node : Constructor) : String :=
  "constructeur" ++ Render.parameters node.parameters ++ " " ++ node.body.render depth

end Constructor

namespace Method

/-- The source text of a method at an indentation depth. -/
def render (depth : Nat) (node : Method) : String :=
  node.name.name ++ Render.parameters node.parameters ++ " " ++ node.body.render depth

end Method

namespace Declaration

/-- The source texts of the members of a class. -/
def renderMembers (constructor? : Option Constructor) (methods : List Method) : List String :=
  (constructor?.map (·.render 1)).toList ++ methods.map (·.render 1)

/-- The source text of a declaration. -/
def render : Declaration → String
  | imported module alias? path _ =>
      let shownName :=
        match alias? with
        | some name => " comme " ++ name.name
        | none => ""
      "importer " ++ module.name ++ shownName ++ " de " ++ Quoted.literal path
  | classType name constructor? methods _ =>
      let members := (renderMembers constructor? methods).map (Render.lineBreak 1 ++ ·)
      "classe " ++ name.name ++ " ouvrir" ++ String.join members ++
        Render.lineBreak 0 ++ "refermer"
  | function name parameters body _ =>
      "fonction " ++ name.name ++ Render.parameters parameters ++ " " ++ body.render 0
  | typeName name external _ =>
      "type " ++ name.name ++ " egal" ++ (if external then " external" else "")
  | constant name value _ =>
      "constant " ++ name.name ++ " = " ++ value.render 0
  | statement body => body.render 0

end Declaration

namespace Program

/-- The text between two declarations: an empty line, except between two imports. -/
def separator (left right : Declaration) : String :=
  if left.isImport && right.isImport then "\n" else "\n\n"

/-- The source text of declarations that follow the given one. -/
def renderAfter (previous : Declaration) : List Declaration → String
  | [] => ""
  | next :: rest =>
      separator previous next ++ next.render ++ renderAfter next rest

/-- The canonical source text of a program. -/
def render (program : Program) : String :=
  match program.declarations with
  | [] => ""
  | first :: rest => first.render ++ renderAfter first rest

end Program

end FrenchNim
