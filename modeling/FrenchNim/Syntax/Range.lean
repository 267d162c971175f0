import FrenchNim.Syntax.Tree

namespace FrenchNim

/-!
# The range of a node

Some nodes store their range. The range of any other node runs from the start
of its first part to the end of its last part.
-/

namespace Identifier

/-- The position of the last rune of a name. -/
def last (identifier : Identifier) : Position :=
  match identifier.name.toList.getLast? with
  | none => identifier.position
  | some final =>
      { offset := identifier.position.offset + identifier.name.utf8ByteSize - final.utf8Size
        line := identifier.position.line
        column := identifier.position.column + identifier.name.length - 1 }

/-- The range of a name. -/
def span (identifier : Identifier) : Span :=
  ⟨identifier.position, identifier.last⟩

end Identifier

namespace Block

/-- The range of a block. -/
def span : Block → Span
  | of _ span => span
  | missing => .zero

end Block

namespace Expression

/-- The position of the first rune of an expression. -/
def first : Expression → Position
  | bool _ span => span.first
  | number _ _ span => span.first
  | string _ span => span.first
  | array _ span => span.first
  | identifier name => name.position
  | invocation callee _ _ => callee.first
  | member target _ _ => target.first
  | index target _ _ => target.first
  | binary _ left _ => left.first
  | closure _ _ first => first
  | construction _ _ span => span.first
  | rawCode _ span => span.first
  | unknown _ span => span.first
  | missing => .zero

/-- The position of the last rune of an expression. -/
def last : Expression → Position
  | bool _ span => span.last
  | number _ _ span => span.last
  | string _ span => span.last
  | array _ span => span.last
  | identifier name => name.last
  | invocation _ _ last => last
  | member _ name _ => name.last
  | index _ _ last => last
  | binary _ _ right => right.last
  | closure _ body _ => body.span.last
  | construction _ _ span => span.last
  | rawCode _ span => span.last
  | unknown _ span => span.last
  | missing => .zero

/-- The range of an expression. -/
def span (expression : Expression) : Span :=
  ⟨expression.first, expression.last⟩

end Expression

namespace Statement

/-- The position of the first rune of a statement. -/
def first : Statement → Position
  | returned _ first => first
  | declared _ _ first => first
  | assigned target _ => target.first
  | evaluated value => value.first
  | conditional _ _ _ first => first
  | whileLoop _ _ first => first
  | forLoop _ _ _ _ first => first
  | unknown _ span => span.first
  | missing => .zero

/-- The position of the last rune of a statement. -/
def last : Statement → Position
  | returned value _ => value.last
  | declared _ value _ => value.last
  | assigned _ value => value.last
  | evaluated value => value.last
  | conditional _ consequent .missing _ => consequent.span.last
  | conditional _ _ alternative _ => alternative.span.last
  | whileLoop _ body _ => body.span.last
  | forLoop _ _ _ body _ => body.span.last
  | unknown _ span => span.last
  | missing => .zero

/-- The range of a statement. -/
def span (statement : Statement) : Span :=
  ⟨statement.first, statement.last⟩

end Statement

namespace Constructor

/-- The range of a constructor. -/
def span (constructor : Constructor) : Span :=
  ⟨constructor.first, constructor.body.span.last⟩

end Constructor

namespace Method

/-- The range of a method. -/
def span (method : Method) : Span :=
  ⟨method.name.position, method.body.span.last⟩

end Method

namespace Declaration

/-- The range of a declaration. -/
def span : Declaration → Span
  | imported _ _ _ span => span
  | classType _ _ _ span => span
  | function _ _ body first => ⟨first, body.span.last⟩
  | typeName _ _ span => span
  | constant _ value first => ⟨first, value.last⟩
  | statement body => body.span

end Declaration

namespace Program

/-- The range of a program, from its first declaration to its last. -/
def span (program : Program) : Span :=
  match program.declarations with
  | [] => .zero
  | first :: rest => ⟨first.span.first, (rest.getLast?.getD first).span.last⟩

end Program

end FrenchNim
