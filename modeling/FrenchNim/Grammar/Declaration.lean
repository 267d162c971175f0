import FrenchNim.Grammar.Expression

namespace FrenchNim

/-!
# Declarations

A class body is lenient: it keeps constructors and methods and skips every
other token, and of several constructors the last one counts. At the top level
`fonction` always starts a function declaration.
-/

namespace Grammar

/-- Read the path of an import with the word in front of it. -/
def importedFrom (final : Token) (tokens : List Token) : Reading Token tokens := do
  let ⟨_, behind, first⟩ ← expect final .fromWord tokens
  let path ← expect final .importedPath behind
  return path.after first

/-- The import that ends with the given path. -/
def importing (start : Token) (module : Identifier) (newName? : Option Identifier)
    (path : Token) : Declaration :=
  .imported module newName? path.literal ⟨start.span.first, path.span.last⟩

/-- What remains behind dropped tokens is not longer. -/
theorem length_drop_le (count : Nat) (tokens : List Token) :
    (tokens.drop count).length ≤ tokens.length := by
  simp

/-- Read an import behind its keyword. -/
def importRest (final start : Token) (tokens : List Token) : Reading Declaration tokens := do
  let ⟨module, behind, first⟩ ← expectName final .moduleName tokens
  if (current final behind).kind = .asKeyword then
    let ⟨newName, after, second⟩ ← expectName final .aliasName (behind.drop 1)
    let path ← importedFrom final after
    let whole := path.map (importing start module (some newName))
    return ((whole.after second).afterOptional (length_drop_le 1 behind)).after first
  else
    let path ← importedFrom final behind
    return (path.map (importing start module none)).after first

/-- Read the members of a class behind members that are already read, methods newest first. -/
def members (final : Token) (room : Nat) (constructor? : Option Constructor)
    (methods : List Method) (tokens : List Token) :
    OptionalReading (Option Constructor × List Method) tokens :=
  match tokens with
  | [] => .ok (.nothing (constructor?, methods.reverse) [])
  | token :: behind =>
      match token.kind with
      | .closeKeyword => .ok (.nothing (constructor?, methods.reverse) (token :: behind))
      | .constructorKeyword => do
          let ⟨(names, body), after, first⟩ ← procedure final room behind
          let all ← members final room (some ⟨names, body, token.span.first⟩) methods after
          return ((all.after first).behindToken token).toAdvance
      | .identifier => do
          let ⟨(names, body), after, first⟩ ← procedure final room behind
          let method := ⟨identifierOf token, names, body⟩
          let all ← members final room constructor? (method :: methods) after
          return ((all.after first).behindToken token).toAdvance
      | _ => do
          let all ← members final room constructor? methods behind
          return (all.behindToken token).toAdvance
  termination_by tokens.length
  decreasing_by all_goals (simp only [List.length_cons] at *; omega)

/-- Read a class behind its keyword. -/
def classRest (final : Token) (room : Nat) (start : Token) (tokens : List Token) :
    Reading Declaration tokens := do
  let ⟨name, behind, first⟩ ← expectName final .className tokens
  let ⟨_, inner, second⟩ ← expect final .openWord behind
  let ⟨(constructor?, methods), after, third⟩ ← members final room none [] inner
  let closing ← expect final .closeWord after
  let whole := closing.map fun closing =>
    Declaration.classType name constructor? methods ⟨start.span.first, closing.span.last⟩
  return ((whole.afterOptional third).after second).after first

/-- Read the end of a type declaration: the word that makes the type external, if it is there. -/
def externalWord (start equal : Token) (name : Identifier) (tokens : List Token) :
    Advance Declaration tokens :=
  match tokens with
  | [] => .nothing (.typeName name false ⟨start.span.first, equal.span.last⟩) []
  | word :: rest =>
      if word.kind = .externalKeyword then
        (takeFirst (.typeName name true ⟨start.span.first, word.span.last⟩) word rest).toAdvance
      else
        .nothing (.typeName name false ⟨start.span.first, equal.span.last⟩) (word :: rest)

/-- Read a type declaration behind its keyword. -/
def typeRest (final start : Token) (tokens : List Token) : Reading Declaration tokens := do
  let ⟨name, behind, first⟩ ← expectName final .typeName tokens
  let ⟨equal, after, second⟩ ← expect final .equalWord behind
  return ((externalWord start equal name after).after second).after first

/-- Read a constant declaration behind its keyword. -/
def constantRest (final : Token) (room : Nat) (start : Token) (tokens : List Token) :
    Reading Declaration tokens := do
  let ⟨name, behind, first⟩ ← expectName final .constantName tokens
  let ⟨_, after, second⟩ ← expect final .equalWord behind
  let value ← expression final room after
  let constant := value.map fun value => Declaration.constant name value start.span.first
  return (constant.after second).after first

/-- Read a function declaration behind its keyword. -/
def functionRest (final : Token) (room : Nat) (start : Token) (tokens : List Token) :
    Reading Declaration tokens := do
  let ⟨name, behind, first⟩ ← expectName final .functionName tokens
  let parts ← procedure final room behind
  return (parts.map fun (names, body) =>
    Declaration.function name names body start.span.first).after first

/-- Turn a statement into a top-level element. -/
def asDeclaration {tokens : List Token} (reading : Reading Statement tokens) :
    Reading Declaration tokens := do
  let body ← reading
  return body.map .statement

/-- Read a top-level element. -/
def declaration (final : Token) (room : Nat) (tokens : List Token) :
    Reading Declaration tokens :=
  match tokens with
  | [] => asDeclaration (simple final room [])
  | token :: behind =>
      match token.kind with
      | .importKeyword => do
          let whole ← importRest final token behind
          return whole.behindToken token
      | .classKeyword => do
          let whole ← classRest final room token behind
          return whole.behindToken token
      | .typeKeyword => do
          let whole ← typeRest final token behind
          return whole.behindToken token
      | .constantKeyword => do
          let whole ← constantRest final room token behind
          return whole.behindToken token
      | .functionKeyword => do
          let whole ← functionRest final room token behind
          return whole.behindToken token
      | .returnKeyword => asDeclaration (simple final room (token :: behind))
      | _ => asDeclaration (statement final room (token :: behind))

end Grammar

end FrenchNim
