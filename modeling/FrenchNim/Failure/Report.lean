import FrenchNim.Failure.Basic
import FrenchNim.Failure.Excerpt
import FrenchNim.Grammar.Expression

namespace FrenchNim

/-!
# Messages and reports

The message of a failure is one text. Its report shows each child on its own,
with an excerpt of the source where a position is known. The message of a parse
failure is the report of its children.
-/

namespace SyntaxError

/-- The message of a syntax error. -/
def text (error : SyntaxError) : String :=
  let line := toString error.position.line
  if error.message = "" then
    "Unexpected token: " ++ error.got ++ " at line " ++ line
  else
    error.message ++ ". Got " ++ error.got ++ " at line " ++ line

end SyntaxError

namespace Failure

/-- The report of a failure without children. -/
def reportOne (colors : Bool) (location : String) (code : Source) (message : String)
    (failure : Failure) : String :=
  Color.boldRed.paint colors "error" ++ Color.bold.paint colors (": " ++ message) ++ "\n" ++
    Excerpt.details colors location code failure.span? failure.secondary

/-- A message, and below it what a compiler printed. -/
def withOutput (message output : String) : String :=
  let output := trimText output
  if output = "" then message else message ++ "\n" ++ output

mutual

/-- The message of a failure. -/
def message : Failure → String
  | plain text => text
  | user text => text
  | userCause cause => message cause
  | internal text => text
  | internalCause cause => message cause
  | unreachable => "unreachable\n"
  | wrapped text cause => text ++ ": " ++ message cause
  | joined causes => String.intercalate "\n" (messages causes)
  | parent text _ => text
  | positioned text _ _ => text
  | hinted text _ => text
  | unfit error => error.text
  | unterminatedString _ lastLine => "Unterminated string at line " ++ toString lastLine
  | tooDeep _ =>
      "program too complex, reached max expression depth limit " ++ toString Grammar.depthLimit
  | .tokenLimit _ => "limit of " ++ toString FrenchNim.tokenLimit ++ " tokens exceeded"
  | parsing code children =>
      "Parsing failed:\n" ++ String.intercalate "\n" (reports false "" code children)
  | source path _ cause => path ++ ": " ++ message cause
  | compilation output cause => withOutput ("compilation failed: " ++ message cause) output
  | deadline limit => "context deadline exceeded after " ++ limit
  | unsupportedElement kind _ => "unsupported element: " ++ kind.name
  | unsupportedNode kind _ => "cannot generate code for unsupported node: " ++ kind.name
  | malformedConfiguration => "failed to parse configuration"
  | helpRequested => "flag: help requested"
  termination_by failure => (sizeOf failure, 0)
  decreasing_by
    all_goals simp_wf
    all_goals exact Prod.Lex.left _ _ (by omega)

/-- The messages of several failures. -/
def messages : List Failure → List String
  | [] => []
  | first :: rest => message first :: messages rest
  termination_by failures => (sizeOf failures, 0)
  decreasing_by
    all_goals simp_wf
    all_goals exact Prod.Lex.left _ _ (by omega)

/-- The report of a failure. -/
def report (colors : Bool) (location : String) (code : Source) : Failure → String
  | parent _ children => String.intercalate "\n" (reports colors location code children)
  | parsing _ children => String.intercalate "\n" (reports colors location code children)
  | source _ _ cause => report colors location code cause
  | plain text => reportOne colors location code (message (plain text)) (plain text)
  | user text => reportOne colors location code text (user text)
  | userCause cause => reportOne colors location code (message cause) (userCause cause)
  | internal text => reportOne colors location code text (internal text)
  | internalCause cause => reportOne colors location code (message cause) (internalCause cause)
  | unreachable => reportOne colors location code "unreachable\n" unreachable
  | wrapped text cause =>
      reportOne colors location code (text ++ ": " ++ message cause) (wrapped text cause)
  | joined causes =>
      reportOne colors location code (String.intercalate "\n" (messages causes)) (joined causes)
  | compilation output cause =>
      reportOne colors location code (withOutput ("compilation failed: " ++ message cause) output)
        (compilation output cause)
  | other => reportOne colors location code other.message other
  termination_by failure => (sizeOf failure, 1)
  decreasing_by
    all_goals simp_wf
    all_goals first
      | exact Prod.Lex.left _ _ (by omega)
      | exact Prod.Lex.right _ (by omega)

/-- The reports of several failures. -/
def reports (colors : Bool) (location : String) (code : Source) : List Failure → List String
  | [] => []
  | first :: rest =>
      report colors location code first :: reports colors location code rest
  termination_by failures => (sizeOf failures, 0)
  decreasing_by
    all_goals simp_wf
    all_goals exact Prod.Lex.left _ _ (by omega)

end

/-- What the command line prints about a failure. -/
def printed (colors : Bool) (failure : Failure) : String :=
  match failure with
  | helpRequested => ""
  | _ =>
      match failure.firstSource? with
      | some (path, code, cause) => cause.report colors path code
      | none => Color.boldRed.paint colors failure.message ++ "\n"

end Failure

end FrenchNim
