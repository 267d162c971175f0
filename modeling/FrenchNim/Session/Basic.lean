import FrenchNim.Failure.Report
import FrenchNim.Pipeline
import FrenchNim.Text.Trim

namespace FrenchNim

/-!
# Interactive sessions

A session takes one line at a time. Lines that are the start of a program are
kept until the program is complete. The code of a program is preceded by one
empty line for every line of the session before it, so that positions name the
lines of the session.
-/

/-- The state of a session: the number of the next line, and the lines of an open program. -/
structure Session where
  lineNumber : Nat
  pending : String
  deriving Repr, DecidableEq

/-- The answer to a line. -/
structure Reply where
  /-- The Nim code of a complete program, without its first import. -/
  generated : String
  /-- No line is kept. -/
  complete : Bool
  /-- The code the answer is about. -/
  code : String
  /-- What is wrong with a complete program. -/
  failure? : Option Failure

namespace Session

/-- A new session. -/
def start : Session := ⟨1, ""⟩

/-- The next line continues a program. -/
def isContinuation (session : Session) : Bool :=
  session.pending ≠ ""

/-- Empty lines that fill the place of earlier lines. -/
def padding (session : Session) : String :=
  String.ofList (List.replicate (session.lineNumber - 1) '\n')

/-- The code that a line completes or continues. -/
def codeWith (session : Session) (line : String) : String :=
  (if session.isContinuation then session.pending else session.padding) ++ line ++ "\n"

/-- The text every generated module starts with. -/
def opening : String :=
  "import " ++ standardLibrary ++ "\n\n"

/-- Answer a line. -/
def accept (normalizer : Normalizer) (session : Session) (line : String) : Reply × Session :=
  let code := session.codeWith line
  let next : Session := ⟨session.lineNumber + 1, ""⟩
  if trimText code = "" then
    (⟨"", true, code, none⟩, next)
  else
    match Pipeline.transpile normalizer standardLibrary (.ofString code) with
    | .ok generated => (⟨dropLeading opening generated, true, code, none⟩, next)
    | .error failure =>
        if failure.isIncomplete then
          (⟨"", false, code, none⟩, { next with pending := code })
        else
          (⟨"", true, code, some failure⟩, next)

/-- The place that reports of a session name. -/
def location : String := "repl"

end Session

namespace Reply

/-- The report of what is wrong, if anything is. -/
def report? (colors : Bool) (reply : Reply) : Option String :=
  reply.failure?.map fun failure =>
    failure.report colors Session.location (.ofString reply.code)

end Reply

end FrenchNim
