import FrenchNim.Project.Workspace

namespace FrenchNim

/-!
# Source files of a project

Reading a source file fails with its path, and what is wrong inside of it is
reported as a failure of that file.
-/

namespace Project

/-- A source file cannot be read. -/
def unreadable (path reason : String) : Failure :=
  .wrapped ("failed to read source " ++ path) (.plain reason)

/-- The text that the positions of a failure refer to. -/
def reportedCode (code : Source) : Failure → Source
  | .parsing prepared _ => prepared
  | _ => code

/-- The Nim code of the content of a source file. -/
def transpileContent (normalizer : Normalizer) (library path : String) (content : Bytes) :
    Except Failure String :=
  let code := Source.ofBytes content
  match Pipeline.transpile normalizer library code with
  | .ok generated => .ok generated
  | .error failure => .error (.source path (reportedCode code failure) failure)

/-- The Nim code of the source file at an address. -/
def transpileFile (normalizer : Normalizer) (library : String) (source : Address) :
    Work String := do
  match ← Work.read source with
  | .error reason => throw (unreadable source.text reason)
  | .ok content =>
      match transpileContent normalizer library source.text content with
      | .ok generated => return generated
      | .error failure => throw failure

/-- The Nim code of the source file that a path leads to. -/
def transpileThrough (host : Host) (normalizer : Normalizer) (library path : String) :
    Work String := do
  match (← Work.files).readThrough host.working path with
  | .error error => throw (unreadable path (error.message path))
  | .ok content =>
      match transpileContent normalizer library path content with
      | .ok generated => return generated
      | .error failure => throw failure

end Project

end FrenchNim
