import FrenchNim.Failure.Report
import FrenchNim.Files.FileSystem
import FrenchNim.Settings.Config

namespace FrenchNim

/-!
# Workspaces

A workspace is a file tree together with a log of what was done to it. Work is
anything that changes a workspace and may fail; what was done before a failure
stays done. All that work needs to know of the machine it runs on is its host.
-/

/-- How important a log entry is. -/
inductive LogLevel where
  | debug
  | info
  | warn
  deriving Repr, DecidableEq

/-- The value of a field of a log entry. -/
inductive LogValue where
  | text (value : String)
  | number (value : Nat)
  deriving Repr, DecidableEq

/-- A log entry. -/
structure LogEntry where
  level : LogLevel
  message : String
  fields : List (String × LogValue)
  deriving Repr, DecidableEq

/-- A file tree and the log of the work on it. -/
structure Workspace where
  files : FileSystem
  log : List LogEntry
  deriving Repr, DecidableEq

/-- A command to run: a program, its arguments, where it runs and how long it may take. -/
structure Invocation where
  program : String
  arguments : List String
  directory : Location
  limit : Duration
  deriving Repr

/-- How a command ended. -/
inductive Ending where
  | succeeded
  | failed (reason : String)
  | timedOut
  deriving Repr, DecidableEq

/-- What became of a command. -/
structure Execution where
  files : FileSystem
  output : String
  ending : Ending

/-- The machine that work runs on. -/
structure Host where
  /-- The working directory. -/
  working : Location
  /-- A directory for the time of a compilation. -/
  scratch : Location
  /-- A name that no other build has. -/
  identity : String
  /-- The user wants the work to stop. -/
  canceled : Bool
  /-- Run a command. -/
  execute : FileSystem → Invocation → Execution

/-- Work on a workspace. -/
abbrev Work := ExceptT Failure (StateM Workspace)

namespace Work

/-- The file tree. -/
def files : Work FileSystem := do
  return (← get).files

/-- Replace the file tree. -/
def setFiles (files : FileSystem) : Work Unit :=
  modify fun workspace => { workspace with files := files }

/-- Add to the log. -/
def log (level : LogLevel) (message : String) (fields : List (String × LogValue)) : Work Unit :=
  modify fun workspace => { workspace with log := workspace.log ++ [⟨level, message, fields⟩] }

/-- Read the file at an address. -/
def read (address : Address) : Work (Except String Bytes) := do
  return ((← files).read address.location).mapError (·.message address.text)

/-- Write the file at an address. The result is a message if this fails. -/
def write (address : Address) (content : Bytes) (executable : Bool) :
    Work (Option String) := do
  match (← files).write address.location content executable with
  | .ok changed =>
      setFiles changed
      return none
  | .error error => return some (error.message address.text)

/-- Run work and return what it leaves behind. -/
def runOn {α : Type} (work : Work α) (workspace : Workspace) : Except Failure α × Workspace :=
  (ExceptT.run work).run workspace

end Work

/-- The bytes of a text. -/
def textBytes (text : String) : Bytes :=
  text.toUTF8.toList

/-- The ending of source files. -/
def sourceEnding : String := ".fr"

/-- The ending of Nim files. -/
def nimEnding : String := ".nim"

end FrenchNim
