import FrenchNim.Project.Workspace

namespace FrenchNim

/-!
# Compilation

A module is compiled in a directory of its own, beside copies of the files that
it needs, and the binary is copied from there. The directory is gone afterwards,
whatever happened.
-/

namespace Compile

/-- Copy a file. A directory cannot be copied, but its copy is already created by then. -/
def copyFile (source destination : Address) (executable : Bool) : Work Unit := do
  let files ← Work.files
  let create (content : Bytes) : Work Unit := do
    match ← Work.write destination content executable with
    | none => return ()
    | some reason => throw (.wrapped ("failed to create " ++ destination.text) (.plain reason))
  match files.look source.location with
  | .error fault =>
      throw (.wrapped ("failed to open " ++ source.text)
        (.plain ((FileError.mk "open" fault).message source.text)))
  | .ok (.file content _) => create content
  | .ok .directory =>
      create []
      throw (.wrapped ("failed to copy " ++ source.text)
        (.plain ((FileError.mk "read" .isDirectory).message source.text)))

/-- Work with a scratch directory that exists only meanwhile. -/
def withScratch {α : Type} (scratch : Location) (work : Work α) : Work α :=
  ExceptT.mk fun workspace =>
    let prepared := { workspace with files := workspace.files.put scratch .directory }
    let result := work.runOn prepared
    (result.1, { result.2 with files := result.2.files.remove scratch })

/-- The address of a file in the scratch directory. -/
def scratchAddress (host : Host) (name : String) : Address :=
  .ofLocation (host.scratch.follow name)

/-- The command that compiles a module. -/
def invocation (host : Host) (config : Config) (main : Address) : Invocation :=
  { program := config.compiler
    arguments := ["c", "--os:" ++ config.target.nimSystem, main.location.name]
    directory := host.scratch
    limit := config.timeout }

/-- Run the compiler in the scratch directory. -/
def runCompiler (host : Host) (config : Config) (main : Address) : Work Unit := do
  Work.log .info "compiling"
    [("main", .text main.text), ("compiler", .text config.compiler),
     ("target", .text config.target.name)]
  let execution := host.execute (← Work.files) (invocation host config main)
  Work.setFiles execution.files
  match execution.ending with
  | .succeeded =>
      Work.log .debug "compiler finished" [("output", .text execution.output)]
  | .failed reason => throw (.compilation execution.output (.plain reason))
  | .timedOut => throw (.compilation execution.output (.deadline config.timeout.text))

/-- Copy the binary out of the scratch directory, if there is one. -/
def takeBinary (host : Host) (config : Config) (main : Address) (destination : Location) :
    Work (Option Address) := do
  let name := config.target.binaryName (dropEnding nimEnding main.location.name)
  let produced := scratchAddress host name
  if (← Work.files).holds produced.location then
    let binary := Address.ofLocation (destination.follow name)
    copyFile produced binary true
    Work.log .info "compiled" [("binary", .text binary.text)]
    return some binary
  else
    Work.log .warn "compiler produced no binary" [("binary", .text name)]
    return none

/--
Compile a module together with the files that it needs, and copy the binary into
a directory. There is no address if the compiler produced no binary.
-/
def compile (host : Host) (config : Config) (main : Address) (others : List Address)
    (destination : Location) : Work (Option Address) :=
  withScratch host.scratch do
    for file in main :: others do
      copyFile file (scratchAddress host file.location.name) false
    runCompiler host config main
    takeBinary host config main destination

end Compile

end FrenchNim
