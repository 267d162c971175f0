import FrenchNim.Project.Compile
import FrenchNim.Project.Dependencies
import FrenchNim.Project.Library

namespace FrenchNim

/-!
# Builds

A build transpiles an entry file and all its dependencies, writes the standard
library beside the result, and compiles it if this is wanted. Nothing is written
before every source is known to parse.
-/

/-- A generated file and its source. -/
structure Output where
  source : Location
  file : Address
  deriving Repr, DecidableEq

/-- What a build made. The output of the entry is the last one. -/
structure BuildResult where
  library : String
  outputs : List Output
  bundle? : Option Bundle
  binary? : Option Address
  deriving Repr, DecidableEq

namespace BuildResult

/-- The output of the entry file. -/
def main? (result : BuildResult) : Option Output :=
  result.outputs.getLast?

end BuildResult

namespace Build

/-- The name of the library module of a build. -/
def libraryName (host : Host) (config : Config) : String :=
  if config.library = "" then Library.namePrefix ++ host.identity else config.library

/-- The address of the Nim file of a source. -/
def outputAddress (host : Host) (config : Config) (source : Location) : Address :=
  let name := dropEnding sourceEnding source.name ++ nimEnding
  if config.output = "" then
    .ofLocation (source.parent.follow name)
  else
    .inDirectory host.working config.output name

/-- The clean path of the directory of the Nim file of a source. -/
def outputDirectory (host : Host) (config : Config) (source : Location) : String :=
  CleanPath.directory (outputAddress host config source).text

/-- Transpile a source and write its Nim file. -/
def buildFile (host : Host) (config : Config) (library : String) (source : Location) :
    Work Output := do
  let generated ← Project.transpileFile config.normalizer library (.ofLocation source)
  let file := outputAddress host config source
  match ← Work.write file (textBytes generated) false with
  | some reason => throw (.wrapped ("failed to write " ++ file.text) (.plain reason))
  | none =>
      Work.log .info "transpiled" [("source", .text source.text), ("output", .text file.text)]
      return ⟨source, file⟩

/-- Make the output directory, if one is configured. -/
def makeOutputDirectory (host : Host) (config : Config) : Work Unit := do
  if config.output ≠ "" then
    let made := (← Work.files).makeDirectories host.working config.output
    Work.setFiles made.1
    match made.2 with
    | none => return ()
    | some (path, error) =>
        throw (.wrapped "failed to create output directory" (.plain (error.message path)))

/-- What is said when the user stopped the work. -/
def canceled : Failure := .plain "context canceled"

/-- Transpile all sources one after the other. -/
def buildFiles (host : Host) (config : Config) (library : String) (sources : List Location) :
    Work (List Output) := do
  if host.canceled then
    throw canceled
  else
    sources.mapM (buildFile host config library)

/-- Compile the output of the entry, if this is wanted. -/
def compileEntry (host : Host) (config : Config) (library : String) (entry : Location)
    (dependencies : List Output) : Work (Option Address) := do
  if config.compile then
    let directory := outputDirectory host config entry
    let libraryFiles := Library.bundledFiles (← Work.files) host directory library
    Compile.compile host config (outputAddress host config entry)
      (dependencies.map (·.file) ++ libraryFiles) entry.parent
  else
    return none

/-- Build the program whose entry file a path names. -/
def build (host : Host) (config : Config) (path : String) : Work BuildResult := do
  let entry := host.working.follow path
  let library := libraryName host config
  let dependencies ← Dependencies.discover config.normalizer entry
  makeOutputDirectory host config
  let outputs ← buildFiles host config library (dependencies ++ [entry])
  let bundle? ← Library.bundle host config (outputDirectory host config entry) library
  let binary? ← compileEntry host config library entry outputs.dropLast
  return ⟨library, outputs, bundle?, binary?⟩

end Build

end FrenchNim
