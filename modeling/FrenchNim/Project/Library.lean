import FrenchNim.Files.Glob
import FrenchNim.Project.Source

namespace FrenchNim

/-!
# The standard library of a build

Every build has its own copy of the standard library: a module that includes one
file for each library source. The names of the copies end with the identifier of
the build, so that builds in one directory do not meet.
-/

/-- A copy of the standard library: its module and the files the module includes. -/
structure Bundle where
  module : Address
  files : List Address
  deriving Repr, DecidableEq

namespace Library

/-- What the names of library modules with an identifier start with. -/
def namePrefix : String := standardLibrary ++ "_"

/-- The identifier of a library module: its name without the common start. -/
def identifier (library : String) : String :=
  dropLeading namePrefix library

/-- The first lines of a library module. -/
def header : String := "# Standard Library - Auto-generated\n\n"

/-- The name of the copy of a library source, without its ending. -/
def copyName (library source : String) : String :=
  dropEnding (CleanPath.extension source) source ++ "_" ++ identifier library

/-- The text of the module that includes the copies of the given sources. -/
def moduleText (library : String) (sources : List String) : String :=
  header ++ String.join (sources.map fun source =>
    "include \"./" ++ copyName library source ++ "\"\n")

/-- The files of a directory with an ending. -/
def sourcesEnding (files : FileSystem) (directory : Location) (ending : String) : List String :=
  (files.names directory).filter fun name =>
    CleanPath.extension name = ending && !files.isDirectory (directory ++ [name])

/-- Write the copy of a library source. -/
def writeCopy (host : Host) (destination library source : String) (content : Bytes) :
    Work Address := do
  let copy := Address.inDirectory host.working destination (copyName library source ++ nimEnding)
  match ← Work.write copy content false with
  | none => return copy
  | some reason =>
      throw (.wrapped ("failed to write stdlib file " ++ copy.text) (.plain reason))

/-- Copy a Nim source of the library. -/
def copyNim (host : Host) (config : Config) (destination library source : String) :
    Work Address := do
  let stored := Address.inDirectory host.working config.libraryDirectory source
  match ← Work.read stored with
  | .error reason =>
      throw (.wrapped ("failed to read stdlib file " ++ source) (.plain reason))
  | .ok content => writeCopy host destination library source content

/-- Transpile a French source of the library. -/
def copyFrench (host : Host) (config : Config) (destination library source : String) :
    Work Address := do
  let stored := Address.inDirectory host.working config.libraryDirectory source
  let generated ← Project.transpileFile config.normalizer standardLibrary stored
  writeCopy host destination library source (textBytes generated)

/-- Write a library module and the copies that it includes. -/
def writeBundle (host : Host) (config : Config) (directory : Location)
    (destination library : String) (module : Address) : Work Bundle := do
  let files ← Work.files
  let nimSources := sourcesEnding files directory nimEnding
  let frenchSources := sourcesEnding files directory sourceEnding
  match ← Work.write module (textBytes (moduleText library (nimSources ++ frenchSources))) false with
  | some reason => throw (.wrapped "failed to write stdlib bundle" (.plain reason))
  | none =>
      let nimCopies ← nimSources.mapM (copyNim host config destination library)
      let frenchCopies ← frenchSources.mapM (copyFrench host config destination library)
      let bundle : Bundle := ⟨module, nimCopies ++ frenchCopies⟩
      Work.log .info "bundled stdlib"
        [("bundle", .text module.text), ("files", .number bundle.files.length)]
      return bundle

/-- The address of a library module. -/
def moduleAddress (host : Host) (destination library : String) : Address :=
  Address.inDirectory host.working destination (library ++ nimEnding)

/--
Write the standard library into a directory.

Nothing is written if no library is configured, if its directory does not exist,
or if the library module is already there.
-/
def bundle (host : Host) (config : Config) (destination library : String) :
    Work (Option Bundle) := do
  if config.libraryDirectory = "" then
    return none
  let files ← Work.files
  let found := do
    let directory ← files.locate host.working config.libraryDirectory
    let entry ← files.look directory
    return (directory, entry)
  let unreadable (fault : FileFault) : Failure :=
    .wrapped ("failed to read stdlib " ++ config.libraryDirectory)
      (.plain ((FileError.mk "open" fault).message config.libraryDirectory))
  match found with
  | .error .missing =>
      Work.log .debug "stdlib directory not found" [("stdlib", .text config.libraryDirectory)]
      return none
  | .error fault => throw (unreadable fault)
  | .ok (_, .file _ _) => throw (unreadable .notDirectory)
  | .ok (directory, .directory) =>
      let module := moduleAddress host destination library
      if files.holds module.location then
        Work.log .debug "stdlib bundle exists" [("bundle", .text module.text)]
        return none
      else
        return some (← writeBundle host config directory destination library module)

/-- The library files in a directory: the module, and every copy with its identifier. -/
def bundledFiles (files : FileSystem) (host : Host) (directory library : String) : List Address :=
  let module := moduleAddress host directory library
  if files.holds module.location then
    let pattern := CleanPath.join directory ("*_" ++ identifier library ++ nimEnding)
    let copies := ((Glob.expand? files host.working pattern).getD []).filter (· ≠ module.text)
    module :: copies.map (Address.ofPath host.working)
  else
    []

end Library

end FrenchNim
