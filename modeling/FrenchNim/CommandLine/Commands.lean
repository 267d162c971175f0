import FrenchNim.CommandLine.Flags
import FrenchNim.Json.Color
import FrenchNim.Json.Pretty
import FrenchNim.Project.Build
import FrenchNim.Session.Commands
import FrenchNim.Syntax.Json

namespace FrenchNim

/-!
# Commands

What the program does for each command: build programs, show the tree of a file,
format a file, or tell its version. A command reads and writes a file tree, prints,
and ends with an exit code.
-/

/-- What a command leaves behind. -/
structure Outcome where
  exitCode : Nat
  output : String
  complaint : String
  files : FileSystem

namespace CommandLine

/-- A command that succeeded. -/
def succeeded (files : FileSystem) (output : String) : Outcome :=
  ⟨0, output, "", files⟩

/-- A command that failed after it printed something. -/
def failed (files : FileSystem) (output : String) (failure : Failure) : Outcome :=
  ⟨1, output, failure.printed true, files⟩

/-- Arguments that are not accepted. The explanation of the flags is printed, too. -/
def misused (files : FileSystem) (command : String) (flags : List Flag) : FlagFault → Outcome
  | .help => ⟨1, "", Flags.usage command flags, files⟩
  | .rejected message =>
      ⟨1, "", message ++ "\n" ++ Flags.usage command flags ++ (Failure.plain message).printed true,
        files⟩

/-! ## Commands on one file -/

/-- The path and the program of the only file of a command. -/
def soleProgram (host : Host) (files : FileSystem) (operands : List String) :
    Except Failure (String × Program) :=
  match operands with
  | [path] =>
      match files.readThrough host.working path with
      | .error error => .error (.plain (error.message path))
      | .ok content =>
          let code := Source.ofBytes content
          match Pipeline.parse Config.default.normalizer code with
          | .error failure => .error (.source path code failure)
          | .ok program => .ok (path, program)
  | _ => .error (.user "expected exactly one source file")

/-- The flags of the command that shows trees. -/
def treeFlags : List Flag :=
  [⟨"color", .switch, "colorize the output", ""⟩]

/-- The tree of a program as text. -/
def treeText (color : Bool) (program : Program) : Except Failure String :=
  match program.toJson.writable with
  | .error fault => .error (.plain fault.message)
  | .ok tree => .ok (if color then Json.colored tree.pretty else tree.pretty)

/-- Show the tree of a file. -/
def runTree (host : Host) (files : FileSystem) (arguments : List String) : Outcome :=
  match Flags.parse treeFlags [] arguments with
  | .error fault => misused files "ast" treeFlags fault
  | .ok parsed =>
      let shown := do
        let program ← soleProgram host files parsed.operands
        treeText (parsed.isOn "color") program.2
      match shown with
      | .ok text => succeeded files text
      | .error failure => failed files "" failure

/-- The flags of the command that formats. -/
def formatFlags : List Flag :=
  [⟨"w", .switch, "write the result to the file instead of printing it", ""⟩]

/-- Format a file. -/
def runFormat (host : Host) (files : FileSystem) (arguments : List String) : Outcome :=
  match Flags.parse formatFlags [] arguments with
  | .error fault => misused files "fmt" formatFlags fault
  | .ok parsed =>
      match soleProgram host files parsed.operands with
      | .error failure => failed files "" failure
      | .ok (path, program) =>
          let text := program.render ++ "\n"
          if parsed.isOn "w" then
            match files.writeThrough host.working path (textBytes text) with
            | .ok changed => succeeded changed ""
            | .error error => failed files "" (.plain (error.message path))
          else
            succeeded files text

/-! ## Builds -/

/-- The flags of the command that builds. -/
def buildFlags : List Flag :=
  [⟨"compile", .switch, "compile the generated code", ""⟩,
   ⟨"config", .text, "configuration file", Config.fileName⟩,
   ⟨"jobs", .integer, "maximum number of files transpiled concurrently", ""⟩,
   ⟨"output", .text, "output directory, next to the sources if empty", ""⟩,
   ⟨"prefix", .text, "stdlib prefix, random if empty", ""⟩,
   ⟨"stdlib", .text, "stdlib directory", ""⟩,
   ⟨"target", .text, "target operating system (macos|windows|linux)", ""⟩,
   ⟨"timeout", .duration, "compiler timeout", ""⟩,
   ⟨"v", .switch, "log debug messages", ""⟩]

/-- The configuration in a file. -/
def loadConfig (host : Host) (files : FileSystem) (path : String) : Except Failure Config :=
  match files.readThrough host.working path with
  | .error error =>
      .error (.wrapped ("failed to read configuration " ++ path) (.plain (error.message path)))
  | .ok content => Config.read (Source.ofBytes content).shown

/-- The configuration that a build starts from. The usual configuration file may be missing. -/
def baseConfig (host : Host) (files : FileSystem) (path : String) : Except Failure Config :=
  if path = Config.fileName then
    match files.lookThrough host.working path with
    | .error .missing => .ok Config.default
    | _ => loadConfig host files path
  else
    loadConfig host files path

/-- Change a configuration by one flag. -/
def applyFlag (config : Config) (setting : String × FlagValue) : Except Failure Config :=
  match setting with
  | ("compile", .switch value) => .ok { config with compile := value }
  | ("jobs", .integer value) => .ok { config with jobs := .count value }
  | ("output", .text value) => .ok { config with output := value }
  | ("prefix", .text value) => .ok { config with library := value }
  | ("stdlib", .text value) => .ok { config with libraryDirectory := value }
  | ("target", .text value) => do
      let target ← Target.read value
      return { config with target := target }
  | ("timeout", .duration value) => .ok { config with timeout := value }
  | _ => .ok config

/-- The flags that were set, each with its last value, by name. -/
def finalSettings (parsed : ParsedFlags) : List (String × FlagValue) :=
  buildFlags.filterMap fun flag => (parsed.value? flag.name).map fun value => (flag.name, value)

/-- The path of the configuration file of a build. -/
def configPath (parsed : ParsedFlags) : String :=
  match parsed.value? "config" with
  | some (.text path) => path
  | _ => Config.fileName

/-- The configuration of a build: the file, then the flags, then defaults for what is missing. -/
def buildConfig (host : Host) (files : FileSystem) (parsed : ParsedFlags) :
    Except Failure Config := do
  let base ← baseConfig host files (configPath parsed)
  let config ← (finalSettings parsed).foldlM applyFlag base
  return config.completed

/-- What is printed about a build. -/
def buildReport (result : BuildResult) : String :=
  let outputs := result.outputs.map fun output =>
    "Transpiled " ++ output.source.text ++ " -> " ++ output.file.text ++ "\n"
  let bundle := (result.bundle?.map fun bundle =>
    "Bundled stdlib " ++ bundle.module.text ++ "\n").getD ""
  let binary := (result.binary?.map fun binary => "Compiled " ++ binary.text ++ "\n").getD ""
  String.join outputs ++ bundle ++ binary

/-- Build programs one after the other until the first failure. -/
def buildAll (host : Host) (config : Config) (printed : String) (workspace : Workspace) :
    List String → Outcome
  | [] => succeeded workspace.files printed
  | path :: rest =>
      match (Build.build host config path).runOn workspace with
      | (.ok result, next) => buildAll host config (printed ++ buildReport result) next rest
      | (.error failure, next) => failed next.files printed failure

/-- Build programs. -/
def runBuild (host : Host) (files : FileSystem) (arguments : List String) : Outcome :=
  match Flags.parse buildFlags [] arguments with
  | .error fault => misused files "build" buildFlags fault
  | .ok parsed =>
      if parsed.operands.isEmpty then
        failed files "" (.user "expected at least one source file")
      else
        match buildConfig host files parsed with
        | .error failure => failed files "" failure
        | .ok config => buildAll host config "" ⟨files, []⟩ parsed.operands

/-! ## All commands -/

/-- How commands are used and what they do. -/
def summaries : List (String × String) :=
  [("ast [-color] file", "Prints the AST of the file as JSON"),
   ("build [flags] files...",
    "Transpiles the files and their imports to Nim, and optionally compiles them"),
   ("fmt [-w] file", "Prints the file in canonical form"),
   ("repl", "Starts an interactive session printing the Nim code of each input"),
   ("version", "Prints the version")]

/-- A text filled up with blanks. -/
def padded (width : Nat) (text : String) : String :=
  text ++ String.ofList (List.replicate (width - text.length) ' ')

/-- The list of all commands. -/
def overview : String :=
  "Usage: fr2nim <command> [arguments]\n\nAvailable commands:\n" ++
    String.join (summaries.map fun summary =>
      "  " ++ padded 30 summary.1 ++ " " ++ summary.2 ++ "\n")

/-- Run the program with arguments. A session prints its welcome and waits for lines. -/
def run (host : Host) (files : FileSystem) (arguments : List String) : Outcome :=
  match arguments with
  | [] => ⟨1, "", overview, files⟩
  | "ast" :: rest => runTree host files rest
  | "build" :: rest => runBuild host files rest
  | "fmt" :: rest => runFormat host files rest
  | "repl" :: _ => succeeded files Session.welcome
  | "version" :: _ => succeeded files ("fr2nim " ++ version ++ "\n")
  | command :: _ => ⟨1, "", "Unknown command " ++ command ++ "\n" ++ overview, files⟩

end CommandLine

end FrenchNim
