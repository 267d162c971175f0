import FrenchNim.Script.Tools
import FrenchNim.Text.Escaped

namespace FrenchNim

/-!
# Running commands

A command is a tool or an executable script. Scripts run one command after the
other until they end, exit or have run for too long.
-/

namespace Script

/-- Why a script does not go on. -/
inductive Stop where
  | exited
  | timedOut
  deriving Repr, DecidableEq

/-- The state of a running script. -/
structure Shell where
  files : FileSystem
  directory : Location
  parameters : Parameters
  /-- The script ends when a command fails. -/
  strict : Bool
  output : Bytes
  /-- The nanoseconds it has waited. -/
  elapsed : Nat
  stop : Option Stop

namespace Shell

/-- The status of the last command. -/
def status (shell : Shell) : Nat :=
  shell.parameters.status

/-- Set the status of the last command. -/
def withStatus (shell : Shell) (status : Nat) : Shell :=
  { shell with parameters := { shell.parameters with status := status } }

/-- Add to what the script printed. -/
def print (shell : Shell) (output : Bytes) : Shell :=
  { shell with output := shell.output ++ output }

end Shell

/-- Where the output of a command goes. -/
inductive Sink where
  | printed
  | discarded
  | file (location : Location)
  deriving Repr, DecidableEq

/-- Where a path sends output to. Files are emptied, unless the output is added to them. -/
def openSink (files : FileSystem) (directory : Location) (append : Bool) (path : String) :
    Except FileFault (FileSystem × Sink) :=
  if path = "/dev/null" then
    .ok (files, .discarded)
  else if path = "/dev/stdout" ∨ path = "/dev/stderr" then
    .ok (files, .printed)
  else
    match files.locate directory path with
    | .error fault => .error fault
    | .ok location =>
        let kept := if append then ((files.read location).toOption).getD [] else []
        match files.write location kept false with
        | .ok changed => .ok (changed, .file location)
        | .error error => .error error.fault

/-- The file tree and the two outputs of a command. -/
structure Sinks where
  files : FileSystem
  output : Sink
  complaint : Sink

/-- Open the files that a command prints to. The result is a path if one cannot be opened. -/
def openSinks (shell : Shell) (sinks : Sinks) : List Redirection → Except String Sinks
  | [] => .ok sinks
  | redirection :: rest =>
      let path := String.intercalate " "
        (expandWord sinks.files shell.directory shell.parameters redirection.file)
      match openSink sinks.files shell.directory redirection.append path with
      | .error _ => .error path
      | .ok (files, sink) =>
          if redirection.descriptor = 2 then
            openSinks shell { sinks with files := files, complaint := sink } rest
          else
            openSinks shell { sinks with files := files, output := sink } rest

/-- Send bytes to a sink. -/
def pour (shell : Shell) (sink : Sink) (bytes : Bytes) : Shell :=
  match sink with
  | .printed => shell.print bytes
  | .discarded => shell
  | .file location =>
      let content := ((shell.files.read location).toOption).getD []
      match shell.files.write location (content ++ bytes) false with
      | .ok files => { shell with files := files }
      | .error _ => shell

/-- Take over what a tool did. -/
def absorb (limit : Nat) (sinks : Sinks) (shell : Shell) (effect : Effect) : Shell :=
  let elapsed := shell.elapsed + effect.waited
  let changed := { shell with files := effect.files, elapsed := elapsed }
  let printed := pour (pour changed sinks.output effect.output) sinks.complaint effect.complaint
  let ended := printed.withStatus effect.status
  if limit ≤ elapsed ∧ 0 < effect.waited then { ended with stop := some .timedOut } else ended

/-- The script goes no further than this. -/
def Shell.exited (shell : Shell) : Shell :=
  { shell with stop := some (shell.stop.getD .exited) }

/-- A complaint of the script about one of its lines. -/
def complaint (shell : Shell) (line : Nat) (text : String) : String :=
  shell.parameters.script ++ ": " ++ Nat.repr line ++ ": " ++ text ++ "\n"

/-- End the script with a status. -/
def exit (line : Nat) (shell : Shell) (arguments : List String) : Shell :=
  match arguments with
  | [] => shell.exited
  | argument :: _ =>
      match argument.toNat? with
      | some status => (shell.withStatus (status % 256)).exited
      | none =>
          let text := complaint shell line ("exit: Illegal number: " ++ argument)
          ((shell.print (textBytes text)).withStatus 2).exited

/-- Change how the script goes on. -/
def configure (shell : Shell) (arguments : List String) : Shell :=
  if arguments.any (fun argument => argument.toList.head? = some '-' && argument.contains 'e') then
    { shell with strict := true }.withStatus 0
  else
    shell.withStatus 0

/-- Drop the first argument of the script. -/
def dropArgument (shell : Shell) : Shell :=
  { shell with parameters :=
      { shell.parameters with arguments := shell.parameters.arguments.drop 1 } }.withStatus 0

/-- Complain about a command that does not exist. -/
def notFound (limit line : Nat) (sinks : Sinks) (shell : Shell) (name : String) : Shell :=
  let text := complaint shell line (name ++ ": not found")
  absorb limit sinks shell (.complaining sinks.files text 127)

/-- Run a command whose words are known. -/
def runWords (limit line : Nat) (sinks : Sinks) (shell : Shell) : List String → Shell
  | [] => { shell with files := sinks.files }.withStatus 0
  | name :: arguments =>
      if name = "exit" then
        exit line { shell with files := sinks.files } arguments
      else if name = "exec" then
        if arguments.isEmpty then
          { shell with files := sinks.files }.withStatus 0
        else if programs.contains (arguments.headD "") then
          (runWords limit line sinks shell arguments).exited
        else
          (notFound limit line sinks shell ("exec: " ++ arguments.headD "")).exited
      else if name = "set" then
        configure { shell with files := sinks.files } arguments
      else if name = "shift" then
        dropArgument { shell with files := sinks.files }
      else if name = "cd" then
        match sinks.files.locate shell.directory (arguments.head?.getD "/") with
        | .ok location =>
            { shell with files := sinks.files, directory := location }.withStatus 0
        | .error _ => { shell with files := sinks.files }.withStatus 2
      else
        match runTool? sinks.files shell.directory name arguments with
        | some effect => absorb limit sinks shell effect
        | none => notFound limit line sinks shell name

/-- Set variables. -/
def assign (shell : Shell) : List (String × Word) → Shell
  | [] => shell
  | (name, value) :: rest =>
      let text := String.intercalate " "
        (expandWord shell.files shell.directory shell.parameters value)
      let bindings := (name, text) :: shell.parameters.bindings
      assign { shell with parameters := { shell.parameters with bindings := bindings } } rest

/-- Run a command. Assignments in front of other words hold for that command alone. -/
def runCommand (limit : Nat) (shell : Shell) (command : Command) : Shell :=
  let assignments := (command.words.takeWhile fun word => (assignment? word).isSome).filterMap
    assignment?
  let words := command.words.drop assignments.length
  let fields := words.flatMap (expandWord shell.files shell.directory shell.parameters)
  match openSinks shell ⟨shell.files, .printed, .printed⟩ command.redirections with
  | .error path =>
      let text := complaint shell command.line
        ("cannot create " ++ path ++ ": Directory nonexistent")
      (shell.print (textBytes text)).withStatus 2
  | .ok sinks =>
      if fields.isEmpty then
        (assign { shell with files := sinks.files } assignments).withStatus 0
      else
        runWords limit command.line sinks shell fields

/-- A command is due. -/
def isDue (shell : Shell) (command : Command) : Bool :=
  match command.connector with
  | .always => true
  | .onSuccess => shell.status = 0
  | .onFailure => shell.status ≠ 0

/-- Nothing depends on the status of the command in front of these commands. -/
def isUnobserved (rest : List Command) : Bool :=
  (rest.head?.map fun command => decide (command.connector = .always)).getD true

/-- Run the commands of a script. -/
def runCommands (limit : Nat) (shell : Shell) : List Command → Shell
  | [] => shell
  | command :: rest =>
      if shell.stop.isSome then
        shell
      else if isDue shell command then
        let ran := runCommand limit shell command
        let failed := ran.strict && ran.status ≠ 0 && isUnobserved rest
        runCommands limit (if failed then ran.exited else ran) rest
      else
        runCommands limit shell rest

/-- How a script ended. -/
def ending (shell : Shell) : Ending :=
  if shell.stop = some .timedOut then
    .timedOut
  else if shell.status = 0 then
    .succeeded
  else
    .failed ("exit status " ++ Nat.repr shell.status)

/-- What a shell leaves behind. -/
def execution (shell : Shell) : Execution :=
  ⟨shell.files, (Source.ofBytes shell.output).shown, ending shell⟩

/-- The programs that run scripts. -/
def interpreters : List String :=
  ["/bin/sh", "/bin/dash", "/bin/bash", "/usr/bin/sh", "/usr/bin/bash", "/usr/bin/env sh",
   "/usr/bin/env bash"]

/-- The interpreter a script names in its first line. -/
def interpreter? (text : List Char) : Option String :=
  match text with
  | '#' :: '!' :: rest =>
      let line := String.ofList (rest.takeWhile (· ≠ '\n'))
      interpreters.find? fun interpreter =>
        dropLeading interpreter (trimText line) ≠ trimText line
  | _ => none

/-- A shell before its first command. -/
def startShell (files : FileSystem) (invocation : Invocation) : Shell :=
  { files := files
    directory := invocation.directory
    parameters := ⟨invocation.program, invocation.arguments, [], 0⟩
    strict := false
    output := []
    elapsed := 0
    stop := none }

/-- Run the text of a script. -/
def runScript (files : FileSystem) (invocation : Invocation) (text : String) : Execution :=
  let shell := startShell files invocation
  match commands? text with
  | none =>
      let complaint := invocation.program ++ ": Syntax error\n"
      execution ((shell.print (textBytes complaint)).withStatus 2)
  | some commands => execution (runCommands invocation.limit.nanoseconds.toNat shell commands)

/-- A command that cannot be started. -/
def unstarted (files : FileSystem) (invocation : Invocation) (fault : FileFault) : Execution :=
  ⟨files, "", .failed ((FileError.mk "fork/exec" fault).message invocation.program)⟩

/-- Run a program that is named without a directory. -/
def executeTool (files : FileSystem) (invocation : Invocation) : Execution :=
  let shell := startShell files invocation
  if programs.contains invocation.program then
    execution (runWords invocation.limit.nanoseconds.toNat 1 ⟨files, .printed, .printed⟩ shell
      (invocation.program :: invocation.arguments))
  else
    ⟨files, "", .failed ("exec: " ++ Escaped.quote invocation.program ++
      ": executable file not found in $PATH")⟩

/-- Run a command. -/
def execute (files : FileSystem) (invocation : Invocation) : Execution :=
  if !invocation.program.toList.contains '/' then
    executeTool files invocation
  else
    match files.lookThrough invocation.directory invocation.program with
    | .error fault => unstarted files invocation fault
    | .ok .directory => unstarted files invocation .denied
    | .ok (.file content executable) =>
        let text := (Source.ofBytes content).shown
        if !executable then
          unstarted files invocation .denied
        else if (interpreter? text.toList).isSome then
          runScript files invocation text
        else if ['#', '!'].isPrefixOf text.toList then
          unstarted files invocation .missing
        else
          unstarted files invocation .notRunnable

end Script

end FrenchNim
