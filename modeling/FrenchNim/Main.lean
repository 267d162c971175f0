import FrenchNim.CommandLine.Commands
import FrenchNim.Script.Run

namespace FrenchNim.Machine

/-!
# The program

Everything the program does is decided by pure functions on a file tree. This
module reads the tree below the working directory, runs the command, and writes
back what has changed.
-/

/-- Read a directory of the machine, its own entry first. -/
partial def readTree (path : String) (location : Location) :
    IO (List (Location × Entry)) := do
  let directory ← IO.FS.realPath path
  let mut entries : List (Location × Entry) := [(location, .directory)]
  for entry in ← directory.readDir do
    let place := location ++ [entry.fileName]
    if ← entry.path.isDir then
      entries := entries ++ (← readTree entry.path.toString place)
    else
      let content ← IO.FS.readBinFile entry.path
      entries := entries ++ [(place, .file content.toList true)]
  return entries

/-- The directories above a location, the root not included. -/
def directoriesAbove (location : Location) : List (Location × Entry) :=
  ((List.range location.length).drop 1).map fun count => (location.take count, .directory)

/-- Make the machine hold what a file tree holds that another one does not. -/
def writeChanges (before after : FileSystem) : IO Unit := do
  for (location, entry) in after.entries do
    if before.at? location ≠ some entry then
      match entry with
      | .directory => IO.FS.createDirAll location.text
      | .file content _ => IO.FS.writeBinFile location.text ⟨content.toArray⟩
  for (location, entry) in before.entries.reverse do
    if !after.holds location then
      match entry with
      | .directory => IO.FS.removeDirAll location.text
      | .file _ _ => IO.FS.removeFile location.text

/-- A name that no other build has. -/
def freshIdentity : IO String := do
  let bytes ← IO.getRandomBytes 8
  return String.ofList (bytes.toList.flatMap fun byte => Escaped.hexDigits 2 byte.toNat)

/-- Answer lines until there are no more. -/
partial def converse (session : Session) (input output errors : IO.FS.Stream) : IO Unit := do
  output.putStr (toString session.lineNumber ++ (if session.isContinuation then ". " else "> "))
  output.flush
  let line ← input.getLine
  if line.isEmpty then
    return
  let text := dropEnding "\n" line
  if !session.isContinuation && text.toList.head? = some '.' then
    if text = ".exit" then
      return
    output.putStr (Session.respond text)
    converse session input output errors
  else
    let answered := session.accept (Normalizer.ofFlag true) text
    match answered.1.report? true with
    | some report => errors.putStr report
    | none =>
        if answered.1.generated ≠ "" then
          output.putStr (Session.showGenerated answered.1.generated)
    converse answered.2 input output errors

/-- Run the program on the machine. -/
def run (arguments : List String) : IO UInt32 := do
  let working := Location.follow [] (← IO.currentDir).toString
  let host : Host :=
    { working := working
      scratch := ["tmp", "fr2nim-" ++ (← freshIdentity)]
      identity := ← freshIdentity
      canceled := false
      execute := Script.execute }
  let below ← readTree working.text working
  let before := FileSystem.put ⟨directoriesAbove working ++ below⟩ ["tmp"] .directory
  let outcome := CommandLine.run host before arguments
  (← IO.getStdout).putStr outcome.output
  (← IO.getStderr).putStr outcome.complaint
  writeChanges before outcome.files
  if arguments.head? = some "repl" then
    converse .start (← IO.getStdin) (← IO.getStdout) (← IO.getStderr)
  return outcome.exitCode.toUInt32

end FrenchNim.Machine

/-- The entry point of the program. -/
def main (arguments : List String) : IO UInt32 :=
  FrenchNim.Machine.run arguments
