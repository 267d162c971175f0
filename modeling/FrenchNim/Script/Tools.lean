import FrenchNim.Project.Workspace
import FrenchNim.Script.Command

namespace FrenchNim

/-!
# The tools of a script

What the commands of a script do to the files around it: print a text, test, list,
show, make, copy and remove files, and wait.
-/

namespace Script

/-- What a tool does. -/
structure Effect where
  files : FileSystem
  output : Bytes
  complaint : Bytes
  status : Nat
  /-- The nanoseconds it waits. -/
  waited : Nat

namespace Effect

/-- A tool that only ends with a status. -/
def ofStatus (files : FileSystem) (status : Nat) : Effect :=
  ⟨files, [], [], status, 0⟩

/-- A tool that prints. -/
def printing (files : FileSystem) (output : Bytes) : Effect :=
  ⟨files, output, [], 0, 0⟩

/-- A tool that complains. -/
def complaining (files : FileSystem) (complaint : String) (status : Nat) : Effect :=
  ⟨files, [], textBytes complaint, status, 0⟩

/-- One tool after another, and the worse of their statuses. -/
def andAlso (first second : Effect) : Effect :=
  ⟨second.files, first.output ++ second.output, first.complaint ++ second.complaint,
    max first.status second.status, first.waited + second.waited⟩

end Effect

/-- The options of a tool and its other arguments. -/
def splitOptions (arguments : List String) : List String × List String :=
  (arguments.takeWhile fun argument => argument.toList.head? = some '-' && argument ≠ "-",
   arguments.dropWhile fun argument => argument.toList.head? = some '-' && argument ≠ "-")

/-- One of the options holds a letter. -/
def hasOption (options : List String) (letter : Char) : Bool :=
  options.any fun option => option.toList.contains letter

/-- The complaint about a path that leads nowhere. -/
def missingFile (tool path : String) : String :=
  tool ++ ": " ++ path ++ ": No such file or directory\n"

/-! ## Printing -/

/-- Replace the escapes of a printed text. -/
def unescape : List Char → List Char
  | [] => []
  | '\\' :: 'n' :: rest => '\n' :: unescape rest
  | '\\' :: 't' :: rest => '\t' :: unescape rest
  | '\\' :: 'r' :: rest => '\r' :: unescape rest
  | '\\' :: '\\' :: rest => '\\' :: unescape rest
  | c :: rest => c :: unescape rest

/-- Print the arguments on one line. -/
def echo (files : FileSystem) (arguments : List String) : Effect :=
  let words := if arguments.head? = some "-n" then arguments.drop 1 else arguments
  let ending := if arguments.head? = some "-n" then "" else "\n"
  let text := String.ofList (unescape (String.intercalate " " words).toList)
  .printing files (textBytes (text ++ ending))

/-- Put arguments in the places of a format. The arguments that are left over are returned, too. -/
def fillFormat (arguments : List String) : List Char → List Char × List String
  | [] => ([], arguments)
  | '%' :: '%' :: rest =>
      let filled := fillFormat arguments rest
      ('%' :: filled.1, filled.2)
  | '%' :: 's' :: rest =>
      let filled := fillFormat (arguments.drop 1) rest
      ((arguments.head?.getD "").toList ++ filled.1, filled.2)
  | '%' :: 'd' :: rest =>
      let filled := fillFormat (arguments.drop 1) rest
      ((arguments.head?.getD "0").toList ++ filled.1, filled.2)
  | c :: rest =>
      let filled := fillFormat arguments rest
      (c :: filled.1, filled.2)

/-- Use a format as long as it takes arguments, at most as often as the fuel allows. -/
def fillRepeatedly (format : List Char) : Nat → List String → List Char
  | 0, _ => []
  | fuel + 1, arguments =>
      let filled := fillFormat arguments format
      if filled.2.isEmpty || filled.2.length = arguments.length then
        filled.1
      else
        filled.1 ++ fillRepeatedly format fuel filled.2

/-- Print the arguments in a format. -/
def printf (files : FileSystem) : List String → Effect
  | [] => .complaining files "printf: usage: printf format [arg ...]\n" 2
  | format :: arguments =>
      let text := fillRepeatedly (unescape format.toList) (arguments.length + 1) arguments
      .printing files (textBytes (String.ofList text))

/-! ## Tests -/

/-- What a path leads to. -/
def entryAt? (files : FileSystem) (directory : Location) (path : String) : Option Entry :=
  (files.lookThrough directory path).toOption

/-- A test with one operand. -/
def testOne (files : FileSystem) (directory : Location) (operator operand : String) : Bool :=
  match operator, entryAt? files directory operand with
  | "-n", _ => operand ≠ ""
  | "-z", _ => operand = ""
  | "-e", entry => entry.isSome
  | "-r", entry => entry.isSome
  | "-w", entry => entry.isSome
  | "-f", some (.file _ _) => true
  | "-d", some .directory => true
  | "-x", some (.file _ executable) => executable
  | "-x", some .directory => true
  | "-s", some (.file content _) => !content.isEmpty
  | "-s", some .directory => true
  | _, _ => false

/-- A test with two operands. -/
def testTwo (left operator right : String) : Bool :=
  match operator, left.toInt?, right.toInt? with
  | "=", _, _ => left = right
  | "==", _, _ => left = right
  | "!=", _, _ => left ≠ right
  | "-eq", some a, some b => a = b
  | "-ne", some a, some b => a ≠ b
  | "-lt", some a, some b => a < b
  | "-le", some a, some b => a ≤ b
  | "-gt", some a, some b => b < a
  | "-ge", some a, some b => b ≤ a
  | _, _, _ => false

/-- The outcome of a test. -/
def test (files : FileSystem) (directory : Location) : List String → Bool
  | [] => false
  | [operand] => operand ≠ ""
  | [operator, operand] =>
      if operator = "!" then operand = "" else testOne files directory operator operand
  | ["!", operator, operand] => !testOne files directory operator operand
  | [left, operator, right] => testTwo left operator right
  | ["!", left, operator, right] => !testTwo left operator right
  | _ => false

/-! ## Files -/

/-- Show the contents of files. -/
def cat (files : FileSystem) (directory : Location) : List String → Effect
  | [] => .ofStatus files 0
  | path :: rest =>
      let shown : Effect :=
        match entryAt? files directory path with
        | some (.file content _) => .printing files content
        | some .directory => .complaining files ("cat: " ++ path ++ ": Is a directory\n") 1
        | none => .complaining files (missingFile "cat" path) 1
      shown.andAlso (cat files directory rest)

/-- The names in a directory that are listed. -/
def listed (files : FileSystem) (directory : Location) : List String :=
  (files.names directory).filter fun name => name.toList.head? ≠ some '.'

/-- Lines as bytes. -/
def lineBytes (lines : List String) : Bytes :=
  textBytes (String.join (lines.map (· ++ "\n")))

/-- List directories and files. -/
def list (files : FileSystem) (directory : Location) (arguments : List String) : Effect :=
  match (splitOptions arguments).2 with
  | [] => .printing files (lineBytes (listed files directory))
  | paths =>
      paths.foldl
        (fun effect path =>
          effect.andAlso <|
            match files.locate directory path with
            | .error _ =>
                .complaining files
                  ("ls: cannot access '" ++ path ++ "': No such file or directory\n") 2
            | .ok location =>
                match files.at? location with
                | some .directory => .printing files (lineBytes (listed files location))
                | some (.file _ _) => .printing files (lineBytes [path])
                | none =>
                    .complaining files
                      ("ls: cannot access '" ++ path ++ "': No such file or directory\n") 2)
        (.ofStatus files 0)

/-- Remove files. -/
def removeAll (force recursive : Bool) (directory : Location) (files : FileSystem) :
    List String → Effect
  | [] => .ofStatus files 0
  | path :: rest =>
      let removed : Effect :=
        match files.locate directory path with
        | .error _ =>
            if force then
              .ofStatus files 0
            else
              .complaining files
                ("rm: cannot remove '" ++ path ++ "': No such file or directory\n") 1
        | .ok location =>
            match files.at? location with
            | some (.file _ _) => .ofStatus (files.remove location) 0
            | some .directory =>
                if recursive then
                  .ofStatus (files.remove location) 0
                else
                  .complaining files ("rm: cannot remove '" ++ path ++ "': Is a directory\n") 1
            | none =>
                if force then
                  .ofStatus files 0
                else
                  .complaining files
                    ("rm: cannot remove '" ++ path ++ "': No such file or directory\n") 1
      removed.andAlso (removeAll force recursive directory removed.files rest)

/-- Create empty files where there are none. -/
def touch (directory : Location) (files : FileSystem) : List String → Effect
  | [] => .ofStatus files 0
  | path :: rest =>
      let touched : Effect :=
        match entryAt? files directory path with
        | some _ => .ofStatus files 0
        | none =>
            match files.writeThrough directory path [] with
            | .ok changed => .ofStatus changed 0
            | .error _ =>
                .complaining files
                  ("touch: cannot touch '" ++ path ++ "': No such file or directory\n") 1
      touched.andAlso (touch directory touched.files rest)

/-- Make directories. -/
def makeDirectories (withParents : Bool) (directory : Location) (files : FileSystem) :
    List String → Effect
  | [] => .ofStatus files 0
  | path :: rest =>
      let made : Effect :=
        if withParents then
          match files.makeDirectories directory path with
          | (changed, none) => .ofStatus changed 0
          | (changed, some _) =>
              .complaining changed ("mkdir: cannot create directory '" ++ path ++ "'\n") 1
        else
          match entryAt? files directory path, files.locate directory path with
          | some _, _ =>
              .complaining files
                ("mkdir: cannot create directory '" ++ path ++ "': File exists\n") 1
          | none, .ok location => .ofStatus (files.put location .directory) 0
          | none, .error _ =>
              .complaining files
                ("mkdir: cannot create directory '" ++ path ++ "': No such file or directory\n") 1
      made.andAlso (makeDirectories withParents directory made.files rest)

/-- Copy a file, and remove it afterwards if it is moved. -/
def copy (tool : String) (moves : Bool) (directory : Location) (files : FileSystem) :
    List String → Effect
  | [source, destination] =>
      match files.locate directory source, files.locate directory destination with
      | .ok origin, .ok goal =>
          let goal := if files.isDirectory goal then goal ++ [origin.name] else goal
          match files.at? origin with
          | some (.file content executable) =>
              match files.write goal content executable with
              | .ok changed => .ofStatus (if moves then changed.remove origin else changed) 0
              | .error _ =>
                  .complaining files
                    (tool ++ ": cannot create regular file '" ++ destination ++ "'\n") 1
          | _ =>
              .complaining files
                (tool ++ ": cannot stat '" ++ source ++ "': No such file or directory\n") 1
      | _, _ =>
          .complaining files
            (tool ++ ": cannot stat '" ++ source ++ "': No such file or directory\n") 1
  | _ => .complaining files (tool ++ ": missing file operand\n") 1

/-! ## Waiting -/

/-- The nanoseconds of a waiting time, which is in seconds without a unit. -/
def waitingTime (text : String) : Nat :=
  match Duration.read text, Duration.read (text ++ "s") with
  | .ok duration, _ => duration.nanoseconds.toNat
  | .error _, .ok duration => duration.nanoseconds.toNat
  | .error _, .error _ => 0

/-! ## All tools -/

/-- What a tool does with its arguments, if there is a tool of that name. -/
def runTool? (files : FileSystem) (directory : Location) (name : String)
    (arguments : List String) : Option Effect :=
  let options := (splitOptions arguments).1
  let operands := (splitOptions arguments).2
  match name with
  | "true" | ":" | "export" | "chmod" => some (.ofStatus files 0)
  | "false" => some (.ofStatus files 1)
  | "echo" => some (echo files arguments)
  | "printf" => some (printf files arguments)
  | "test" => some (.ofStatus files (if test files directory arguments then 0 else 1))
  | "[" => some (.ofStatus files (if test files directory arguments.dropLast then 0 else 1))
  | "cat" => some (cat files directory operands)
  | "ls" => some (list files directory arguments)
  | "rm" =>
      some (removeAll (hasOption options 'f') (hasOption options 'r' || hasOption options 'R')
        directory files operands)
  | "touch" => some (touch directory files operands)
  | "mkdir" => some (makeDirectories (hasOption options 'p') directory files operands)
  | "cp" => some (copy "cp" false directory files operands)
  | "mv" => some (copy "mv" true directory files operands)
  | "pwd" => some (.printing files (lineBytes [directory.text]))
  | "sleep" =>
      some { Effect.ofStatus files 0 with
        waited := arguments.foldl (fun total argument => total + waitingTime argument) 0 }
  | _ => none

/-- The tools that are programs of their own. -/
def programs : List String :=
  ["true", "false", "echo", "printf", "test", "[", "cat", "ls", "rm", "touch", "mkdir", "cp",
   "mv", "pwd", "sleep"]

end Script

end FrenchNim
