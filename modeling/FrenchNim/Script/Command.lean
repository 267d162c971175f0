import FrenchNim.Files.Glob
import FrenchNim.Script.Word

namespace FrenchNim

/-!
# The commands of a script

A script is a list of simple commands. Each of them runs always, or depending on
whether the command before it succeeded.
-/

namespace Script

/-- When a command runs. -/
inductive Connector where
  | always
  | onSuccess
  | onFailure
  deriving Repr, DecidableEq

/-- Where the output with a descriptor goes. -/
structure Redirection where
  descriptor : Nat
  append : Bool
  file : Word
  deriving Repr, DecidableEq

/-- A simple command. -/
structure Command where
  connector : Connector
  line : Nat
  words : List Word
  redirections : List Redirection
  deriving Repr, DecidableEq

namespace Command

/-- A command of which nothing is read yet. -/
def start (connector : Connector) (line : Nat) : Command :=
  ⟨connector, line, [], []⟩

/-- Nothing of the command is read yet. -/
def isEmpty (command : Command) : Bool :=
  command.words.isEmpty && command.redirections.isEmpty

/-- The commands so far, newest first, with a command that is read to its end. -/
def onto (command : Command) (read : List Command) : List Command :=
  if command.isEmpty then read else command :: read

end Command

/-- Group the symbols of a script into commands. The commands so far are kept in reverse. -/
def readCommands (current : Command) (read : List Command) : List Symbol → Option (List Command)
  | [] => some (current.onto read).reverse
  | .word letters :: rest =>
      readCommands { current with words := current.words ++ [letters] } read rest
  | .output descriptor append :: .word file :: rest =>
      let redirection : Redirection := ⟨descriptor, append, file⟩
      readCommands { current with redirections := current.redirections ++ [redirection] } read rest
  | .input :: .word _ :: rest => readCommands current read rest
  | .duplicate :: rest => readCommands current read rest
  | .newline :: rest =>
      let connector := if current.isEmpty then current.connector else .always
      readCommands (.start connector (current.line + 1)) (current.onto read) rest
  | .sequence :: rest =>
      readCommands (.start .always current.line) (current.onto read) rest
  | .andThen :: rest =>
      readCommands (.start .onSuccess current.line) (current.onto read) rest
  | .orElse :: rest =>
      readCommands (.start .onFailure current.line) (current.onto read) rest
  | _ :: _ => none

/-- The commands of a script. -/
def commands? (text : String) : Option (List Command) := do
  let symbols ← symbols? text
  readCommands (.start .always 1) [] symbols

/-! ## Replacing parameters -/

/-- What the parameters of a script stand for. -/
structure Parameters where
  script : String
  arguments : List String
  bindings : List (String × String)
  status : Nat
  deriving Repr

/-- A part of a word whose parameters are replaced. -/
inductive Atom where
  | char (value : Char) (meaningful : Bool)
  /-- One field ends and the next one starts. -/
  | split
  /-- There is a field here, even if it stays empty. -/
  | anchor
  deriving Repr, DecidableEq

/-- A letter of a variable name. -/
def isNameLetter (c : Char) : Bool :=
  c.isAlphanum || c = '_'

/-- The value of a parameter with a name. -/
def Parameters.value (parameters : Parameters) (name : String) : String :=
  match name with
  | "#" => Nat.repr parameters.arguments.length
  | "?" => Nat.repr parameters.status
  | "0" => parameters.script
  | "*" | "@" => String.intercalate " " parameters.arguments
  | other =>
      match other.toNat? with
      | some index => (parameters.arguments[index - 1]?).getD ""
      | none => (parameters.bindings.lookup other).getD ""

/-- The atoms of a value. Without quotes it is split at its blanks. -/
def valueAtoms (quoted : Bool) (value : String) : List Atom :=
  value.toList.map fun c =>
    if quoted then
      .char c false
    else if c = ' ' ∨ c = '\t' ∨ c = '\n' then
      .split
    else
      .char c true

/-- The atoms of all arguments, each of them a field of its own. -/
def argumentAtoms : List String → List Atom
  | [] => []
  | [argument] => .anchor :: valueAtoms true argument
  | argument :: rest => .anchor :: valueAtoms true argument ++ .split :: argumentAtoms rest

/-- The name of the parameter behind a dollar sign, and what follows it. -/
def parameterName? (letters : Word) : Option (String × Word) :=
  match letters with
  | [] => none
  | first :: rest =>
      if first.char = '\x7b' then
        let name := rest.takeWhile (·.char ≠ '\x7d')
        some (String.ofList (name.map (·.char)), rest.drop (name.length + 1))
      else if "@*#?0123456789".toList.contains first.char then
        some (String.singleton first.char, rest)
      else if isNameLetter first.char then
        let name := letters.takeWhile fun letter => isNameLetter letter.char
        some (String.ofList (name.map (·.char)), letters.drop name.length)
      else
        none

/-- The atoms of a word. The fuel bounds the number of its letters. -/
def wordAtoms (parameters : Parameters) : Nat → Word → List Atom
  | 0, _ => []
  | fuel + 1, letters =>
      match letters with
      | [] => []
      | letter :: rest =>
          let quoted := letter.quoting ≠ .bare
          if letter.char = '$' ∧ letter.quoting ≠ .literal then
            match parameterName? rest with
            | none => .char '$' false :: wordAtoms parameters fuel rest
            | some (name, behind) =>
                let atoms :=
                  if name = "@" ∧ quoted then
                    argumentAtoms parameters.arguments
                  else if quoted then
                    .anchor :: valueAtoms true (parameters.value name)
                  else
                    valueAtoms false (parameters.value name)
                atoms ++ wordAtoms parameters fuel behind
          else
            .char letter.char (!quoted) :: wordAtoms parameters fuel rest

/-- Group atoms into fields. The open field and the fields before it are kept in reverse. -/
def groupAtoms (field : Option (List (Char × Bool))) (fields : List (List (Char × Bool))) :
    List Atom → List (List (Char × Bool))
  | [] => (field.toList.map List.reverse ++ fields).reverse
  | .char value meaningful :: rest =>
      groupAtoms (some ((value, meaningful) :: field.getD [])) fields rest
  | .anchor :: rest => groupAtoms (some (field.getD [])) fields rest
  | .split :: rest => groupAtoms none (field.toList.map List.reverse ++ fields) rest

/-- The text of a field. -/
def fieldText (field : List (Char × Bool)) : String :=
  String.ofList (field.map (·.1))

/-- The pattern of a field: a character without meaning is escaped. -/
def fieldPattern (field : List (Char × Bool)) : String :=
  String.ofList (field.flatMap fun letter =>
    if !letter.2 && Glob.hasMeaning (String.singleton letter.1) then
      ['\\', letter.1]
    else
      [letter.1])

/-- The field stands for file names. -/
def isPattern (field : List (Char × Bool)) : Bool :=
  field.any fun letter => letter.2 && (letter.1 = '*' || letter.1 = '?' || letter.1 = '[')

/-- A file name that starts with a point is named only by patterns that do so, too. -/
def isShown (field : List (Char × Bool)) (name : String) : Bool :=
  name.toList.head? ≠ some '.' || (field.head?.map (·.1)) = some '.'

/-- The texts that a field stands for. -/
def fieldTexts (files : FileSystem) (directory : Location) (field : List (Char × Bool)) :
    List String :=
  if isPattern field then
    let named := (Glob.expand? files directory (fieldPattern field)).getD []
    let found := named.filter (isShown field)
    if found.isEmpty then [fieldText field] else found
  else
    [fieldText field]

/-- The texts that a word stands for. -/
def expandWord (files : FileSystem) (directory : Location) (parameters : Parameters)
    (word : Word) : List String :=
  if word.isEmpty then
    [""]
  else
    (groupAtoms none [] (wordAtoms parameters word.length word)).flatMap
      (fieldTexts files directory)

/-- The name and the value of a word that sets a variable. -/
def assignment? (word : Word) : Option (String × Word) :=
  let name := word.takeWhile fun letter => letter.quoting = .bare ∧ isNameLetter letter.char
  match word.drop name.length with
  | ⟨'=', .bare⟩ :: value =>
      if name.isEmpty || (name.head?.map fun letter => letter.char.isDigit).getD false then
        none
      else
        some (String.ofList (name.map (·.char)), value)
  | _ => none

end Script

end FrenchNim
