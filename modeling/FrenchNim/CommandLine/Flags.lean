import FrenchNim.Number.Reading
import FrenchNim.Text.Escaped
import FrenchNim.Time.Duration

namespace FrenchNim

/-!
# Flags

Arguments of a command that start with a dash set a flag. A flag has a name, a
kind of value and an explanation. The first argument that is no flag, or a double
dash, ends the flags.
-/

/-- The kind of value of a flag. -/
inductive FlagKind where
  | switch
  | text
  | integer
  | duration
  deriving Repr, DecidableEq

/-- A flag of a command. -/
structure Flag where
  name : String
  kind : FlagKind
  explanation : String
  /-- The text a flag has if it is not set. -/
  initial : String
  deriving Repr, DecidableEq

/-- The value that a flag is set to. -/
inductive FlagValue where
  | switch (value : Bool)
  | text (value : String)
  | integer (value : Int)
  | duration (value : Duration)
  deriving Repr, DecidableEq

/-- Why arguments are not accepted. -/
inductive FlagFault where
  | help
  | rejected (message : String)
  deriving Repr, DecidableEq

/-- The flags that arguments set, the last setting first, and the arguments behind them. -/
structure ParsedFlags where
  settings : List (String × FlagValue)
  operands : List String
  deriving Repr

namespace FlagValue

/-- What is wrong with a text that no value is written as. -/
def unreadable : String := "parse error"

/-- What is wrong with a number that is too large. -/
def outOfRange : String := "value out of range"

/-- The truth value of a text. -/
def switch? (text : String) : Option Bool :=
  if ["1", "t", "T", "true", "TRUE", "True"].contains text then
    some true
  else if ["0", "f", "F", "false", "FALSE", "False"].contains text then
    some false
  else
    none

/-- The base of a number and its digits, by how it starts. -/
def baseOf : List Char → Nat × List Char
  | '0' :: mark :: digits =>
      if mark = 'x' ∨ mark = 'X' then
        (16, digits)
      else if mark = 'o' ∨ mark = 'O' then
        (8, digits)
      else if mark = 'b' ∨ mark = 'B' then
        (2, digits)
      else
        (8, mark :: digits)
  | digits => (10, digits)

/-- Underscores stand only between digits, or behind the mark of a base. -/
def underscoresFit (afterDigit : Bool) : List Char → Bool
  | [] => afterDigit
  | '_' :: rest => afterDigit && underscoresFit false rest
  | _ :: rest => underscoresFit true rest

/-- The digits of a number without underscores, if there are any and all of them fit the base. -/
def digits? (base : Nat) (marked : Bool) (text : List Char) : Option (List Char) :=
  let digits := text.filter (· ≠ '_')
  let isMisplaced := text.contains '_' && !underscoresFit marked text
  if digits.isEmpty || isMisplaced || digits.any (fun c => (Number.digit? base c).isNone) then
    none
  else
    some digits

/-- The integer of a text in any base. -/
def readInteger (text : String) : Except String Int :=
  let signed := Duration.splitSign text.toList
  let written := baseOf signed.2
  let marked := signed.2.head? = some '0' && 1 < signed.2.length
  match digits? written.1 marked written.2 with
  | none => .error unreadable
  | some digits =>
      let value : Int := Number.ofDigits written.1 digits
      if signed.1 then
        if value ≤ 0x8000000000000000 then .ok (-value) else .error outOfRange
      else
        if value < 0x8000000000000000 then .ok value else .error outOfRange

/-- Read a value of a kind. -/
def read (kind : FlagKind) (text : String) : Except String FlagValue :=
  match kind with
  | .switch =>
      match switch? text with
      | some value => .ok (.switch value)
      | none => .error unreadable
  | .text => .ok (.text text)
  | .integer => (readInteger text).map .integer
  | .duration =>
      match Duration.read text with
      | .ok value => .ok (.duration value)
      | .error _ => .error unreadable

end FlagValue

namespace Flag

/-- What the kind of a value is called in explanations. -/
def kindName : FlagKind → String
  | .switch => ""
  | .text => "string"
  | .integer => "int"
  | .duration => "duration"

/-- The explanation of a flag. A flag of one letter without a value takes one line. -/
def usage (flag : Flag) : String :=
  let kind := kindName flag.kind
  let head := "  -" ++ flag.name ++ (if kind = "" then "" else " " ++ kind)
  let initial := if flag.initial = "" then "" else " (default " ++ Escaped.quote flag.initial ++ ")"
  head ++ (if head.utf8ByteSize ≤ 4 then "\t" else "\n    \t") ++ flag.explanation ++ initial ++ "\n"

end Flag

namespace Flags

/-- The explanation of all flags of a command. -/
def usage (command : String) (flags : List Flag) : String :=
  "Usage of " ++ command ++ ":\n" ++ String.join (flags.map (·.usage))

/-- The name of a flag argument without its dashes, and the value behind an equals sign. -/
def splitValue (text : List Char) : String × Option String :=
  let name := text.takeWhile (· ≠ '=')
  match text.drop name.length with
  | [] => (String.ofList name, none)
  | _ :: value => (String.ofList name, some (String.ofList value))

/-- The argument without its dashes; `none` if it is no flag. -/
def flagText? (argument : String) : Option (List Char) :=
  match argument.toList with
  | '-' :: '-' :: rest => some rest
  | '-' :: c :: rest => some (c :: rest)
  | _ => none

/-- A flag whose value cannot be read. -/
def rejectedValue (flag : Flag) (text reason : String) : FlagFault :=
  if flag.kind = .switch then
    .rejected ("invalid boolean value " ++ Escaped.quote text ++ " for -" ++ flag.name ++ ": " ++
      reason)
  else
    .rejected ("invalid value " ++ Escaped.quote text ++ " for flag -" ++ flag.name ++ ": " ++
      reason)

/-- Set a flag. -/
def set (flag : Flag) (text : String) : Except FlagFault (String × FlagValue) :=
  match FlagValue.read flag.kind text with
  | .ok value => .ok (flag.name, value)
  | .error reason => .error (rejectedValue flag text reason)

/-- The text has the form of a flag name. -/
def isFlagName : List Char → Bool
  | [] => false
  | first :: _ => first ≠ '-' && first ≠ '='

/-- Read the flags of arguments behind the settings so far, newest first. -/
def parse (flags : List Flag) (settings : List (String × FlagValue)) :
    List String → Except FlagFault ParsedFlags
  | [] => .ok ⟨settings, []⟩
  | argument :: rest =>
      match flagText? argument with
      | none => .ok ⟨settings, argument :: rest⟩
      | some [] => .ok ⟨settings, rest⟩
      | some text =>
          let given := splitValue text
          if !isFlagName text then
            .error (.rejected ("bad flag syntax: " ++ argument))
          else
            match flags.find? (·.name = given.1), given.2 with
            | none, _ =>
                if given.1 = "help" ∨ given.1 = "h" then
                  .error .help
                else
                  .error (.rejected ("flag provided but not defined: -" ++ given.1))
            | some flag, some value => do
                let setting ← set flag value
                parse flags (setting :: settings) rest
            | some flag, none =>
                if flag.kind = .switch then
                  parse flags ((flag.name, .switch true) :: settings) rest
                else
                  match rest with
                  | [] => .error (.rejected ("flag needs an argument: -" ++ flag.name))
                  | value :: behind => do
                      let setting ← set flag value
                      parse flags (setting :: settings) behind

end Flags

namespace ParsedFlags

/-- The value a flag was set to last. -/
def value? (parsed : ParsedFlags) (name : String) : Option FlagValue :=
  parsed.settings.lookup name

/-- A switch is set. -/
def isOn (parsed : ParsedFlags) (name : String) : Bool :=
  parsed.value? name = some (.switch true)

end ParsedFlags

end FrenchNim
