import FrenchNim.Session.Basic
import FrenchNim.Text.Terminal
import FrenchNim.Token.Keyword

namespace FrenchNim

/-!
# Help inside a session

Keywords are completed while they are typed, and lines that start with a dot are
commands to the session itself.
-/

/-- The version of the program. -/
def version : String := "0.1.0"

namespace Session

/-- The keywords that start with a word, in table order. Nothing completes the empty word. -/
def completions (word : String) : List Keyword :=
  if word = "" then
    []
  else
    Keyword.table.filter fun keyword => word.toList.isPrefixOf keyword.word.toList

/-- What completions are described as. -/
def completionDescription : String := "keyword"

/-- How to get help. -/
def assistance : String := "Type '.help' for assistance."

/-- The answer to a request for help. -/
def help : String :=
  "\nEnter declarations and statements to print their Nim code.\n" ++
    "Commands are prefixed with a dot. Valid commands are:\n\n" ++
    ".exit     Exit the session\n" ++
    ".help     Print this help message\n\n" ++
    "Press ^C to abort current input, ^D to exit"

/-- What a session prints first. -/
def welcome : String :=
  "Welcome to fr2nim " ++ version ++ "!\n" ++ assistance ++ "\n\n"

/-- The output of a command. -/
def respond (command : String) : String :=
  if command = ".help" then
    help ++ "\n"
  else
    Color.boldRed.paint true ("Unknown command. " ++ assistance) ++ "\n"

/-- Generated code as a session shows it. -/
def showGenerated (code : String) : String :=
  Color.yellow.paint true code

end Session

end FrenchNim
