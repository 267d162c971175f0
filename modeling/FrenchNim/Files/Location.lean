import FrenchNim.Nim.Module

namespace FrenchNim

/-!
# Paths

A location is a place in the file tree, named by the parts of its absolute path.
A path is a text that leads to a location from a working directory. Paths are
shown to users as they were written or in their clean form, so both forms stay
texts.
-/

/-- A place in the file tree: the names of the directories on the way, from the root. -/
abbrev Location := List String

/-- Split a text at its slashes. -/
def splitSlashes : List Char → List (List Char)
  | [] => [[]]
  | c :: rest =>
      if c = '/' then
        [] :: splitSlashes rest
      else
        match splitSlashes rest with
        | [] => [[c]]
        | part :: parts => (c :: part) :: parts

/-- The parts of a path, empty parts included. -/
def pathParts (path : String) : List String :=
  (splitSlashes path.toList).map String.ofList

/-- The path starts at the root. -/
def isRooted (path : String) : Bool :=
  path.toList.head? = some '/'

namespace Location

/-- The absolute path of a location. -/
def text (location : Location) : String :=
  match location with
  | [] => "/"
  | names => String.join (names.map ("/" ++ ·))

/-- The directory of a location. The root is its own directory. -/
def parent (location : Location) : Location :=
  location.dropLast

/-- The last name of a location. -/
def name (location : Location) : String :=
  location.getLast?.getD "/"

/-- The location that one part of a path leads to. -/
def step (location : Location) (part : String) : Location :=
  if part = "" ∨ part = "." then
    location
  else if part = ".." then
    location.parent
  else
    location ++ [part]

/-- The location that a path leads to by its parts alone. -/
def follow (location : Location) (path : String) : Location :=
  (pathParts path).foldl step (if isRooted path then [] else location)

/-- The second location is the first one or below it. -/
def contains (directory location : Location) : Bool :=
  directory.isPrefixOf location

end Location

namespace CleanPath

/-- Add a part to the parts of a clean path. Steps upwards are kept only at the start. -/
def step (rooted : Bool) (parts : List String) (part : String) : List String :=
  if part = "" ∨ part = "." then
    parts
  else if part = ".." then
    match parts.getLast? with
    | none => if rooted then [] else [".."]
    | some last => if last = ".." then parts ++ [".."] else parts.dropLast
  else
    parts ++ [part]

/-- The shortest path that leads to the same place. -/
def clean (path : String) : String :=
  let rooted := isRooted path
  let parts := (pathParts path).foldl (step rooted) []
  if rooted then
    "/" ++ String.intercalate "/" parts
  else if parts.isEmpty then
    "."
  else
    String.intercalate "/" parts

/-- The clean path of a name in a directory. -/
def join (directory name : String) : String :=
  if directory = "" then
    if name = "" then "" else clean name
  else
    clean (directory ++ "/" ++ name)

/-- The clean path of the directory of a path. -/
def directory (path : String) : String :=
  let upToSlash := (path.toList.reverse.dropWhile (· ≠ '/')).reverse
  clean (String.ofList upToSlash)

/-- The text from the last point of a name, empty if there is none. -/
def extension (name : String) : String :=
  let reversed := name.toList.reverse
  let ending := reversed.takeWhile fun c => c ≠ '.' ∧ c ≠ '/'
  if (reversed.drop ending.length).head? = some '.' then
    String.ofList ('.' :: ending.reverse)
  else
    ""

end CleanPath

/-- A path as it is shown, and the location it leads to. -/
structure Address where
  text : String
  location : Location
  deriving Repr, DecidableEq

namespace Address

/-- A location shown by its absolute path. -/
def ofLocation (location : Location) : Address :=
  ⟨location.text, location⟩

/-- A clean path seen from a working directory. -/
def ofPath (working : Location) (path : String) : Address :=
  ⟨path, working.follow path⟩

/-- A name in a directory that is given by a path. -/
def inDirectory (working : Location) (directory name : String) : Address :=
  ofPath working (CleanPath.join directory name)

end Address

end FrenchNim
