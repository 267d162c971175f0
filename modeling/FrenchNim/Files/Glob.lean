import FrenchNim.Files.FileSystem

namespace FrenchNim

/-!
# File name patterns

A star stands for any text without a slash, a question mark for one character,
brackets for one character of a set, and a backslash takes the meaning from the
character behind it.
-/

/-- A part of a pattern. -/
inductive GlobItem where
  | anything
  | any
  | exact (c : Char)
  | oneOf (negated : Bool) (ranges : List (Char × Char))
  deriving Repr, DecidableEq

namespace Glob

/-- Read one end of a range. A dash or a closing bracket must be escaped. -/
def rangeEnd? : List Char → Option (Char × List Char)
  | [] => none
  | ['\\'] => none
  | '\\' :: c :: rest => if rest.isEmpty then none else some (c, rest)
  | c :: rest => if c = '-' ∨ c = ']' ∨ rest.isEmpty then none else some (c, rest)

/--
Read the ranges of a set up to its closing bracket. The ranges are kept in
reverse, and the fuel bounds their number.
-/
def ranges? (read : List (Char × Char)) : Nat → List Char →
    Option (List (Char × Char) × List Char)
  | 0, _ => none
  | fuel + 1, text =>
      match text with
      | ']' :: rest =>
          if read.isEmpty then
            none
          else
            some (read.reverse, rest)
      | _ =>
          match rangeEnd? text with
          | none => none
          | some (low, '-' :: rest) =>
              match rangeEnd? rest with
              | none => none
              | some (high, behind) => ranges? ((low, high) :: read) fuel behind
          | some (low, rest) => ranges? ((low, low) :: read) fuel rest

/-- Read a pattern behind the items so far, newest first. The fuel bounds their number. -/
def parse? (read : List GlobItem) : Nat → List Char → Option (List GlobItem)
  | 0, text => if text.isEmpty then some read.reverse else none
  | fuel + 1, text =>
      match text with
      | [] => some read.reverse
      | '*' :: rest => parse? (.anything :: read) fuel rest
      | '?' :: rest => parse? (.any :: read) fuel rest
      | '\\' :: c :: rest => parse? (.exact c :: read) fuel rest
      | ['\\'] => none
      | '[' :: '^' :: rest =>
          match ranges? [] rest.length rest with
          | none => none
          | some (ranges, behind) => parse? (.oneOf true ranges :: read) fuel behind
      | '[' :: rest =>
          match ranges? [] rest.length rest with
          | none => none
          | some (ranges, behind) => parse? (.oneOf false ranges :: read) fuel behind
      | c :: rest => parse? (.exact c :: read) fuel rest

/-- The items of a pattern, if it is well formed. -/
def items? (pattern : String) : Option (List GlobItem) :=
  parse? [] pattern.length pattern.toList

/-- The character lies in one of the ranges. -/
def inRanges (ranges : List (Char × Char)) (c : Char) : Bool :=
  ranges.any fun range => range.1 ≤ c && c ≤ range.2

/-- The item stands for the character. -/
def accepts (c : Char) : GlobItem → Bool
  | .anything => false
  | .any => c ≠ '/'
  | .exact expected => c = expected
  | .oneOf negated ranges => c ≠ '/' && inRanges ranges c ≠ negated

/-- The items stand for the text. -/
def fits : List GlobItem → List Char → Bool
  | [], text => text.isEmpty
  | .anything :: items, [] => fits items []
  | .anything :: items, c :: rest =>
      fits items (c :: rest) || (c ≠ '/' && fits (.anything :: items) rest)
  | _ :: _, [] => false
  | item :: items, c :: rest => accepts c item && fits items rest
  termination_by items text => items.length + text.length

/-- The text holds a character with a meaning in patterns. -/
def hasMeaning (text : String) : Bool :=
  text.toList.any fun c => c = '*' || c = '?' || c = '[' || c = '\\'

/-- The files of a directory that a pattern stands for. -/
def inDirectory (files : FileSystem) (working : Location) (items : List GlobItem)
    (directory : String) : List String :=
  match files.locate working directory with
  | .ok location =>
      if files.isDirectory location then
        ((files.names location).filter fun name => fits items name.toList).map
          (CleanPath.join directory)
      else
        []
  | .error _ => []

/-- Split a path behind its last slash. -/
def splitLast (path : String) : String × String :=
  let reversed := path.toList.reverse
  (String.ofList (reversed.dropWhile (· ≠ '/')).reverse,
   String.ofList (reversed.takeWhile (· ≠ '/')).reverse)

/-- A directory path without its last slash. -/
def directoryPath (path : String) : String :=
  if path = "" then
    "."
  else if path = "/" then
    "/"
  else
    String.ofList path.toList.dropLast

/-- The files that a well-formed pattern stands for. The fuel bounds the number of its slashes. -/
def expandWithin (files : FileSystem) (working : Location) : Nat → String → List String
  | 0, _ => []
  | fuel + 1, pattern =>
      if hasMeaning pattern then
        let directory := directoryPath (splitLast pattern).1
        let items := (items? (splitLast pattern).2).getD []
        if hasMeaning directory then
          (expandWithin files working fuel directory).flatMap (inDirectory files working items)
        else
          inDirectory files working items directory
      else
        match files.lookThrough working pattern with
        | .ok _ => [pattern]
        | .error _ => []

/-- The files that a pattern stands for, unless it is malformed. -/
def expand? (files : FileSystem) (working : Location) (pattern : String) :
    Option (List String) :=
  match items? pattern with
  | none => none
  | some _ => some (expandWithin files working (pattern.length + 1) pattern)

end Glob

end FrenchNim
