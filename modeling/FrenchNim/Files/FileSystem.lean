import FrenchNim.Files.Location
import FrenchNim.Text.Rune

namespace FrenchNim

/-!
# File trees

A file tree is a finite table from locations to entries. Reading and writing
fail in the ways a user sees in messages, and what is written nowhere is as it
was.
-/

/-- What a location holds. -/
inductive Entry where
  | directory
  | file (content : Bytes) (executable : Bool)
  deriving Repr, DecidableEq

/-- Why a location cannot be used. -/
inductive FileFault where
  | missing
  | notDirectory
  | isDirectory
  | taken
  | denied
  | notRunnable
  deriving Repr, DecidableEq

namespace FileFault

/-- The wording of a fault. -/
def text : FileFault → String
  | missing => "no such file or directory"
  | notDirectory => "not a directory"
  | isDirectory => "is a directory"
  | taken => "file exists"
  | denied => "permission denied"
  | notRunnable => "exec format error"

end FileFault

/-- A failed operation on a file. -/
structure FileError where
  operation : String
  fault : FileFault
  deriving Repr, DecidableEq

namespace FileError

/-- The message of a failed operation on the file with the given path. -/
def message (error : FileError) (path : String) : String :=
  error.operation ++ " " ++ path ++ ": " ++ error.fault.text

end FileError

/-- A file tree. -/
structure FileSystem where
  entries : List (Location × Entry)
  deriving Repr, DecidableEq

/-- Replace the value of a key, or add it at the end. -/
def putEntry (location : Location) (entry : Entry) :
    List (Location × Entry) → List (Location × Entry)
  | [] => [(location, entry)]
  | (key, value) :: rest =>
      if key = location then
        (key, entry) :: rest
      else
        (key, value) :: putEntry location entry rest

namespace FileSystem

/-- The tree that holds nothing but its root. -/
def empty : FileSystem := ⟨[]⟩

/-- What a location holds. The root is always a directory. -/
def at? (files : FileSystem) (location : Location) : Option Entry :=
  if location = [] then some .directory else files.entries.lookup location

/-- All locations of the tree but its root. -/
def locations (files : FileSystem) : List Location :=
  files.entries.map (·.1)

/-- The location holds something. -/
def holds (files : FileSystem) (location : Location) : Bool :=
  (files.at? location).isSome

/-- Set what a location holds. -/
def put (files : FileSystem) (location : Location) (entry : Entry) : FileSystem :=
  ⟨putEntry location entry files.entries⟩

/-- Remove a location with everything below it. -/
def remove (files : FileSystem) (location : Location) : FileSystem :=
  ⟨files.entries.filter fun entry => !location.contains entry.1⟩

/-- Some directory on the way to the location is a file. -/
def isBlocked (files : FileSystem) (location : Location) : Bool :=
  files.entries.any fun entry =>
    match entry with
    | (file, .file _ _) => file ≠ location && file.contains location
    | (_, .directory) => false

/-- What a location holds, or why there is nothing. -/
def look (files : FileSystem) (location : Location) : Except FileFault Entry :=
  match files.at? location with
  | some entry => .ok entry
  | none => .error (if files.isBlocked location then .notDirectory else .missing)

/-- The location is a directory. -/
def isDirectory (files : FileSystem) (location : Location) : Bool :=
  files.at? location = some .directory

/-- Follow the parts of a path. Every location but the last must be a directory. -/
def walk (files : FileSystem) (location : Location) : List String → Except FileFault Location
  | [] => .ok location
  | part :: rest =>
      match files.look location with
      | .ok .directory => walk files (location.step part) rest
      | .ok (.file _ _) => .error .notDirectory
      | .error fault => .error fault

/-- The location that a path leads to through the directories of the tree. -/
def locate (files : FileSystem) (working : Location) (path : String) :
    Except FileFault Location :=
  if path = "" then
    .error .missing
  else
    files.walk (if isRooted path then [] else working) (pathParts path)

/-- What a path leads to. -/
def lookThrough (files : FileSystem) (working : Location) (path : String) :
    Except FileFault Entry := do
  let location ← files.locate working path
  files.look location

/-- The content of an entry. -/
def content : Except FileFault Entry → Except FileError Bytes
  | .ok (.file content _) => .ok content
  | .ok .directory => .error ⟨"read", .isDirectory⟩
  | .error fault => .error ⟨"open", fault⟩

/-- Read the file at a location. -/
def read (files : FileSystem) (location : Location) : Except FileError Bytes :=
  content (files.look location)

/-- Read the file that a path leads to. -/
def readThrough (files : FileSystem) (working : Location) (path : String) :
    Except FileError Bytes :=
  content (files.lookThrough working path)

/-- Write the file at a location. A file that is already there keeps its mode. -/
def write (files : FileSystem) (location : Location) (content : Bytes) (executable : Bool) :
    Except FileError FileSystem :=
  match files.look location with
  | .ok .directory => .error ⟨"open", .isDirectory⟩
  | .ok (.file _ mode) => .ok (files.put location (.file content mode))
  | .error _ =>
      match files.look location.parent with
      | .ok .directory => .ok (files.put location (.file content executable))
      | .ok (.file _ _) => .error ⟨"open", .notDirectory⟩
      | .error fault => .error ⟨"open", fault⟩

/-- Write the file that a path leads to. -/
def writeThrough (files : FileSystem) (working : Location) (path : String) (content : Bytes) :
    Except FileError FileSystem :=
  match files.locate working path with
  | .ok location => files.write location content false
  | .error fault => .error ⟨"open", fault⟩

/-- The names in a directory, in order. -/
def names (files : FileSystem) (directory : Location) : List String :=
  let below := files.entries.filterMap fun entry =>
    if entry.1 ≠ [] ∧ entry.1.parent = directory then some entry.1.name else none
  below.mergeSort fun left right => !(right < left)

/-! ## Directories -/

/-- The paths to all directories on the way of a path, the shortest first, and the path itself. -/
def leadingPaths (path : String) : List String :=
  let characters := path.toList
  let cuts := (List.range characters.length).filter fun index =>
    index + 1 < characters.length && characters[index]? = some '/' &&
      characters[index + 1]? ≠ some '/' && (characters.drop (index + 1)).any (· ≠ '/')
  cuts.map (fun index => String.ofList (characters.take (index + 1))) ++ [path]

/-- Make sure that a path leads to a directory whose own directory exists. -/
def makeDirectory (files : FileSystem) (working : Location) (path : String) :
    Except FileError FileSystem :=
  match files.lookThrough working path with
  | .ok .directory => .ok files
  | .ok (.file _ _) => .error ⟨"mkdir", .notDirectory⟩
  | .error _ =>
      let location := working.follow path
      match files.look location with
      | .ok .directory => .ok files
      | .ok (.file _ _) => .error ⟨"mkdir", .taken⟩
      | .error _ =>
          match files.look location.parent with
          | .ok .directory => .ok (files.put location .directory)
          | .ok (.file _ _) => .error ⟨"mkdir", .notDirectory⟩
          | .error fault => .error ⟨"mkdir", fault⟩

/-- Make directories until the first failure, which is returned with its path. -/
def makeEach (files : FileSystem) (working : Location) :
    List String → FileSystem × Option (String × FileError)
  | [] => (files, none)
  | path :: rest =>
      match files.makeDirectory working path with
      | .ok next => makeEach next working rest
      | .error error => (files, some (path, error))

/-- Make sure that a path leads to a directory. -/
def makeDirectories (files : FileSystem) (working : Location) (path : String) :
    FileSystem × Option (String × FileError) :=
  match files.lookThrough working path with
  | .ok .directory => (files, none)
  | .ok (.file _ _) => (files, some (path, ⟨"mkdir", .notDirectory⟩))
  | .error _ => files.makeEach working (leadingPaths path)

/-! ## What the operations change -/

/-- The entries of a location are those that were put last. -/
theorem lookup_putEntry (location other : Location) (entry : Entry)
    (entries : List (Location × Entry)) :
    (putEntry location entry entries).lookup other =
      if other = location then some entry else entries.lookup other := by
  induction entries with
  | nil =>
      simp only [putEntry, List.lookup_cons, List.lookup_nil]
      split <;> simp_all
  | cons first rest inductionHypothesis =>
      obtain ⟨key, value⟩ := first
      simp only [putEntry]
      split
      · rename_i same
        subst same
        simp only [List.lookup_cons]
        split <;> simp_all
      · rename_i differs
        simp only [List.lookup_cons]
        split
        · rename_i found
          have sameKey : other = key := by simpa using found
          simp [sameKey, differs]
        · exact inductionHypothesis

/-- Setting a location changes that location alone. -/
theorem at?_put (files : FileSystem) (location other : Location) (entry : Entry)
    (notRoot : location ≠ []) :
    (files.put location entry).at? other =
      if other = location then some entry else files.at? other := by
  unfold put at?
  by_cases root : other = []
  · subst root
    simp [Ne.symm notRoot]
  · simp [root, lookup_putEntry]

/-- What holds something is the root and what stands in the table. -/
theorem holds_iff_mem_locations {files : FileSystem} {location : Location} :
    files.holds location = true ↔ location ∈ [] :: files.locations := by
  unfold holds at? locations
  by_cases root : location = []
  · simp [root]
  · rw [if_neg root, List.lookup_isSome_iff, List.mem_cons, or_iff_right root, List.mem_map]
    exact exists_congr fun _ => and_congr_right fun _ => beq_iff_eq.trans eq_comm

end FileSystem

end FrenchNim
