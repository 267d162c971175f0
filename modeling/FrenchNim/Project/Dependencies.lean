import FrenchNim.Project.Source

namespace FrenchNim

/-!
# Dependencies

The dependencies of a source file are the existing files it imports, directly or
not. They are found depth first: a file is listed behind everything that it
imports itself, and no file is listed twice. The search keeps the files it is
inside of on a stack, each with the imports that are still to be followed.
-/

/-- A source file whose imports are being followed. -/
structure OpenFile where
  location : Location
  imports : List String
  deriving Repr, DecidableEq

namespace Dependencies

/-- The import paths of a source file. -/
def importsOf (normalizer : Normalizer) (files : FileSystem) (location : Location) :
    Except Failure (List String) :=
  match files.read location with
  | .error error => .error (Project.unreadable location.text (error.message location.text))
  | .ok content =>
      let code := Source.ofBytes content
      match Pipeline.parse normalizer code with
      | .error failure => .error (.source location.text code failure)
      | .ok program => .ok program.importPaths

/-- The location of an import. Relative paths start at the directory of the importing file. -/
def target (source : Location) (path : String) : Location :=
  source.parent.follow path

/-- What is logged about an import of a file that does not exist. -/
def ignoredEntry (source : Location) (path : String) : LogEntry :=
  ⟨.debug, "ignoring import of missing file",
    [("source", .text source.text), ("import", .text path)]⟩

/-- What is logged about a new dependency. -/
def discoveredEntry (source dependency : Location) : LogEntry :=
  ⟨.debug, "discovered dependency",
    [("source", .text source.text), ("dependency", .text dependency.text)]⟩

/-- The locations of the tree, its root included, that were not visited. -/
def unvisited (files : FileSystem) (visited : List Location) : List Location :=
  ([] :: files.locations).filter fun location => !visited.contains location

/-- The number of steps that the open files still take, not counting new files. -/
def pending : List OpenFile → Nat
  | [] => 0
  | file :: rest => file.imports.length + 1 + pending rest

/-- Visiting a new location leaves fewer to visit. -/
theorem length_unvisited_lt {files : FileSystem} {visited : List Location} {location : Location}
    (held : files.holds location) (new : location ∉ visited) :
    (unvisited files (location :: visited)).length < (unvisited files visited).length := by
  have filtered : unvisited files (location :: visited) =
      (unvisited files visited).filter (fun other => !decide (other = location)) := by
    unfold unvisited
    rw [List.filter_filter]
    apply List.filter_congr
    intro other _
    by_cases same : other = location <;> simp [same]
  have member : location ∈ unvisited files visited := by
    unfold unvisited
    rw [List.mem_filter]
    exact ⟨FileSystem.holds_iff_mem_locations.mp held, by simp [new]⟩
  rw [filtered]
  exact List.length_filter_lt_length_iff_exists.mpr ⟨location, member, by simp⟩

/--
Follow the imports of the open files.

The files found so far are in the order of the result. The file at the bottom of
the stack is the entry, which is not listed.
-/
def search (files : FileSystem) (imports : Location → Except Failure (List String))
    (visited found : List Location) (log : List LogEntry) (stack : List OpenFile) :
    Except Failure (List Location) × List LogEntry :=
  match stack with
  | [] => (.ok found, log)
  | ⟨_, []⟩ :: [] => (.ok found, log)
  | ⟨location, []⟩ :: outer :: rest =>
      search files imports visited (found ++ [location])
        (log ++ [discoveredEntry outer.location location]) (outer :: rest)
  | ⟨location, path :: paths⟩ :: rest =>
      let next := target location path
      if _held : files.holds next then
        if _new : next ∉ visited then
          match imports next with
          | .error failure => (.error failure, log)
          | .ok nextPaths =>
              search files imports (next :: visited) found log
                (⟨next, nextPaths⟩ :: ⟨location, paths⟩ :: rest)
        else
          search files imports visited found log (⟨location, paths⟩ :: rest)
      else
        search files imports visited found (log ++ [ignoredEntry location path])
          (⟨location, paths⟩ :: rest)
  termination_by ((unvisited files visited).length, pending stack)
  decreasing_by
    · exact Prod.Lex.right _ (by simp [pending])
    · exact Prod.Lex.left _ _ (length_unvisited_lt _held _new)
    · exact Prod.Lex.right _ (by simp [pending])
    · exact Prod.Lex.right _ (by simp [pending])

/-- The dependencies of an entry file in a file tree, and what is logged on the way. -/
def find (normalizer : Normalizer) (files : FileSystem) (entry : Location) :
    Except Failure (List Location) × List LogEntry :=
  match importsOf normalizer files entry with
  | .error failure => (.error failure, [])
  | .ok paths =>
      search files (importsOf normalizer files) [entry] [] [] [⟨entry, paths⟩]

/-- The dependencies of an entry file. -/
def discover (normalizer : Normalizer) (entry : Location) : Work (List Location) := do
  let result := find normalizer (← Work.files) entry
  modify fun workspace => { workspace with log := workspace.log ++ result.2 }
  match result.1 with
  | .ok dependencies => return dependencies
  | .error failure => throw failure

end Dependencies

end FrenchNim
