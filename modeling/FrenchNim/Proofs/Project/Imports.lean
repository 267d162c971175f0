import FrenchNim.Proofs.Files.Texts
import FrenchNim.Proofs.Project.Keeping
import FrenchNim.Proofs.Project.Untouched

namespace FrenchNim

/-!
# Imports of generated modules

A generated module names what it imports by a text that was cut out of the import
path of the source, and Nim reads this text from the directory of the module. The
Nim file of an import is written where the import path leads. Both are decided by
the parts of the path: all but the last one lead to the same directory, and the
last one is the name without the ending of sources.
-/

/-- The parts of a path behind a slash that it starts with. -/
def components (path : String) : List String :=
  if isRooted path then (pathParts path).tail else pathParts path

/-- No part is empty, and the last one is a name. -/
structure IsImportPath (path : String) : Prop where
  nonempty : ∀ part ∈ components path, part ≠ ""
  named : ∀ part ∈ (components path).getLast?, part ≠ "." ∧ part ≠ ".."

instance (path : String) : Decidable (IsImportPath path) :=
  decidable_of_iff ((∀ part ∈ components path, part ≠ "") ∧
      ∀ part ∈ (components path).getLast?, part ≠ "." ∧ part ≠ "..")
    ⟨fun ⟨nonempty, named⟩ => ⟨nonempty, named⟩, fun ⟨nonempty, named⟩ => ⟨nonempty, named⟩⟩

namespace IsImportPath

variable {path : String}

/-- Behind the directories on the way stands a name. -/
theorem exists_name
    (isImport : IsImportPath path) :
    ∃ front last, pathParts path = front ++ [last] ∧ Location.IsName last ∧ "" ∉ front.tail := by
  have nonempty : pathParts path ≠ [] := by
    simpa [pathParts] using splitSlashes_ne_nil path.toList
  obtain ⟨front, last, split⟩ := (List.eq_nil_or_concat' (pathParts path)).resolve_left nonempty
  have isLast : ∃ others, components path = others ++ [last] ∧ front.tail ⊆ others := by
    rw [components, isRooted_of_pathParts split, split]
    cases front with
    | nil => exact ⟨[], rfl, List.nil_subset _⟩
    | cons head others =>
        by_cases isEmpty : head = ""
        · exact ⟨others, by simp [isEmpty], List.Subset.refl _⟩
        · exact ⟨head :: others, by simp [isEmpty], List.subset_cons_self _ _⟩
  obtain ⟨others, isComponents, among⟩ := isLast
  have parts := isImport.nonempty
  have named := isImport.named
  rw [isComponents] at parts named
  obtain ⟨notHere, notAbove⟩ := named last (by simp)
  have isPart : last ∈ pathParts path := by
    simp [split]
  have unbroken := not_mem_of_mem_pathParts isPart
  exact ⟨front, last, split, ⟨⟨parts last (by simp), notHere, unbroken⟩, notAbove⟩,
    fun member => parts "" (List.mem_append_left _ (among member)) rfl⟩

end IsImportPath

namespace Nim

variable {path last : String} {front : List String}

/-- The name of a Nim file stands for itself in a path. -/
theorem isName_nimName
    {name : String}
    (isName : Location.IsName name) :
    Location.IsName (dropEnding sourceEnding name ++ nimEnding) := by
  refine Location.isName_append ?_ nimEnding_marked
  rw [String.toList_append, List.mem_append, not_or]
  exact ⟨unbroken_dropEnding _ isName.isPart.unbroken, nimEnding_unbroken⟩

/-- The parts of a module's text are those of the path, without a point in front. -/
theorem exists_pathParts_importedModule
    (split : pathParts path = front ++ [last])
    (nonempty : "" ∉ front.tail) :
    ∃ others, pathParts (importedModule path) = others ++ [dropEnding sourceEnding last] ∧
      (others = front ∨ front = "." :: others ∧ others.head? ≠ some "") := by
  have unbroken : '/' ∉ sourceEnding.toList := by
    decide
  have ended := pathParts_dropEnding unbroken split
  rw [importedModule, show (".fr" : String) = sourceEnding from rfl]
  by_cases starts : ∃ rest, dropEnding sourceEnding path = "./" ++ rest
  · obtain ⟨rest, isPath⟩ := starts
    have pointed : pathParts ("./" ++ rest) = "." :: pathParts rest :=
      pathParts_append_slash "." rest
    rw [isPath, pointed] at ended
    rw [isPath, dropLeading_append]
    cases front with
    | nil =>
        have noParts : pathParts rest = [] := (List.cons.inj ended).2
        simp [pathParts, splitSlashes_ne_nil] at noParts
    | cons head others =>
        obtain ⟨rfl, isRest⟩ := List.cons.inj ended
        exact ⟨others, isRest, .inr ⟨rfl, fun isEmpty => nonempty (List.mem_of_head? isEmpty)⟩⟩
  · rw [not_exists] at starts
    rw [dropLeading_eq_self starts]
    exact ⟨front, ended, .inl rfl⟩

/-- The text of a module leads where the path leads, up to the endings. -/
theorem follow_importedModule
    (isImport : IsImportPath path)
    (location : Location) :
    location.follow (importedModule path ++ nimEnding) =
        (location.follow path).parent ++ [Build.outputName (location.follow path)] ∧
      Location.IsName (location.follow path).name := by
  obtain ⟨front, last, split, isName, nonempty⟩ := isImport.exists_name
  obtain ⟨others, isModule, same⟩ := exists_pathParts_importedModule split nonempty
  have sameFront : List.foldl Location.step
      (if others.head? = some "" then [] else location) others =
        List.foldl Location.step (if front.head? = some "" then [] else location) front := by
    rcases same with rfl | ⟨rfl, relative⟩
    · rfl
    · rw [if_neg relative]
      rfl
  have isFile := pathParts_concat nimEnding_unbroken isModule
  rw [Location.follow_of_pathParts isFile, sameFront, Location.follow_of_pathParts split,
    Location.step_of_isName (isName_nimName isName), Location.step_of_isName isName,
    Build.outputName, Location.parent_append, Location.name_append]
  exact ⟨rfl, isName⟩

/-- The file that a module of a directory reads for an import of the given text. -/
def moduleFile (directory imported : String) : String :=
  let file := imported ++ nimEnding
  if isRooted file then CleanPath.clean file else CleanPath.join directory file

theorem moduleFile_text
    {location : Location}
    (plain : location.Plain)
    (imported : String) :
    moduleFile location.text imported = (location.follow (imported ++ nimEnding)).text := by
  rw [moduleFile]
  cases rooted : isRooted (imported ++ nimEnding) with
  | true =>
      rw [if_pos rfl]
      exact Location.clean_of_isRooted rooted location
  | false =>
      rw [if_neg Bool.false_ne_true]
      exact Location.join_text_eq plain rooted

end Nim

namespace Build

variable {config : Config} {source : Location}

/-- The Nim file of a source stands beside it. -/
theorem outputAddress_beside
    (host : Host)
    (beside : config.output = "")
    (isName : Location.IsName source.name) :
    outputAddress host config source = .ofLocation (source.parent ++ [outputName source]) := by
  rw [outputAddress, if_pos beside]
  exact congrArg Address.ofLocation (Location.follow_of_isName (Nim.isName_nimName isName) _)

theorem outputDirectory_beside
    (host : Host)
    (beside : config.output = "")
    (plain : source.Plain) :
    outputDirectory host config source = source.parent.text := by
  by_cases isRoot : source = []
  · rw [outputDirectory, outputAddress, if_pos beside, isRoot]
    decide
  · have isName := plain.isName_name isRoot
    rw [outputDirectory, outputAddress_beside host beside isName]
    exact Location.directory_text_concat plain.parent (Nim.isName_nimName isName).isPart.unbroken

/--
An emitted import is read from the file that the import is built to.

The import of a source is emitted into the Nim file of the source, and read from the
directory of this file. What is read is the file that a build writes for the
location that the import path names.
-/
theorem moduleFile_of_import
    (host : Host)
    (beside : config.output = "")
    (plain : source.Plain)
    {path : String}
    (isImport : IsImportPath path)
    (name : Identifier)
    (newName? : Option Identifier)
    (span : Span) :
    ∃ imported,
      Nim.emitImport? (.imported name newName? path span) = some
        ("import " ++ imported ++ (newName?.map (" as " ++ ·.name)).getD "") ∧
      Nim.moduleFile (outputDirectory host config source) imported =
        (outputAddress host config (Dependencies.target source path)).text := by
  obtain ⟨isFile, isName⟩ := Nim.follow_importedModule isImport source.parent
  refine ⟨Nim.importedModule path, ?_, ?_⟩
  · cases newName? with
    | none => exact congrArg some (String.append_empty).symm
    | some newName => exact congrArg some (String.append_assoc ..)
  · rw [outputDirectory_beside host beside plain, Nim.moduleFile_text plain.parent, isFile,
      Dependencies.target, outputAddress_beside host beside isName]
    rfl

/-- A module in the directory above, and its Nim file. -/
theorem moduleFile_of_import_above :
    IsImportPath "./../lib/./b.fr" ∧
      ∃ imported,
        Nim.emitImport? (.imported ⟨"b", .zero⟩ none "./../lib/./b.fr" .zero) = some
          ("import " ++ imported ++ "") ∧
        Nim.moduleFile (outputDirectory idleHost .default ["app", "a.fr"]) imported =
          "/lib/b.nim" := by
  have isImport : IsImportPath "./../lib/./b.fr" := by
    decide
  have isTarget : (outputAddress idleHost .default
      (Dependencies.target ["app", "a.fr"] "./../lib/./b.fr")).text = "/lib/b.nim" := by
    decide
  refine ⟨isImport, ?_⟩
  rw [← isTarget]
  exact moduleFile_of_import idleHost rfl (by decide) isImport _ none _

end Build

end FrenchNim
