import FrenchNim.Proofs.Project.Keeping

namespace FrenchNim

/-!
# Generated files that meet

The places of generated files are named after sources whose directories and
endings are dropped, so two of them may be one place. A build does not see this,
and only the file that is written last is left. If no generated file is read,
all that was generated is found afterwards just if no two different files were
written to one place.
-/

namespace FileSystem

variable {files : FileSystem} {location directory : Location} {name : String}

/-- The names in a directory are those of what it holds. -/
theorem mem_names_iff :
    name ∈ files.names directory ↔ files.holds (directory ++ [name]) = true := by
  unfold names
  rw [List.mem_mergeSort, List.mem_filterMap]
  constructor
  · rintro ⟨entry, member, isName⟩
    split at isName
    · rename_i below
      cases isName
      rw [holds_iff_mem_locations, ← below.2, Location.parent_append_name below.1]
      exact List.mem_cons_of_mem _ (List.mem_map_of_mem member)
    · cases isName
  · intro held
    rcases List.mem_cons.mp (holds_iff_mem_locations.mp held) with isRoot | isBelow
    · simp at isRoot
    · obtain ⟨entry, member, isKey⟩ := List.mem_map.mp isBelow
      refine ⟨entry, member, ?_⟩
      simp [isKey]

/-- All names in the tree are plain. -/
def Plain (files : FileSystem) : Prop :=
  ∀ location ∈ files.locations, location.Plain

instance (files : FileSystem) : Decidable files.Plain :=
  inferInstanceAs (Decidable (∀ location ∈ files.locations, location.Plain))

/-- Everything in a plain tree has a plain location. -/
theorem Plain.of_holds
    (plain : files.Plain)
    (held : files.holds location = true) :
    location.Plain := by
  rcases List.mem_cons.mp (holds_iff_mem_locations.mp held) with rfl | isBelow
  · simp [Location.Plain]
  · exact plain location isBelow

end FileSystem

namespace Library

variable {files after : FileSystem} {directory : Location} {name : String}

/-- A name in a directory is that of a library source. -/
def IsSource (files : FileSystem) (directory : Location) (name : String) : Prop :=
  (CleanPath.extension name = nimEnding ∨ CleanPath.extension name = sourceEnding) ∧
    ∃ content executable, files.at? (directory ++ [name]) = some (.file content executable)

/-- The files with an ending are listed by their names. -/
theorem mem_sourcesEnding_iff
    {ending : String} :
    name ∈ sourcesEnding files directory ending ↔ CleanPath.extension name = ending ∧
      ∃ content executable, files.at? (directory ++ [name]) = some (.file content executable) := by
  unfold sourcesEnding
  rw [List.mem_filter, FileSystem.mem_names_iff, FileSystem.holds, FileSystem.isDirectory]
  cases files.at? (directory ++ [name]) with
  | none =>
      simp
  | some entry =>
      cases entry <;> simp

/-- The listed sources are the Nim and the French files of the library. -/
theorem mem_sources_iff :
    name ∈ sources files directory ↔ IsSource files directory name := by
  rw [sources, List.mem_append, mem_sourcesEnding_iff, mem_sourcesEnding_iff, IsSource]
  exact or_and_right.symm

/-- Library sources are read where they are listed. -/
theorem origin_eq
    (host : Host)
    (config : Config)
    (destination library : String)
    (isName : Location.IsName name) :
    (recipe host config destination library name).origin =
      host.working.follow config.libraryDirectory ++ [name] :=
  Location.follow_join isName host.working config.libraryDirectory

end Library

namespace Build

variable {host : Host} {config : Config} {path : String} {workspace after : Workspace}
  {result : BuildResult}

/-- The directory of the library sources. -/
def libraryLocation (host : Host) (config : Config) : Location :=
  host.working.follow config.libraryDirectory

/-- How a build makes the copy of a library source. -/
def copyRecipe (host : Host) (config : Config) (path name : String) : Recipe :=
  Library.recipe host config (outputDirectory host config (host.working.follow path))
    (libraryName host config) name

/-- The copy is one of the files of the bundle. -/
theorem place_copyRecipe
    (host : Host)
    (config : Config)
    (path name : String) :
    (copyRecipe host config path name).place = (Library.copyAddress host
      (outputDirectory host config (host.working.follow path)) (libraryName host config)
      name).location := by
  rw [copyRecipe, Library.place_recipe]

/-- The bundle of a build, made from library sources with the given names. -/
def bundleOf (host : Host) (config : Config) (path : String) (names : List String) : Bundle :=
  let destination := outputDirectory host config (host.working.follow path)
  ⟨Library.moduleAddress host destination (libraryName host config),
    names.map (Library.copyAddress host destination (libraryName host config))⟩

/--
No generated file of a build is one that the build reads, and the compilation
leaves all of them alone.
-/
structure Undisturbed (host : Host) (config : Config) (path : String) (result : BuildResult) :
    Prop where
  unread : ∀ address ∈ result.generated, address.location ∉ result.outputs.map (·.source)
  outside : result.bundle? ≠ none → ∀ address ∈ result.generated,
    address.location.parent ≠ libraryLocation host config
  spared : config.compile = true → ∀ address ∈ result.generated, host.Spares address.location ∧
    address.location ≠ binaryLocation host config (host.working.follow path)

/-- What a build has generated, and from which files. -/
structure Generates (host : Host) (config : Config) (path : String) (files : FileSystem)
    (result : BuildResult) (found : List Location) (names? : Option (List String)) : Prop where
  discovered : (Dependencies.find config.normalizer files (host.working.follow path)).1 = .ok found
  outputs : result.outputs = (allSources host path found).map (output host config)
  bundle : result.bundle? = names?.map (bundleOf host config path)
  /-- The bundle is made from all library sources. -/
  listed : ∀ names ∈ names?, ∀ name, name ∈ names ↔
    Library.IsSource files (libraryLocation host config) name
  outputCodes : ∀ source ∈ allSources host path found, ∃ code,
    (recipe host config (libraryName host config) source).made files = some code
  copyCodes : ∀ names ∈ names?, ∀ name ∈ names, ∃ code,
    (copyRecipe host config path name).made files = some code

/-- The files that a build writes for its sources, with the codes of a file tree. -/
def outputRow (host : Host) (config : Config) (path : String) (files : FileSystem)
    (found : List Location) : List Writing :=
  (allSources host path found).map fun source =>
    (recipe host config (libraryName host config) source).writing files

/-- The files that a build writes for its library, with the codes of a file tree. -/
def bundleRow (host : Host) (config : Config) (path : String) (files : FileSystem)
    (names : List String) : List Writing :=
  Library.moduleWriting host (outputDirectory host config (host.working.follow path))
    (libraryName host config) names ::
      names.map fun name => (copyRecipe host config path name).writing files

/-- All files that a build generates, with the codes of a file tree. -/
def generatedRow (host : Host) (config : Config) (path : String) (files : FileSystem)
    (found : List Location) (names? : Option (List String)) : List Writing :=
  outputRow host config path files found ++
    names?.elim [] (bundleRow host config path files)

namespace Stages

variable (stages : Stages host config path workspace after result)

/-- Preparing a build adds directories and nothing else. -/
theorem widened :
    workspace.files.Widened stages.prepared.files := by
  have widened := widened_makeOutputDirectory host config stages.searched
  rw [stages.ranPrepare, stages.unchanged] at widened
  exact widened

/-- The outputs come from the sources in their order. -/
theorem sources_eq :
    result.outputs.map (·.source) = allSources host path stages.found := by
  rw [stages.outputs, List.map_map]
  exact List.map_id _

/-- The output of each source is generated. -/
theorem mem_generated
    {source : Location}
    (member : source ∈ allSources host path stages.found) :
    outputAddress host config source ∈ result.generated := by
  apply List.mem_append_left
  rw [stages.outputs, List.map_map]
  exact List.mem_map_of_mem member

/-- The outputs have the codes of the tree before the build. -/
theorem writes_outputs
    (undisturbed : Undisturbed host config path result) :
    Writes stages.prepared.files (outputRow host config path workspace.files stages.found)
        stages.built.files ∧
      ∀ source ∈ allSources host path stages.found, ∃ code,
        (recipe host config (libraryName host config) source).made workspace.files = some code := by
  have apart : Recipe.Apart ((allSources host path stages.found).map
      (recipe host config (libraryName host config))) := by
    intro reader isReader writer isWriter same
    obtain ⟨source, isSource, rfl⟩ := List.mem_map.mp isReader
    obtain ⟨other, isOther, rfl⟩ := List.mem_map.mp isWriter
    apply undisturbed.unread _ (stages.mem_generated isOther)
    rw [stages.sources_eq, show (outputAddress host config other).location = source from same.symm]
    exact isSource
  obtain ⟨writes, codes⟩ := stages.made.writes_of_apart apart
  rw [List.map_map] at writes
  rw [List.forall_mem_map] at codes
  refine ⟨?_, fun source member => ?_⟩
  · have sameRow : outputRow host config path workspace.files stages.found =
        outputRow host config path stages.prepared.files stages.found := by
      apply List.map_congr_left
      intro source member
      rw [Recipe.writing, Recipe.writing, stages.widened.made_eq]
    rw [sameRow]
    exact writes
  · rw [← stages.widened.made_eq]
    exact codes source member

/-- The files of the library directory are as before when the library is bundled. -/
theorem at?_file_iff
    (undisturbed : Undisturbed host config path result)
    (bundled : result.bundle? ≠ none)
    {name : String}
    {content : Bytes}
    {executable : Bool} :
    stages.built.files.at? (libraryLocation host config ++ [name]) =
        some (.file content executable) ↔
      workspace.files.at? (libraryLocation host config ++ [name]) =
        some (.file content executable) := by
  rw [← stages.widened.at?_eq_file_iff, stages.made.at?_of_ne]
  rw [List.forall_mem_map]
  intro source member same
  apply undisturbed.outside bundled _ (stages.mem_generated member)
  rw [show (outputAddress host config source).location = _ from same, Location.parent_append]

theorem mem_sources_iff
    (undisturbed : Undisturbed host config path result)
    (bundled : result.bundle? ≠ none)
    (name : String) :
    name ∈ Library.sources stages.built.files (libraryLocation host config) ↔
      Library.IsSource workspace.files (libraryLocation host config) name := by
  rw [Library.mem_sources_iff, Library.IsSource, Library.IsSource]
  simp only [stages.at?_file_iff undisturbed bundled]

/-- The code of a copy is the one of the tree before the build. -/
theorem made_copyRecipe
    (plainTree : workspace.files.Plain)
    (undisturbed : Undisturbed host config path result)
    (bundled : result.bundle? ≠ none)
    {name : String}
    (isSource : Library.IsSource workspace.files (libraryLocation host config) name) :
    (copyRecipe host config path name).origin = libraryLocation host config ++ [name] ∧
      (copyRecipe host config path name).made stages.built.files =
        (copyRecipe host config path name).made workspace.files := by
  obtain ⟨-, content, executable, isFile⟩ := isSource
  have plain : Location.Plain (libraryLocation host config ++ [name]) :=
    plainTree.of_holds (by rw [FileSystem.holds, isFile]; rfl)
  have origin : (copyRecipe host config path name).origin =
      libraryLocation host config ++ [name] :=
    Library.origin_eq host config _ _ (plain name (by simp))
  refine ⟨origin, Recipe.made_eq_of_at? ?_⟩
  rw [origin, isFile]
  exact (stages.at?_file_iff undisturbed bundled).mpr isFile

/-- The copies of the library have the codes of the tree before the build. -/
theorem writes_bundle
    (plainTree : workspace.files.Plain)
    (undisturbed : Undisturbed host config path result)
    {bundle : Bundle}
    (isBundle : result.bundle? = some bundle) :
    ∃ names, bundle = bundleOf host config path names ∧
      stages.built.files.holds bundle.module.location = false ∧
      (∀ name, name ∈ names ↔
        Library.IsSource workspace.files (libraryLocation host config) name) ∧
      Writes stages.built.files (bundleRow host config path workspace.files names)
        stages.bundled.files ∧
      ∀ name ∈ names, ∃ code,
        (copyRecipe host config path name).made workspace.files = some code := by
  have isMade : result.bundle? ≠ none := by simp [isBundle]
  have ran := stages.ranBundle
  rw [isBundle] at ran
  obtain ⟨directory, found, free, isResult, isCopied⟩ := Library.copied_of_runOn_bundle ran
  obtain rfl : directory = libraryLocation host config :=
    FileSystem.eq_follow_of_locate found.located
  have listed := stages.mem_sources_iff undisturbed isMade
  generalize Library.sources stages.built.files (libraryLocation host config) = names at *
  have generated : result.generated = result.outputs.map (·.file) ++
      (bundleOf host config path names).module :: (bundleOf host config path names).files := by
    rw [BuildResult.generated, isBundle, isResult]
    rfl
  -- Nothing is generated where the library sources are read.
  have unread : ∀ name ∈ names, ∀ address ∈ result.generated,
      (copyRecipe host config path name).origin ≠ address.location := by
    intro name member address isGenerated same
    apply undisturbed.outside isMade address isGenerated
    rw [← same, (stages.made_copyRecipe plainTree undisturbed isMade ((listed name).mp member)).1,
      Location.parent_append]
  have unwritten : ∀ name ∈ names, (copyRecipe host config path name).origin ≠
      (bundleOf host config path names).module.location := by
    intro name member
    exact unread name member _ (by simp [generated])
  have apart : Recipe.Apart (names.map (copyRecipe host config path)) := by
    intro reader isReader writer isWriter
    obtain ⟨name, isName, rfl⟩ := List.mem_map.mp isReader
    obtain ⟨other, isOther, rfl⟩ := List.mem_map.mp isWriter
    rw [place_copyRecipe]
    apply unread name isName
    rw [generated]
    exact List.mem_append_right _ (List.mem_cons_of_mem _ (List.mem_map_of_mem isOther))
  obtain ⟨writes, codes⟩ := isCopied.writes_of_apart unwritten apart
  have same : ∀ name ∈ names, (copyRecipe host config path name).made stages.built.files =
      (copyRecipe host config path name).made workspace.files :=
    fun name member =>
      (stages.made_copyRecipe plainTree undisturbed isMade ((listed name).mp member)).2
  refine ⟨names, isResult, by rw [isResult]; exact free, listed, ?_, ?_⟩
  · have sameRow : bundleRow host config path stages.built.files names =
        bundleRow host config path workspace.files names := by
      refine congrArg _ (List.map_congr_left fun name member => ?_)
      rw [Recipe.writing, Recipe.writing, same name member]
    rw [← sameRow]
    exact writes
  · intro name member
    rw [← same name member]
    exact codes name member

/-- Everything that is generated has the code of the tree before the build. -/
theorem writes_generated
    (plainTree : workspace.files.Plain)
    (undisturbed : Undisturbed host config path result) :
    ∃ names?, Generates host config path workspace.files result stages.found names? ∧
      (∀ bundle ∈ result.bundle?, stages.built.files.holds bundle.module.location = false) ∧
      Writes stages.prepared.files
        (generatedRow host config path workspace.files stages.found names?)
        stages.bundled.files := by
  obtain ⟨writes, codes⟩ := stages.writes_outputs undisturbed
  cases isBundle : result.bundle? with
  | none =>
      have ran := stages.ranBundle
      rw [isBundle] at ran
      refine ⟨none, ⟨stages.discovered, stages.outputs, isBundle, by simp, codes, by simp⟩,
        by simp, ?_⟩
      rw [generatedRow, Library.files_of_runOn_bundle ran, Option.elim_none, List.append_nil]
      exact writes
  | some bundle =>
      obtain ⟨names, isResult, free, listed, writesBundle, copyCodes⟩ :=
        stages.writes_bundle plainTree undisturbed isBundle
      refine ⟨some names, ⟨stages.discovered, stages.outputs, ?_, by simpa using listed, codes,
        by simpa using copyCodes⟩, by simpa using free, writes.append writesBundle⟩
      rw [isBundle, isResult]
      rfl

/-- A file that the compilation leaves alone is there afterwards. -/
theorem at?_after
    (plain : host.working.Plain)
    {location : Location}
    {entry : Entry}
    (spared : config.compile = true → host.Spares location ∧
      location ≠ binaryLocation host config (host.working.follow path))
    (held : stages.bundled.files.at? location = some entry) :
    after.files.at? location = some entry := by
  have plainOutputs := plain_outputs plain stages.discovered
  rw [← stages.outputs] at plainOutputs
  have keeps : (compileEntry host config (libraryName host config) (host.working.follow path)
      result.outputs.dropLast).Keeps location entry :=
    compileEntry_keeps plain (plain.follow path) plainOutputs
      (fun isCompiled => (spared isCompiled).1) fun isCompiled => (spared isCompiled).2
  have kept := keeps stages.bundled held
  rw [stages.ranCompile] at kept
  exact kept

end Stages

/-- Every writing is one of a generated file. -/
theorem Generates.exists_address
    {files : FileSystem}
    {found : List Location}
    {names? : Option (List String)}
    (generates : Generates host config path files result found names?)
    {writing : Writing}
    (member : writing ∈ generatedRow host config path files found names?) :
    ∃ address ∈ result.generated, address.location = writing.location := by
  rw [BuildResult.generated, generates.outputs, generates.bundle]
  rcases List.mem_append.mp member with isOutput | isBundled
  · obtain ⟨source, isSource, rfl⟩ := List.mem_map.mp isOutput
    refine ⟨outputAddress host config source, List.mem_append_left _ ?_, rfl⟩
    rw [List.map_map]
    exact List.mem_map_of_mem isSource
  · cases names? with
    | none =>
        cases isBundled
    | some names =>
        rcases List.mem_cons.mp isBundled with rfl | isCopy
        · refine ⟨(bundleOf host config path names).module,
            List.mem_append_right _ List.mem_cons_self, ?_⟩
          rw [bundleOf, Library.moduleWriting]
        · obtain ⟨name, isName, rfl⟩ := List.mem_map.mp isCopy
          refine ⟨Library.copyAddress host (outputDirectory host config (host.working.follow path))
            (libraryName host config) name,
            List.mem_append_right _ (List.mem_cons_of_mem _ (List.mem_map_of_mem isName)), ?_⟩
          rw [Recipe.writing, place_copyRecipe]

/-! ## Outputs beside their sources -/

/-- The output of a French source stands beside it under the same stem. -/
theorem exists_stem_of_endsIn
    (host : Host)
    {source : Location}
    (beside : config.output = "")
    (plainSource : source.Plain)
    (french : source.EndsIn sourceEnding) :
    ∃ stem, source = source.parent ++ [stem ++ sourceEnding] ∧
      (outputAddress host config source).location = source.parent ++ [stem ++ nimEnding] := by
  obtain ⟨stem, isStem⟩ := french
  have notRoot : source ≠ [] := by
    rintro rfl
    have last := congrArg (fun name => name.toList.getLast?) isStem
    simp [Location.name, sourceEnding, String.toList_append] at last
  have unbroken : '/' ∉ stem.toList := by
    have isName := plainSource.isName_name notRoot
    rw [isStem] at isName
    exact fun member => isName.isPart.unbroken (by simp [member])
  have isOutput : outputName source = stem ++ nimEnding := by
    rw [outputName, isStem, dropEnding_append]
  have isName : Location.IsName (outputName source) := by
    rw [isOutput]
    refine Location.isName_append ?_ nimEnding_marked
    rw [String.toList_append, List.mem_append, not_or]
    exact ⟨unbroken, nimEnding_unbroken⟩
  refine ⟨stem, ?_, ?_⟩
  · rw [← isStem, Location.parent_append_name notRoot]
  · rw [location_outputAddress_beside beside isName, isOutput]

/-- No source is built twice. -/
theorem nodup_allSources
    {files : FileSystem}
    {found : List Location}
    (discovered : (Dependencies.find config.normalizer files
      (host.working.follow path)).1 = .ok found) :
    (allSources host path found).Nodup := by
  rcases Dependencies.find_outcome config.normalizer files (host.working.follow path) with
    ⟨all, listed, complete⟩ | ⟨failure, culprit, failed, -⟩
  · cases discovered.symm.trans listed
    refine List.nodup_append.mpr ⟨complete.distinct, List.nodup_singleton _, ?_⟩
    intro file member other isEntry
    rw [List.mem_singleton.mp isEntry]
    exact ((complete.listed file).mp member).2
  · cases discovered.symm.trans failed

/-- Outputs that stand beside French sources never meet. -/
theorem Generates.nodup_outputs
    {files : FileSystem}
    {found : List Location}
    {names? : Option (List String)}
    (generates : Generates host config path files result found names?)
    (plain : host.working.Plain)
    (beside : config.output = "")
    (french : ∀ source ∈ allSources host path found, source.EndsIn sourceEnding) :
    (result.outputs.map (·.file.location)).Nodup := by
  have plainSources : ∀ source ∈ allSources host path found, source.Plain :=
    fun source member => plain_allSources plain generates.discovered member
  rw [generates.outputs, List.map_map]
  refine List.Nodup.map_on ?_ (nodup_allSources generates.discovered)
  intro first isFirst second isSecond same
  obtain ⟨stem, isSource, isOutput⟩ :=
    exists_stem_of_endsIn host beside (plainSources first isFirst) (french first isFirst)
  obtain ⟨other, isOther, isOtherOutput⟩ :=
    exists_stem_of_endsIn host beside (plainSources second isSecond) (french second isSecond)
  have sameOutput : first.parent ++ [stem ++ nimEnding] = second.parent ++ [other ++ nimEnding] :=
    isOutput.symm.trans (Eq.trans same isOtherOutput)
  obtain ⟨sameParent, sameName⟩ := List.append_inj' sameOutput rfl
  have sameStem : stem = other := by
    rw [← dropEnding_append stem nimEnding, ← dropEnding_append other nimEnding,
      List.singleton_inj.mp sameName]
  rw [isSource, isOther, sameParent, sameStem]

/-! ## What is left of the generated files -/

/--
What a build generates is found afterwards just if no two different files were
generated for one place, provided that the build does not read what it writes.
The library module is never written over an output, and outputs beside French
sources never meet.
-/
theorem build_loses_nothing_iff
    (plain : host.working.Plain)
    (plainTree : workspace.files.Plain)
    (done : (build host config path).runOn workspace = (.ok result, after))
    (undisturbed : Undisturbed host config path result) :
    ∃ found names?, Generates host config path workspace.files result found names? ∧
      (∀ bundle ∈ result.bundle?, ∀ made ∈ result.outputs,
        made.file.location ≠ bundle.module.location) ∧
      (config.output = "" →
        (∀ source ∈ allSources host path found, source.EndsIn sourceEnding) →
        (result.outputs.map (·.file.location)).Nodup) ∧
      ((∀ writing ∈ generatedRow host config path workspace.files found names?,
          after.files.read writing.location = .ok writing.content) ↔
        ∀ first ∈ generatedRow host config path workspace.files found names?,
          ∀ second ∈ generatedRow host config path workspace.files found names?,
            first.location = second.location → first.content = second.content) := by
  obtain ⟨stages⟩ := exists_stages done
  obtain ⟨names?, generates, free, writes⟩ := stages.writes_generated plainTree undisturbed
  refine ⟨stages.found, names?, generates, ?_, generates.nodup_outputs plain, ?_⟩
  · intro bundle isBundle made isMade same
    rw [stages.outputs] at isMade
    obtain ⟨source, isSource, rfl⟩ := List.mem_map.mp isMade
    have held := (stages.writes_outputs undisturbed).1.holds_of_mem (List.mem_map_of_mem isSource)
    have isFree := free bundle isBundle
    rw [← same] at isFree
    cases isFree.symm.trans held
  · rw [← writes.forall_read_iff]
    refine forall₂_congr fun writing member => ?_
    obtain ⟨address, isGenerated, isAddress⟩ := generates.exists_address member
    obtain ⟨entry, isEntry⟩ := Option.isSome_iff_exists.mp (writes.holds_of_mem member)
    have same : after.files.at? writing.location = some entry := by
      refine stages.at?_after plain (fun isCompiled => ?_) isEntry
      rw [← isAddress]
      exact undisturbed.spared isCompiled address isGenerated
    rw [FileSystem.read_eq_ok_iff, FileSystem.read_eq_ok_iff, same, isEntry]

/-! ## A library with two sources of one name -/

/-- An empty program, and a library with a Nim and a French source of one name. -/
def twinTree : FileSystem :=
  ⟨[(["m.fr"], .file [] false), (["lib"], .directory), (["lib", "io.nim"], .file [] false),
    (["lib", "io.fr"], .file [] false)]⟩

/-- The program imports nothing. -/
theorem importsOf_twinTree : Dependencies.importsOf none twinTree ["m.fr"] = .ok [] := by
  cbv

/-- The path of the build leads to the program. -/
theorem follow_twinTree : idleHost.working.follow "m.fr" = ["m.fr"] :=
  Location.follow_of_isName (by decide) []

/-- So the program is the only source. -/
theorem allSources_twinTree : allSources idleHost "m.fr" [] = [["m.fr"]] := by
  rw [allSources, follow_twinTree]
  rfl

/-- The library module is named after the library and the suffix. -/
theorem libraryName_twinTree : libraryName idleHost Library.smallConfig = "std_id" := by
  decide

/-- The library is the directory of the tree. -/
theorem libraryLocation_twinTree : libraryLocation idleHost Library.smallConfig = ["lib"] := by
  decide

/-- The output of the program stands beside it. -/
theorem location_twinTree :
    (outputAddress idleHost Library.smallConfig ["m.fr"]).location = ["m.nim"] := by
  have isOutput : outputName ["m.fr"] = "m.nim" := by
    decide
  have isName : Location.IsName (outputName ["m.fr"]) := by
    rw [isOutput]
    decide
  rw [location_outputAddress_beside rfl isName, isOutput]
  rfl

/-- The library is bundled beside the output. -/
theorem outputDirectory_twinTree :
    outputDirectory idleHost Library.smallConfig ["m.fr"] = "/" := by
  decide

/-- Each source of the library has a recipe in the bundle. -/
theorem copyRecipe_twinTree
    (name : String) :
    copyRecipe idleHost Library.smallConfig "m.fr" name =
      Library.recipe idleHost Library.smallConfig "/" "std_id" name := by
  rw [copyRecipe, follow_twinTree, outputDirectory_twinTree, libraryName_twinTree]

/-- The place of the library module. -/
theorem moduleAddress_twinTree :
    (Library.moduleAddress idleHost "/" "std_id").location = ["std_id.nim"] := by
  have isModule : "std_id" ++ nimEnding = "std_id.nim" := by
    decide
  have isName : Location.IsName "std_id.nim" := by
    decide
  rw [← isModule] at isName
  rw [Library.location_moduleAddress idleHost "/" isName, isModule]
  decide

/-- The copies of both library sources have one place. -/
theorem copyAddress_twinTree
    {name : String}
    (isTwin : name = "io.nim" ∨ name = "io.fr") :
    (Library.copyAddress idleHost "/" "std_id" name).location = ["io_id.nim"] := by
  have isCopy : Library.copyName "std_id" name ++ nimEnding = "io_id.nim" := by
    rcases isTwin with rfl | rfl <;> decide
  have isName : Location.IsName "io_id.nim" := by
    decide
  rw [← isCopy] at isName
  rw [Library.location_copyAddress idleHost "/" isName, isCopy]
  decide

/-- Each copy is made from the source with its name. -/
theorem origin_twinTree
    {name : String}
    (isTwin : name = "io.nim" ∨ name = "io.fr") :
    (Library.recipe idleHost Library.smallConfig "/" "std_id" name).origin = ["lib", name] := by
  have isName : Location.IsName name := by
    rcases isTwin with rfl | rfl <;> decide
  rw [Library.origin_eq _ _ _ _ isName, ← libraryLocation, libraryLocation_twinTree]
  rfl

/-- An empty program is transpiled to the import of the library. -/
theorem nimCode_empty :
    Project.nimCode none standardLibrary [] = some (textBytes "import std\n\n") := by
  cbv

/-- The codes of the two library sources are different. -/
theorem made_twinTree
    {files : FileSystem}
    (held : ∀ name, name = "io.nim" ∨ name = "io.fr" →
      files.at? ["lib", name] = some (.file [] false)) :
    (Library.recipe idleHost Library.smallConfig "/" "std_id" "io.nim").made files = some [] ∧
      (Library.recipe idleHost Library.smallConfig "/" "std_id" "io.fr").made files =
        some (textBytes "import std\n\n") := by
  have isNim : CleanPath.extension "io.nim" = nimEnding := by
    decide
  have isFrench : CleanPath.extension "io.fr" ≠ nimEnding := by
    decide
  constructor
  · rw [Recipe.made, FileSystem.toOption_read, origin_twinTree (.inl rfl), held _ (.inl rfl)]
    show Library.copyCode Library.smallConfig "io.nim" [] = some []
    rw [Library.copyCode, if_pos isNim]
  · rw [Recipe.made, FileSystem.toOption_read, origin_twinTree (.inr rfl), held _ (.inr rfl)]
    show Library.copyCode Library.smallConfig "io.fr" [] = some _
    rw [Library.copyCode, if_neg isFrench]
    exact nimCode_empty

/-- The library of the tree can be bundled behind the output of the program. -/
theorem ready_twinTree
    {files : FileSystem}
    {content : Bytes}
    (written : twinTree.write ["m.nim"] content false = .ok files) :
    (∀ name, name ∈ Library.sources files ["lib"] ↔ name = "io.nim" ∨ name = "io.fr") ∧
      Library.Ready idleHost Library.smallConfig "/" "std_id" files ["lib"] := by
  -- Only the output was written, so the library is as it was.
  have elsewhere : ∀ location, location ≠ ["m.nim"] →
      files.at? location = twinTree.at? location :=
    fun location differs => FileSystem.at?_write_of_ne written differs
  have held : ∀ name, name = "io.nim" ∨ name = "io.fr" →
      files.at? ["lib", name] = some (.file [] false) := by
    rintro name (rfl | rfl) <;> rw [elsewhere _ (by decide)] <;> rfl
  have twins : ∀ name, name ∈ Library.sources files ["lib"] ↔ name = "io.nim" ∨ name = "io.fr" := by
    intro name
    rw [Library.mem_sources_iff]
    constructor
    · rintro ⟨-, content, executable, isFile⟩
      rw [List.cons_append, List.nil_append, elsewhere _ (by simp)] at isFile
      have isThere : twinTree.holds ["lib", name] = true := by
        rw [FileSystem.holds, isFile]
        rfl
      simpa [twinTree, FileSystem.locations] using FileSystem.holds_iff_mem_locations.mp isThere
    · intro isTwin
      refine ⟨?_, [], false, held name isTwin⟩
      rcases isTwin with rfl | rfl
      · exact .inl (by decide)
      · exact .inr (by decide)
  obtain ⟨nimCode, frenchCode⟩ := made_twinTree held
  refine ⟨twins, ?_, ?_, ?_, ?_, ?_, ?_⟩
  · exact Library.found_smallLibrary (elsewhere _ (by decide))
  · rw [moduleAddress_twinTree, FileSystem.holds, elsewhere _ (by decide)]
    rfl
  · right
    rw [moduleAddress_twinTree, elsewhere _ (by decide)]
    exact ⟨rfl, files.at?_root⟩
  · intro name member
    have isTwin := (twins name).mp member
    refine Recipe.not_fails_iff.mpr ⟨?_, .inr ?_⟩
    · rcases isTwin with rfl | rfl
      · exact ⟨_, nimCode⟩
      · exact ⟨_, frenchCode⟩
    · rw [Library.place_recipe, copyAddress_twinTree isTwin, elsewhere _ (by decide)]
      exact ⟨rfl, files.at?_root⟩
  · intro name member
    rw [origin_twinTree ((twins name).mp member), moduleAddress_twinTree]
    simp
  · intro reader isReader writer isWriter
    obtain ⟨name, isName, rfl⟩ := List.mem_map.mp isReader
    obtain ⟨other, isOther, rfl⟩ := List.mem_map.mp isWriter
    rw [origin_twinTree ((twins name).mp isName), Library.place_recipe,
      copyAddress_twinTree ((twins other).mp isOther)]
    simp

/-- The build of the tree succeeds with one place for the copies of both library sources. -/
theorem runOn_build_twinTree :
    ∃ after names, (build idleHost Library.smallConfig "m.fr").runOn ⟨twinTree, []⟩ =
        (.ok ⟨"std_id", [["m.fr"]].map (output idleHost Library.smallConfig),
          some (bundleOf idleHost Library.smallConfig "m.fr" names), none⟩, after) ∧
      ∀ name, name ∈ names ↔ name = "io.nim" ∨ name = "io.fr" := by
  have parses : Dependencies.Parses none twinTree ["m.fr"] :=
    Dependencies.usable_importsOf.mp ⟨_, importsOf_twinTree⟩
  have found : (Dependencies.find Library.smallConfig.normalizer twinTree
      (idleHost.working.follow "m.fr")).1 = .ok [] := by
    rw [follow_twinTree, show Library.smallConfig.normalizer = none from rfl, Dependencies.find,
      importsOf_twinTree]
    simp [Dependencies.search]
  have ready : ∀ source ∈ [["m.fr"]], ¬(recipe idleHost Library.smallConfig
      (libraryName idleHost Library.smallConfig) source).Fails twinTree := by
    rw [List.forall_mem_singleton]
    refine not_fails_of_parses parses ?_
    rw [location_twinTree]
    exact .inr ⟨rfl, rfl⟩
  rw [← allSources_twinTree] at ready
  obtain ⟨built, made, ran⟩ := @runOn_build_of_ready idleHost Library.smallConfig "m.fr"
    ⟨twinTree, []⟩ _ found rfl rfl rfl ready (by simp [Recipe.Ordered, allSources])
  rw [allSources_twinTree] at made ran
  cases made with
  | follow _ written others =>
      cases others
      rw [show (recipe idleHost Library.smallConfig (libraryName idleHost Library.smallConfig)
        ["m.fr"]).place = ["m.nim"] from location_twinTree] at written
      obtain ⟨twins, isReady⟩ := ready_twinTree written
      obtain ⟨after, bundled, -⟩ := Library.runOn_bundle_of_ready isReady
      rw [follow_twinTree, outputDirectory_twinTree, libraryName_twinTree,
        Work.runOn_bind_ok bundled] at ran
      refine ⟨after, Library.sources built.files ["lib"], ?_, twins⟩
      rw [ran, bundleOf, follow_twinTree, outputDirectory_twinTree, libraryName_twinTree]
      rfl

/-- On this tree it is told what is generated, and when all of it is found. -/
theorem build_loses_nothing_iff_twinTree :
    ∃ result after found names?,
      (build idleHost Library.smallConfig "m.fr").runOn ⟨twinTree, []⟩ = (.ok result, after) ∧
      Generates idleHost Library.smallConfig "m.fr" twinTree result found names? ∧
      ((∀ writing ∈ generatedRow idleHost Library.smallConfig "m.fr" twinTree found names?,
          after.files.read writing.location = .ok writing.content) ↔
        ∀ first ∈ generatedRow idleHost Library.smallConfig "m.fr" twinTree found names?,
          ∀ second ∈ generatedRow idleHost Library.smallConfig "m.fr" twinTree found names?,
            first.location = second.location → first.content = second.content) := by
  obtain ⟨after, names, ran, twins⟩ := runOn_build_twinTree
  have generated : ∀ address ∈ [outputAddress idleHost Library.smallConfig ["m.fr"]] ++
        (bundleOf idleHost Library.smallConfig "m.fr" names).module ::
          (bundleOf idleHost Library.smallConfig "m.fr" names).files,
      address.location ∈ [["m.nim"], ["std_id.nim"], ["io_id.nim"]] := by
    rw [bundleOf, follow_twinTree, outputDirectory_twinTree, libraryName_twinTree]
    simp only [List.singleton_append, List.forall_mem_cons, List.forall_mem_map, location_twinTree,
      moduleAddress_twinTree]
    refine ⟨by simp, by simp, fun name member => ?_⟩
    rw [copyAddress_twinTree ((twins name).mp member)]
    simp
  have undisturbed : Undisturbed idleHost Library.smallConfig "m.fr"
      ⟨"std_id", [["m.fr"]].map (output idleHost Library.smallConfig),
        some (bundleOf idleHost Library.smallConfig "m.fr" names), none⟩ := by
    refine ⟨fun address member isSource => ?_, fun _ address member => ?_, fun isCompiled => ?_⟩
    · have isOutput := generated address member
      rw [List.mem_singleton.mp isSource] at isOutput
      revert isOutput
      decide
    · rw [libraryLocation_twinTree]
      have below : ∀ location ∈ [["m.nim"], ["std_id.nim"], ["io_id.nim"]],
          Location.parent location ≠ ["lib"] := by
        decide
      exact below _ (generated address member)
    · cases isCompiled
  obtain ⟨found, names?, generates, -, -, found_iff⟩ :=
    build_loses_nothing_iff (by decide) (by decide) ran undisturbed
  exact ⟨_, after, found, names?, ran, generates, found_iff⟩

/-- One of the two library sources has no copy with its code. -/
theorem build_loses_copy_twinTree :
    ∃ result after bundle, (build idleHost Library.smallConfig "m.fr").runOn ⟨twinTree, []⟩ =
        (.ok result, after) ∧
      result.bundle? = some bundle ∧ ¬(bundle.files.map (·.location)).Nodup ∧
      ∃ name code, Library.IsSource twinTree ["lib"] name ∧
        (copyRecipe idleHost Library.smallConfig "m.fr" name).made twinTree = some code ∧
        after.files.read (copyRecipe idleHost Library.smallConfig "m.fr" name).place ≠
          .ok code := by
  obtain ⟨after, names, ran, twins⟩ := runOn_build_twinTree
  have isPlace : ∀ name, name = "io.nim" ∨ name = "io.fr" →
      (copyRecipe idleHost Library.smallConfig "m.fr" name).place = ["io_id.nim"] := by
    intro name isTwin
    rw [copyRecipe_twinTree, Library.place_recipe, copyAddress_twinTree isTwin]
  refine ⟨_, after, _, ran, rfl, ?_, ?_⟩
  · intro distinct
    rw [bundleOf, List.map_map] at distinct
    have sameName := List.inj_on_of_nodup_map distinct ((twins "io.nim").mpr (.inl rfl))
      ((twins "io.fr").mpr (.inr rfl)) ?_
    · revert sameName
      decide
    · exact ((isPlace "io.nim" (.inl rfl)).trans (isPlace "io.fr" (.inr rfl)).symm)
  · obtain ⟨nimCode, frenchCode⟩ := @made_twinTree twinTree (by rintro name (rfl | rfl) <;> rfl)
    by_cases kept : after.files.read ["io_id.nim"] = .ok []
    · refine ⟨"io.fr", textBytes "import std\n\n", ⟨.inr (by decide), [], false, rfl⟩, ?_, ?_⟩
      · rw [copyRecipe_twinTree]
        exact frenchCode
      · have length : (textBytes "import std\n\n").length = 12 := by
          cbv
        rw [isPlace _ (.inr rfl), kept]
        intro same
        rw [← Except.ok.inj same] at length
        cases length
    · refine ⟨"io.nim", [], ⟨.inl (by decide), [], false, rfl⟩, ?_, ?_⟩
      · rw [copyRecipe_twinTree]
        exact nimCode
      · rw [isPlace _ (.inl rfl)]
        exact kept

end Build

end FrenchNim
