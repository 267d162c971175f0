import FrenchNim.Proofs.Project.Recipes

namespace FrenchNim

/-!
# The stages of a build

A build that succeeds has found its sources, made its output directory, written
the outputs, bundled the library and compiled the entry, one stage behind the
other. What a stage leaves is what the next one finds.
-/

/-- Work behind other work succeeds only where the other work did. -/
theorem Work.exists_of_runOn_bind
    {α β : Type}
    {work : Work α}
    {next : α → Work β}
    {workspace after : Workspace}
    {value : β}
    (done : (work >>= next).runOn workspace = (.ok value, after)) :
    ∃ first middle, work.runOn workspace = (.ok first, middle) ∧
      (next first).runOn middle = (.ok value, after) := by
  rcases ran : work.runOn workspace with ⟨outcome, middle⟩
  cases outcome with
  | error failure =>
      cases (runOn_bind_error ran).symm.trans done
  | ok first =>
      exact ⟨first, middle, rfl, (runOn_bind_ok ran).symm.trans done⟩

namespace BuildResult

/-- The generated Nim files. -/
def generated (result : BuildResult) : List Address :=
  result.outputs.map (·.file) ++
    result.bundle?.elim [] fun bundle => bundle.module :: bundle.files

/-- All files that a build has written. -/
def written (result : BuildResult) : List Address :=
  result.generated ++ result.binary?.toList

end BuildResult

namespace Build

/-- All sources of a build: its dependencies, and the entry behind them. -/
def allSources (host : Host) (path : String) (found : List Location) : List Location :=
  found ++ [host.working.follow path]

/-- What the stages of a successful build left behind them. -/
structure Stages (host : Host) (config : Config) (path : String) (workspace after : Workspace)
    (result : BuildResult) where
  found : List Location
  searched : Workspace
  prepared : Workspace
  built : Workspace
  bundled : Workspace
  discovered : (Dependencies.find config.normalizer workspace.files
    (host.working.follow path)).1 = .ok found
  unchanged : searched.files = workspace.files
  ranPrepare : (makeOutputDirectory host config).runOn searched = (.ok (), prepared)
  notCanceled : host.canceled = false
  made : Recipe.Made prepared.files
    ((allSources host path found).map (recipe host config (libraryName host config))) built.files
  outputs : result.outputs = (allSources host path found).map (output host config)
  ranBundle : (Library.bundle host config (outputDirectory host config (host.working.follow path))
    (libraryName host config)).runOn built = (.ok result.bundle?, bundled)
  ranCompile : (compileEntry host config (libraryName host config) (host.working.follow path)
    result.outputs.dropLast).runOn bundled = (.ok result.binary?, after)

variable {host : Host} {config : Config} {library path : String} {sources : List Location}
  {workspace after : Workspace} {result : BuildResult}

/-- Building files succeeds only by building them all. -/
theorem made_of_runOn_buildFiles
    {outputs : List Output}
    (done : (buildFiles host config library sources).runOn workspace = (.ok outputs, after)) :
    host.canceled = false ∧ outputs = sources.map (output host config) ∧
      Recipe.Made workspace.files (sources.map (recipe host config library)) after.files := by
  unfold buildFiles at done
  cases canceled : host.canceled with
  | true =>
      rw [canceled, if_pos rfl] at done
      cases done
  | false =>
      rw [canceled, if_neg Bool.false_ne_true] at done
      rcases Work.runOn_mapM (fun source _ => buildFile_follows host config library source)
          workspace with
        ⟨reached, ran, made⟩ | ⟨failure, reached, _, _, _, ran, -⟩
      · cases ran.symm.trans done
        exact ⟨rfl, rfl, made⟩
      · cases ran.symm.trans done

/-- A build that succeeds has passed all its stages. -/
theorem exists_stages
    (done : (build host config path).runOn workspace = (.ok result, after)) :
    Nonempty (Stages host config path workspace after result) := by
  unfold build at done
  obtain ⟨found, searched, ranSearch, done⟩ := Work.exists_of_runOn_bind done
  rw [Dependencies.runOn_discover] at ranSearch
  obtain ⟨discovered, isSearched⟩ := Prod.mk.inj ranSearch
  obtain ⟨⟨⟩, prepared, ranPrepare, done⟩ := Work.exists_of_runOn_bind done
  obtain ⟨outputs, built, ranFiles, done⟩ := Work.exists_of_runOn_bind done
  obtain ⟨notCanceled, isOutputs, made⟩ := made_of_runOn_buildFiles ranFiles
  obtain ⟨bundle?, bundled, ranBundle, done⟩ := Work.exists_of_runOn_bind done
  obtain ⟨binary?, compiled, ranCompile, done⟩ := Work.exists_of_runOn_bind done
  cases done
  exact ⟨found, searched, prepared, built, bundled, discovered, by rw [← isSearched], ranPrepare,
    notCanceled, made, isOutputs, ranBundle, ranCompile⟩

/-- Building files succeeds if all can be built and none is read behind its own output. -/
theorem runOn_buildFiles_of_ready
    (workspace : Workspace)
    (notCanceled : host.canceled = false)
    (ready : ∀ source ∈ sources, ¬(recipe host config library source).Fails workspace.files)
    (ordered : Recipe.Ordered (sources.map (recipe host config library))) :
    ∃ built, (buildFiles host config library sources).runOn workspace =
        (.ok (sources.map (output host config)), built) ∧
      Recipe.Made workspace.files (sources.map (recipe host config library)) built.files := by
  obtain ⟨built, ran, made⟩ := Work.runOn_mapM_of_ready
    (fun source _ => buildFile_follows host config library source) ready ordered
  refine ⟨built, ?_, made⟩
  rw [buildFiles, notCanceled, if_neg Bool.false_ne_true]
  exact ran

/-- A build beside its sources comes to the bundling of the library. -/
theorem runOn_build_of_ready
    {found : List Location}
    (discovered : (Dependencies.find config.normalizer workspace.files
      (host.working.follow path)).1 = .ok found)
    (beside : config.output = "")
    (uncompiled : config.compile = false)
    (notCanceled : host.canceled = false)
    (ready : ∀ source ∈ allSources host path found,
      ¬(recipe host config (libraryName host config) source).Fails workspace.files)
    (ordered : Recipe.Ordered
      ((allSources host path found).map (recipe host config (libraryName host config)))) :
    ∃ built, Recipe.Made workspace.files
        ((allSources host path found).map (recipe host config (libraryName host config)))
        built.files ∧
      (build host config path).runOn workspace =
        (Library.bundle host config (outputDirectory host config (host.working.follow path))
            (libraryName host config) >>= fun bundle? =>
          pure ⟨libraryName host config, (allSources host path found).map (output host config),
            bundle?, none⟩).runOn built := by
  have searched := Dependencies.runOn_discover config.normalizer (host.working.follow path)
    workspace
  rw [discovered] at searched
  obtain ⟨built, ran, made⟩ := runOn_buildFiles_of_ready { workspace with
    log := workspace.log ++ (Dependencies.find config.normalizer workspace.files
      (host.working.follow path)).2 } notCanceled ready ordered
  refine ⟨built, made, ?_⟩
  have unmade : makeOutputDirectory host config = pure () := by
    rw [makeOutputDirectory, if_neg (not_not.mpr beside)]
  have skipped : ∀ outputs, compileEntry host config (libraryName host config)
      (host.working.follow path) outputs = pure none := by
    intro outputs
    rw [compileEntry, uncompiled, if_neg Bool.false_ne_true]
  unfold build
  rw [Work.runOn_bind_ok searched, unmade, pure_bind]
  simp only [skipped, pure_bind]
  exact Work.runOn_bind_ok ran

/-- The settings for a build of nothing but the outputs. -/
def bareConfig : Config :=
  { Config.default with normalize := false }

end Build

end FrenchNim
