import FrenchNim.Proofs.Project.Keeping

namespace FrenchNim

/-!
# Sources that a build overwrites

All generated files are named as Nim files, and the binary is named after the
entry. A source with another name is never written, whether the build succeeds
or not. A source with such a name can be lost: the output of another source may
have its name, and nothing looks whether it does.
-/

namespace Build

variable {host : Host} {config : Config} {path : String} {workspace after : Workspace}
  {result : BuildResult} {source : Location}

/-- A binary that is returned is the binary of the entry. -/
theorem location_of_returns_compileEntry
    {library : String}
    {start : Location}
    {dependencies : List Output}
    {binary : Address}
    (returns : (compileEntry host config library start dependencies).Returns (some binary)) :
    config.compile = true ∧ binary.location = binaryLocation host config start := by
  unfold compileEntry at returns
  split at returns
  · rename_i isCompiled
    obtain ⟨files, -, compiled⟩ := returns.exists_of_bind
    exact ⟨isCompiled, Compile.location_of_returns_compile compiled⟩
  · obtain ⟨reached, final, done⟩ := returns
    cases done

/-- Everything that is written is a Nim file or the binary. -/
theorem endsIn_of_mem_written
    (done : (build host config path).runOn workspace = (.ok result, after))
    {address : Address}
    (member : address ∈ result.written) :
    address.location.EndsIn nimEnding ∨ config.compile = true ∧
      address.location = binaryLocation host config (host.working.follow path) := by
  obtain ⟨stages⟩ := exists_stages done
  unfold BuildResult.written BuildResult.generated at member
  rcases List.mem_append.mp member with isGenerated | isBinary
  · left
    rcases List.mem_append.mp isGenerated with isOutput | isBundled
    · rw [stages.outputs, List.map_map] at isOutput
      obtain ⟨source, -, rfl⟩ := List.mem_map.mp isOutput
      exact endsIn_outputAddress host config source
    · have ran := stages.ranBundle
      cases made : result.bundle? with
      | none =>
          rw [made] at isBundled
          cases isBundled
      | some bundle =>
          rw [made] at isBundled ran
          exact Library.endsIn_of_returns_bundle ⟨_, _, ran⟩ address isBundled
  · right
    rw [Option.mem_toList] at isBinary
    have ran := stages.ranCompile
    rw [Option.mem_def.mp isBinary] at ran
    exact location_of_returns_compileEntry ⟨_, _, ran⟩

/--
A build overwrites no source that is not named as a Nim file and is not where
the binary goes: the source is as before, however the build ends, and a build
that succeeds has not written to it.
-/
theorem build_overwrites_no_source
    (plain : host.working.Plain)
    (reaches : Dependencies.Reaches workspace.files
      (Dependencies.importsOf config.normalizer workspace.files) (host.working.follow path) source)
    (notNim : ¬source.EndsIn nimEnding)
    (spared : config.compile = true → host.Spares source)
    (differs : config.compile = true →
      source ≠ binaryLocation host config (host.working.follow path)) :
    ((build host config path).runOn workspace).2.files.at? source = workspace.files.at? source ∧
      ∀ result after, (build host config path).runOn workspace = (.ok result, after) →
        ∀ address ∈ result.written, address.location ≠ source := by
  constructor
  · by_cases parses : Dependencies.Parses config.normalizer workspace.files source
    · obtain ⟨content, program, read, -⟩ := parses
      obtain ⟨executable, isFile⟩ := FileSystem.read_eq_ok_iff.mp read
      rw [isFile]
      exact build_keeps plain notNim spared differs workspace isFile
    · -- A source that does not parse ends the build before its first write.
      obtain ⟨failure, after, ran, same⟩ :=
        runOn_build_unparsed host config path workspace ⟨source, reaches, parses⟩
      rw [ran, same]
  · rintro result after done address member rfl
    rcases endsIn_of_mem_written done member with isNim | ⟨isCompiled, isBinary⟩
    · exact notNim isNim
    · exact differs isCompiled isBinary

/-! ## A source named as a Nim file -/

/-- A source and a file that it imports, which is named like its output. -/
def clashTree : FileSystem :=
  ⟨[(["a.fr"], .file (textBytes "importer x de \"a.nim\"\n") false),
    (["a.nim"], .file [] false)]⟩

/-- The entry imports the file that is named like its output. -/
theorem importsOf_clashTree :
    Dependencies.importsOf none clashTree ["a.fr"] = .ok ["a.nim"] := by
  refine Dependencies.importsOf_of_text "importer x de \"a.nim\"\n" rfl ?_
  cbv

/-- That file imports nothing. -/
theorem importsOf_clashTree_nim :
    Dependencies.importsOf none clashTree ["a.nim"] = .ok [] := by
  cbv

/-- The import stands beside the entry. -/
theorem target_clashTree : Dependencies.target ["a.fr"] "a.nim" = ["a.nim"] :=
  Location.follow_of_isName (by decide) []

/-- So that file is the only dependency of the entry. -/
theorem find_clashTree : (Dependencies.find none clashTree ["a.fr"]).1 = .ok [["a.nim"]] := by
  have held : clashTree.holds ["a.nim"] = true := rfl
  rw [Dependencies.find, importsOf_clashTree]
  simp [Dependencies.search, target_clashTree, held, importsOf_clashTree_nim]

/-- The path of the build leads to the entry. -/
theorem follow_clashTree : idleHost.working.follow "a.fr" = ["a.fr"] :=
  Location.follow_of_isName (by decide) []

/-- The output of the entry has the name of the import. -/
theorem outputName_clashTree : outputName ["a.fr"] = "a.nim" := by
  decide

/-- The output of the import has a name of its own. -/
theorem outputName_clashTree_nim : outputName ["a.nim"] = "a.nim.nim" := by
  decide

/-- The output of the entry is the file that the entry imports. -/
theorem location_clashTree
    (config : Config)
    (beside : config.output = "") :
    (outputAddress idleHost config ["a.fr"]).location = ["a.nim"] := by
  have isName : Location.IsName "a.nim" := by
    decide
  rw [← outputName_clashTree] at isName
  rw [location_outputAddress_beside beside isName, outputName_clashTree]
  rfl

/-- The output of the import stands beside it. -/
theorem location_clashTree_nim :
    (outputAddress idleHost bareConfig ["a.nim"]).location = ["a.nim.nim"] := by
  have isName : Location.IsName "a.nim.nim" := by
    decide
  rw [← outputName_clashTree_nim] at isName
  rw [location_outputAddress_beside rfl isName, outputName_clashTree_nim]
  rfl

/-- The entry of the tree is as before, also when a binary is wanted. -/
theorem build_overwrites_no_source_clashTree :
    ((build idleHost { bareConfig with compile := true } "a.fr").runOn
      ⟨clashTree, []⟩).2.files.at? ["a.fr"] = clashTree.at? ["a.fr"] := by
  have notNim : ¬Location.EndsIn nimEnding ["a.fr"] := by
    rintro ⟨stem, same⟩
    have last := congrArg (fun name => name.toList.getLast?) same
    simp [Location.name, nimEnding, String.toList_append] at last
  have spared : idleHost.Spares ["a.fr"] := ⟨by decide, fun _ _ _ => rfl⟩
  have binary : binaryLocation idleHost { bareConfig with compile := true } ["a.fr"] = ["a"] := by
    rw [binaryLocation, Compile.binaryLocation, location_clashTree _ rfl]
    decide
  refine (build_overwrites_no_source (by simp [Location.Plain, idleHost]) ?_ notNim
    (fun _ => spared) fun _ => ?_).1
  · rw [follow_clashTree]
    exact .refl
  · rw [follow_clashTree, binary]
    decide

/-- The build of the tree makes the outputs of both files, that of the entry last. -/
theorem runOn_build_clashTree :
    ∃ after, (build idleHost bareConfig "a.fr").runOn ⟨clashTree, []⟩ =
        (.ok ⟨libraryName idleHost bareConfig,
          [["a.nim"], ["a.fr"]].map (output idleHost bareConfig), none, none⟩, after) ∧
      Recipe.Made clashTree ([["a.nim"], ["a.fr"]].map
        (recipe idleHost bareConfig (libraryName idleHost bareConfig))) after.files := by
  have all : allSources idleHost "a.fr" [["a.nim"]] = [["a.nim"], ["a.fr"]] := by
    rw [allSources, follow_clashTree]
    rfl
  have found : (Dependencies.find bareConfig.normalizer clashTree
      (idleHost.working.follow "a.fr")).1 = .ok [["a.nim"]] := by
    rw [follow_clashTree]
    exact find_clashTree
  have ready : ∀ source ∈ [["a.nim"], ["a.fr"]],
      ¬(recipe idleHost bareConfig (libraryName idleHost bareConfig) source).Fails clashTree := by
    have parses : Dependencies.Parses none clashTree ["a.nim"] :=
      Dependencies.usable_importsOf.mp ⟨_, importsOf_clashTree_nim⟩
    have parsesEntry : Dependencies.Parses none clashTree ["a.fr"] :=
      Dependencies.usable_importsOf.mp ⟨_, importsOf_clashTree⟩
    simp only [List.forall_mem_cons]
    refine ⟨not_fails_of_parses parses ?_, not_fails_of_parses parsesEntry ?_, by simp⟩
    · rw [location_clashTree_nim]
      exact .inr ⟨rfl, rfl⟩
    · rw [location_clashTree bareConfig rfl]
      exact .inl ⟨_, _, rfl⟩
  have ordered : Recipe.Ordered ([["a.nim"], ["a.fr"]].map
      (recipe idleHost bareConfig (libraryName idleHost bareConfig))) := by
    simp [Recipe.Ordered, recipe, location_clashTree_nim]
  rw [← all] at ready ordered ⊢
  obtain ⟨built, made, ran⟩ := @runOn_build_of_ready idleHost bareConfig "a.fr" ⟨clashTree, []⟩ _
    found rfl rfl rfl ready ordered
  rw [Work.runOn_bind_ok (Library.runOn_bundle_of_unnamed _ _ built rfl)] at ran
  exact ⟨built, ran, made⟩

/-- The imported file is overwritten by the output of the source that imports it. -/
theorem build_overwrites_source_clashTree :
    ∃ result after code, (build idleHost bareConfig "a.fr").runOn ⟨clashTree, []⟩ =
        (.ok result, after) ∧
      Dependencies.Reaches clashTree (Dependencies.importsOf none clashTree) ["a.fr"] ["a.nim"] ∧
      (∃ address ∈ result.written, address.location = ["a.nim"]) ∧
      Project.nimCode none (libraryName idleHost bareConfig)
        (textBytes "importer x de \"a.nim\"\n") = some code ∧
      after.files.read ["a.nim"] = .ok code := by
  obtain ⟨after, ran, made⟩ := runOn_build_clashTree
  cases made with
  | @follow _ next _ _ _ _ _ written others =>
      cases others with
      | @follow _ _ _ _ code _ isCode rewritten last =>
          cases last
          refine ⟨_, _, code, ran, ?_, ?_, ?_, ?_⟩
          · exact .single ⟨_, importsOf_clashTree, "a.nim", by simp, target_clashTree, rfl⟩
          · refine ⟨outputAddress idleHost bareConfig ["a.fr"], ?_,
              location_clashTree bareConfig rfl⟩
            simp [BuildResult.written, BuildResult.generated, output]
          · have unread : (["a.fr"] : Location) ≠
                (outputAddress idleHost bareConfig ["a.nim"]).location := by
              rw [location_clashTree_nim]
              decide
            rw [Recipe.made_eq_of_at? (FileSystem.at?_write_of_ne written unread)] at isCode
            exact isCode
          · rw [← location_clashTree bareConfig rfl]
            exact FileSystem.read_write rewritten

end Build

end FrenchNim
