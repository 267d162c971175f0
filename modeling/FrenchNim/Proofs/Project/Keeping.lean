import FrenchNim.Proofs.Files.Paths
import FrenchNim.Proofs.Project.Bundling
import FrenchNim.Proofs.Project.Stages

namespace FrenchNim

/-!
# What work leaves alone

Work keeps an entry if the entry is still there afterwards, also when the work
fails. A build keeps every entry that is not where it generates a file: all
generated files are Nim files but the binary, and what else is written stays in
the scratch directory of the host.
-/

namespace FileSystem

variable {files next after : FileSystem} {location place working : Location} {entry : Entry}

/-- Removing a tree leaves what is outside of it. -/
theorem at?_remove
    (outside : place.contains location = false) :
    (files.remove place).at? location = files.at? location := by
  unfold at? remove
  by_cases root : location = []
  · simp [root]
  · simp only [root, if_false]
    induction files.entries with
    | nil =>
        rfl
    | cons first rest inductionHypothesis =>
        obtain ⟨key, value⟩ := first
        rw [List.filter_cons]
        by_cases same : location = key
        · subst same
          simp [outside]
        · have differs : (location == key) = false := by simpa using same
          split
          · simp only [List.lookup_cons, differs, inductionHypothesis]
          · simp only [List.lookup_cons, differs, inductionHypothesis]

/-- The second tree is the first one with more directories. -/
def Widened (files after : FileSystem) : Prop :=
  ∀ location, after.at? location = files.at? location ∨
    files.at? location = none ∧ after.at? location = some .directory

/-- A tree has no fewer directories than itself. -/
theorem Widened.refl
    (files : FileSystem) :
    files.Widened files :=
  fun _ => .inl rfl

/-- Directories may be added in several steps. -/
theorem Widened.trans
    (first : files.Widened next)
    (second : next.Widened after) :
    files.Widened after := by
  intro location
  rcases second location with same | ⟨free, isDirectory⟩
  · rw [same]
    exact first location
  · right
    refine ⟨?_, isDirectory⟩
    rcases first location with same | ⟨isFree, -⟩
    · rw [← same]
      exact free
    · exact isFree

/-- What a tree holds, it holds with more directories. -/
theorem Widened.at?_eq_some
    (widened : files.Widened after)
    (held : files.at? location = some entry) :
    after.at? location = some entry := by
  rcases widened location with same | ⟨free, -⟩
  · rw [same]
    exact held
  · cases free.symm.trans held

/-- Directories change nothing about files. -/
theorem Widened.at?_eq_file_iff
    {content : Bytes}
    {executable : Bool}
    (widened : files.Widened after) :
    after.at? location = some (.file content executable) ↔
      files.at? location = some (.file content executable) := by
  rcases widened location with same | ⟨free, isDirectory⟩
  · rw [same]
  · simp [free, isDirectory]

/-- More directories do not change what a recipe makes. -/
theorem Widened.made_eq
    (widened : files.Widened after)
    (recipe : Recipe) :
    recipe.made after = recipe.made files := by
  unfold Recipe.made
  rw [toOption_read, toOption_read]
  rcases widened recipe.origin with same | ⟨free, isDirectory⟩
  · rw [same]
  · rw [free, isDirectory]

/-- Making a directory adds this directory and nothing else. -/
theorem widened_of_makeDirectory
    {path : String}
    (made : files.makeDirectory working path = .ok after) :
    files.Widened after := by
  unfold makeDirectory at made
  split at made
  · cases made
    exact .refl _
  · cases made
  · dsimp only at made
    split at made
    · cases made
      exact .refl _
    · cases made
    · rename_i missing
      have free : files.at? (working.follow path) = none := by
        cases held : files.at? (working.follow path) with
        | none => rfl
        | some entry => cases (look_eq_ok_iff.mpr held).symm.trans missing
      have notRoot : working.follow path ≠ [] := by
        intro root
        rw [root] at free
        simp at free
      split at made
      · cases made
        intro location
        rw [at?_put _ _ _ _ notRoot]
        split
        · rename_i same
          rw [same]
          exact .inr ⟨free, rfl⟩
        · exact .inl rfl
      · cases made
      · cases made

/-- Making directories one after the other adds directories and nothing else. -/
theorem widened_makeEach
    (files : FileSystem)
    (working : Location)
    (paths : List String) :
    files.Widened (files.makeEach working paths).1 := by
  induction paths generalizing files with
  | nil =>
      exact .refl _
  | cons path rest inductionHypothesis =>
      rw [makeEach]
      split
      · rename_i next made
        exact (widened_of_makeDirectory made).trans (inductionHypothesis next)
      · exact .refl _

/-- Making directories adds directories, also if not all can be made. -/
theorem widened_makeDirectories
    (files : FileSystem)
    (working : Location)
    (path : String) :
    files.Widened (files.makeDirectories working path).1 := by
  unfold makeDirectories
  split
  · exact .refl _
  · exact .refl _
  · exact widened_makeEach files working _

end FileSystem

/-! ## Work that keeps an entry -/

namespace Work

/-- What a location holds is still there after the work. -/
def Keeps {α : Type} (location : Location) (entry : Entry) (work : Work α) : Prop :=
  ∀ workspace, workspace.files.at? location = some entry →
    (work.runOn workspace).2.files.at? location = some entry

/-- The work can succeed with a value. -/
def Returns {α : Type} (work : Work α) (value : α) : Prop :=
  ∃ workspace after, work.runOn workspace = (.ok value, after)

/-- What two steps return in a row, the second one returns for some value of the first. -/
theorem Returns.exists_of_bind
    {α β : Type}
    {work : Work α}
    {next : α → Work β}
    {value : β}
    (returns : (work >>= next).Returns value) :
    ∃ first, work.Returns first ∧ (next first).Returns value := by
  obtain ⟨workspace, after, done⟩ := returns
  obtain ⟨first, middle, ran, ranNext⟩ := exists_of_runOn_bind done
  exact ⟨first, ⟨_, _, ran⟩, ⟨_, _, ranNext⟩⟩

namespace Keeps

variable {α β : Type} {location : Location} {entry : Entry} {work : Work α}

/-- Work that changes no file keeps everything. -/
theorem of_files
    (unchanged : ∀ workspace, (work.runOn workspace).2.files = workspace.files) :
    work.Keeps location entry := by
  intro workspace held
  rw [unchanged]
  exact held

/-- The root is a directory whatever is done. -/
theorem root :
    work.Keeps [] entry := by
  intro workspace held
  rw [FileSystem.at?_root] at held ⊢
  exact held

/-- Two steps in a row keep what both keep. -/
theorem bind
    {next : α → Work β}
    (first : work.Keeps location entry)
    (second : ∀ value, work.Returns value → (next value).Keeps location entry) :
    (work >>= next).Keeps location entry := by
  intro workspace held
  have kept := first workspace held
  rcases ran : work.runOn workspace with ⟨outcome, middle⟩
  rw [ran] at kept
  cases outcome with
  | error failure =>
      rw [runOn_bind_error ran]
      exact kept
  | ok value =>
      rw [runOn_bind_ok ran]
      exact second value ⟨workspace, middle, ran⟩ middle kept

/-- Writing a file keeps what is elsewhere. -/
theorem write
    {address : Address}
    (differs : location ≠ address.location)
    (content : Bytes)
    (executable : Bool) :
    (Work.write address content executable).Keeps location entry := by
  intro workspace held
  by_cases writable : workspace.files.Writable address.location
  · obtain ⟨changed, written⟩ := writable.write content executable
    rw [runOn_write_ok written]
    exact (FileSystem.at?_write_of_ne written differs).trans held
  · obtain ⟨reason, refused⟩ := runOn_write_error writable
    rw [refused]
    exact held

/-- Following a recipe keeps what is elsewhere. -/
theorem of_follows
    {recipe : Recipe}
    {value : α}
    (follows : work.Follows recipe value)
    (differs : location ≠ recipe.place) :
    work.Keeps location entry := by
  intro workspace held
  rcases follows workspace with ⟨content, after, ran, -, written⟩ | ⟨failure, after, ran, same, -⟩
  · rw [ran]
    exact (FileSystem.at?_write_of_ne written differs).trans held
  · rw [ran, same]
    exact held

/-- Acting on a list keeps what acting on each item keeps. -/
theorem mapM
    {act : α → Work β}
    {items : List α}
    (keeps : ∀ item ∈ items, (act item).Keeps location entry) :
    (items.mapM act).Keeps location entry := by
  induction items with
  | nil =>
      exact of_files fun _ => rfl
  | cons item rest inductionHypothesis =>
      obtain ⟨keepsFirst, keepsRest⟩ := List.forall_mem_cons.mp keeps
      rw [List.mapM_cons]
      refine keepsFirst.bind fun value _ => (inductionHypothesis keepsRest).bind fun values _ => ?_
      exact of_files fun _ => rfl

/-- A loop over a list keeps what each round keeps. -/
theorem forIn
    {act : α → PUnit → Work (ForInStep PUnit)}
    {items : List α}
    (keeps : ∀ item ∈ items, (act item ⟨⟩).Keeps location entry) :
    (ForIn.forIn items PUnit.unit act).Keeps location entry := by
  induction items with
  | nil =>
      exact of_files fun _ => rfl
  | cons item rest inductionHypothesis =>
      obtain ⟨keepsFirst, keepsRest⟩ := List.forall_mem_cons.mp keeps
      rw [List.forIn_cons]
      refine keepsFirst.bind fun step _ => ?_
      cases step with
      | done =>
          exact of_files fun _ => rfl
      | yield =>
          exact inductionHypothesis keepsRest

end Keeps

end Work

/-! ## Compilations -/

/-- Nothing that runs in the scratch directory of the host changes the location. -/
structure Host.Spares (host : Host) (location : Location) : Prop where
  outside : host.scratch.contains location = false
  unchanged : ∀ files invocation, invocation.directory = host.scratch →
    (host.execute files invocation).files.at? location = files.at? location

namespace Compile

open Work (Keeps)

variable {host : Host} {config : Config} {location destination : Location} {entry : Entry}
  {main : Address} {others : List Address}

/-- Where the binary of a module goes. -/
def binaryLocation (config : Config) (main : Address) (destination : Location) : Location :=
  destination.follow (config.target.binaryName (dropEnding nimEnding main.location.name))

/-- Copying a file keeps everything but the copy. -/
theorem copyFile_keeps
    (source : Address)
    {copy : Address}
    (executable : Bool)
    (differs : location ≠ copy.location) :
    (copyFile source copy executable).Keeps location entry := by
  unfold copyFile
  refine Keeps.bind (.of_files fun _ => rfl) fun files _ => ?_
  dsimp only
  split
  · exact .of_files fun _ => rfl
  · refine (Keeps.write differs _ executable).bind fun outcome _ => ?_
    cases outcome <;> exact .of_files fun _ => rfl
  · refine Keeps.bind ((Keeps.write differs _ executable).bind fun outcome _ => ?_)
      fun _ _ => .of_files fun _ => rfl
    cases outcome <;> exact .of_files fun _ => rfl

/-- The copies for a compilation stay in the scratch directory. -/
theorem ne_scratchAddress
    {file : Location}
    (plain : file.Plain)
    (notRoot : location ≠ [])
    (outside : host.scratch.contains location = false) :
    location ≠ (scratchAddress host file.name).location := by
  by_cases isRoot : file = []
  · subst isRoot
    exact notRoot
  · rintro rfl
    rw [scratchAddress, Address.ofLocation, Location.follow_of_isName (plain.isName_name isRoot),
      ← Bool.not_eq_true, Location.contains_eq_true_iff] at outside
    exact outside (List.prefix_append _ _)

/-- The compiler keeps what it spares. -/
theorem runCompiler_keeps
    (main : Address)
    (spared : host.Spares location) :
    (runCompiler host config main).Keeps location entry := by
  unfold runCompiler
  refine Keeps.bind (.of_files fun _ => rfl) fun _ _ => ?_
  intro workspace held
  have ran : Work.files.runOn workspace = (.ok workspace.files, workspace) := rfl
  rw [Work.runOn_bind_ok ran]
  dsimp only
  generalize executed : host.execute workspace.files (invocation host config main) = execution
  have kept : execution.files.at? location = some entry := by
    rw [← executed, spared.unchanged _ _ rfl]
    exact held
  have changed : (Work.setFiles execution.files).runOn workspace =
      (.ok (), { workspace with files := execution.files }) := rfl
  rw [Work.runOn_bind_ok changed]
  split <;> exact kept

/-- Taking the binary keeps everything but the binary. -/
theorem takeBinary_keeps
    (differs : location ≠ binaryLocation config main destination) :
    (takeBinary host config main destination).Keeps location entry := by
  unfold takeBinary
  refine Keeps.bind (.of_files fun _ => rfl) fun files _ => ?_
  dsimp only
  split
  · refine (copyFile_keeps _ _ ?_).bind fun _ _ => .of_files fun _ => rfl
    exact differs
  · exact .of_files fun _ => rfl

/-- What stands outside of a scratch directory is kept when it is removed. -/
theorem withScratch_keeps
    {α : Type}
    {scratch : Location}
    {work : Work α}
    (isOutside : scratch.contains location = false)
    (keeps : work.Keeps location entry) :
    (withScratch scratch work).Keeps location entry := by
  intro workspace held
  have outside : ¬scratch <+: location := by
    rw [← Location.contains_eq_true_iff, isOutside]
    exact Bool.false_ne_true
  have notRoot : scratch ≠ [] := by
    rintro rfl
    exact outside List.nil_prefix
  have differs : location ≠ scratch := by
    rintro rfl
    exact outside List.prefix_rfl
  have ran : ((withScratch scratch work).runOn workspace).2.files =
      (work.runOn { workspace with files := workspace.files.put scratch .directory }).2.files.remove
        scratch := rfl
  rw [ran, FileSystem.at?_remove isOutside]
  apply keeps
  rw [FileSystem.at?_put _ _ _ _ notRoot, if_neg differs]
  exact held

/-- A compilation changes nothing but the binary. -/
theorem compile_keeps
    (plain : ∀ file ∈ main :: others, file.location.Plain)
    (spared : host.Spares location)
    (differs : location ≠ binaryLocation config main destination) :
    (compile host config main others destination).Keeps location entry := by
  by_cases isRoot : location = []
  · subst isRoot
    exact .root
  · refine withScratch_keeps spared.outside ?_
    refine (Keeps.forIn fun file member => ?_).bind fun _ _ => ?_
    · refine (copyFile_keeps _ _ ?_).bind fun _ _ => .of_files fun _ => rfl
      exact ne_scratchAddress (plain file member) isRoot spared.outside
    · exact (runCompiler_keeps main spared).bind fun _ _ => takeBinary_keeps differs

/-- What is returned from the scratch directory was made there. -/
theorem returns_of_withScratch
    {α : Type}
    {scratch : Location}
    {work : Work α}
    {value : α}
    (returns : (withScratch scratch work).Returns value) :
    work.Returns value := by
  obtain ⟨workspace, after, ran⟩ := returns
  have made : (work.runOn { workspace with
      files := workspace.files.put scratch .directory }).1 = .ok value := congrArg Prod.fst ran
  exact ⟨_, _, Prod.ext made rfl⟩

/-- A binary that is returned is where binaries go. -/
theorem location_of_returns_compile
    {binary : Address}
    (returns : (compile host config main others destination).Returns (some binary)) :
    binary.location = binaryLocation config main destination := by
  obtain ⟨-, -, afterCopies⟩ := (returns_of_withScratch returns).exists_of_bind
  obtain ⟨-, -, taken⟩ := afterCopies.exists_of_bind
  obtain ⟨files, -, taken⟩ := taken.exists_of_bind
  dsimp only at taken
  split at taken
  · obtain ⟨-, -, copied⟩ := taken.exists_of_bind
    obtain ⟨-, -, logged⟩ := copied.exists_of_bind
    obtain ⟨workspace, after, done⟩ := logged
    cases done
    rfl
  · obtain ⟨-, -, logged⟩ := taken.exists_of_bind
    obtain ⟨workspace, after, done⟩ := logged
    cases done

end Compile

/-! ## Builds -/

/-- The ending of Nim files can stand behind every stem. -/
theorem nimEnding_unbroken : '/' ∉ nimEnding.toList := by
  decide

/-- The ending of Nim files is no row of dots. -/
theorem nimEnding_marked : ∃ c ∈ nimEnding.toList, c ≠ '.' :=
  ⟨'n', by decide, by decide⟩

namespace Library

open Work (Keeps)

variable {host : Host} {config : Config} {destination library : String} {location : Location}
  {entry : Entry}

/-- The module of the library is a Nim file. -/
theorem endsIn_moduleAddress
    (host : Host)
    (destination library : String) :
    (moduleAddress host destination library).location.EndsIn nimEnding :=
  Location.endsIn_follow_join nimEnding_unbroken nimEnding_marked _ _ _

/-- The module of the library stands in the directory of the output. -/
theorem location_moduleAddress
    (host : Host)
    (destination : String)
    (isName : Location.IsName (library ++ nimEnding)) :
    (moduleAddress host destination library).location =
      host.working.follow destination ++ [library ++ nimEnding] :=
  Location.follow_join isName host.working destination

/-- A file of the library is copied into the directory of the output. -/
theorem location_copyAddress
    (host : Host)
    (destination : String)
    {source : String}
    (isName : Location.IsName (copyName library source ++ nimEnding)) :
    (copyAddress host destination library source).location =
      host.working.follow destination ++ [copyName library source ++ nimEnding] :=
  Location.follow_join isName host.working destination

/-- The module of the library has a plain location. -/
theorem plain_moduleAddress
    (plain : host.working.Plain)
    (destination library : String) :
    (moduleAddress host destination library).location.Plain :=
  plain.follow (CleanPath.join destination (library ++ nimEnding))

/-- A copied file of the library is a Nim file. -/
theorem endsIn_copyAddress
    (host : Host)
    (destination library source : String) :
    (copyAddress host destination library source).location.EndsIn nimEnding :=
  Location.endsIn_follow_join nimEnding_unbroken nimEnding_marked _ _ _

/-- A bundling writes Nim files and nothing else. -/
theorem bundle_keeps
    (notNim : ¬location.EndsIn nimEnding) :
    (bundle host config destination library).Keeps location entry := by
  have copiedKeeps : ∀ {before after : FileSystem} {names copied : List String},
      Copied host config destination library before names copied after →
      after.at? location = before.at? location := by
    intro before after names copied isCopied
    obtain ⟨row, writes, places⟩ := isCopied.exists_writes
    apply writes.at?_of_ne
    rintro writing member rfl
    have isPlace := List.mem_map_of_mem (f := Writing.location) member
    rw [places] at isPlace
    rcases List.mem_cons.mp isPlace with isModule | isCopy
    · rw [isModule] at notNim
      exact notNim (endsIn_moduleAddress host destination library)
    · obtain ⟨name, -, isAddress⟩ := List.mem_map.mp isCopy
      rw [← isAddress] at notNim
      exact notNim (endsIn_copyAddress host destination library name)
  intro workspace held
  rcases runOn_bundle_cases host config destination library workspace with
    ⟨result, after, ran, same, -⟩ | ⟨directory, -, -, ⟨after, ran, isCopied⟩ |
      ⟨failure, after, copied, broken, rest, ran, -, isCopied, -⟩⟩
  · rw [ran, same]
    exact held
  · rw [ran, copiedKeeps isCopied]
    exact held
  · rw [ran, copiedKeeps isCopied]
    exact held

/-- The files of a bundle that is returned. -/
theorem endsIn_of_returns_bundle
    {made : Bundle}
    (returns : (bundle host config destination library).Returns (some made)) :
    ∀ address ∈ made.module :: made.files, address.location.EndsIn nimEnding := by
  obtain ⟨workspace, after, done⟩ := returns
  obtain ⟨directory, -, -, rfl, -⟩ := copied_of_runOn_bundle done
  simp only [List.forall_mem_cons, List.forall_mem_map]
  exact ⟨endsIn_moduleAddress host destination library,
    fun name _ => endsIn_copyAddress host destination library name⟩

end Library

namespace Dependencies

/-- All files that are reachable from a plain location are plain. -/
theorem plain_of_reaches
    {files : FileSystem}
    {imports : Location → Except Failure (List String)}
    {entry file : Location}
    (plain : entry.Plain)
    (reaches : Reaches files imports entry file) :
    file.Plain := by
  induction reaches with
  | refl =>
      exact plain
  | tail _ uses inductionHypothesis =>
      obtain ⟨paths, -, path, -, rfl, -⟩ := uses
      exact inductionHypothesis.parent.follow path

/-- The files that a search finds are reachable. -/
theorem reaches_of_find
    {normalizer : Normalizer}
    {files : FileSystem}
    {entry file : Location}
    {found : List Location}
    (discovered : (find normalizer files entry).1 = .ok found)
    (member : file ∈ found) :
    Reaches files (importsOf normalizer files) entry file := by
  rcases find_outcome normalizer files entry with
    ⟨all, listed, complete⟩ | ⟨failure, culprit, failed, -⟩
  · cases discovered.symm.trans listed
    exact ((complete.listed file).mp member).1
  · cases discovered.symm.trans failed

end Dependencies

namespace Build

open Work (Keeps)

variable {host : Host} {config : Config} {path library : String} {location source : Location}
  {entry : Entry}

/-- The name of the Nim file of a source. -/
def outputName (source : Location) : String :=
  dropEnding sourceEnding source.name ++ nimEnding

/-- An output stands beside its source, or in the directory of the configuration. -/
theorem location_outputAddress
    (host : Host)
    (config : Config)
    (source : Location) :
    (outputAddress host config source).location =
      if config.output = "" then source.parent.follow (outputName source)
      else host.working.follow (CleanPath.join config.output (outputName source)) := by
  unfold outputAddress outputName
  split <;> simp only [Address.ofLocation, Address.inDirectory, Address.ofPath]

/-- Beside its source the Nim file has the directory of the source. -/
theorem location_outputAddress_beside
    (beside : config.output = "")
    (isName : Location.IsName (outputName source)) :
    (outputAddress host config source).location = source.parent ++ [outputName source] := by
  rw [location_outputAddress, if_pos beside, Location.follow_of_isName isName]

/-- An output has a plain location if its source has. -/
theorem plain_outputAddress
    (plain : host.working.Plain)
    (plainSource : source.Plain) :
    (outputAddress host config source).location.Plain := by
  rw [location_outputAddress]
  split
  · exact plainSource.parent.follow _
  · exact plain.follow _

/-- An output is a Nim file. -/
theorem endsIn_outputAddress
    (host : Host)
    (config : Config)
    (source : Location) :
    (outputAddress host config source).location.EndsIn nimEnding := by
  rw [location_outputAddress]
  split
  · exact Location.endsIn_follow nimEnding_unbroken nimEnding_marked _ _
  · exact Location.endsIn_follow_join nimEnding_unbroken nimEnding_marked _ _ _

/-- Making the output directory adds directories and nothing else. -/
theorem widened_makeOutputDirectory
    (host : Host)
    (config : Config)
    (workspace : Workspace) :
    workspace.files.Widened ((makeOutputDirectory host config).runOn workspace).2.files := by
  have ran : Work.files.runOn workspace = (.ok workspace.files, workspace) := rfl
  unfold makeOutputDirectory
  split
  · rw [Work.runOn_bind_ok ran]
    have changed : (Work.setFiles (workspace.files.makeDirectories host.working
        config.output).1).runOn workspace = (.ok (), { workspace with
          files := (workspace.files.makeDirectories host.working config.output).1 }) := rfl
    dsimp only
    rw [Work.runOn_bind_ok changed]
    split <;> exact FileSystem.widened_makeDirectories _ _ _
  · exact .refl _

/-- Generating the outputs keeps everything that is no Nim file. -/
theorem buildFiles_keeps
    (sources : List Location)
    (notNim : ¬location.EndsIn nimEnding) :
    (buildFiles host config library sources).Keeps location entry := by
  unfold buildFiles
  split
  · exact .of_files fun _ => rfl
  · refine .mapM fun source _ => .of_follows (buildFile_follows host config library source) ?_
    rintro rfl
    exact notNim (endsIn_outputAddress host config source)

/-- Where the binary of an entry goes. -/
def binaryLocation (host : Host) (config : Config) (entry : Location) : Location :=
  Compile.binaryLocation config (outputAddress host config entry) entry.parent

/-- Compiling the entry keeps what the compiler spares, except for the binary. -/
theorem compileEntry_keeps
    {start : Location}
    {dependencies : List Output}
    (plain : host.working.Plain)
    (plainStart : start.Plain)
    (plainOthers : ∀ output ∈ dependencies, output.file.location.Plain)
    (spared : config.compile = true → host.Spares location)
    (differs : config.compile = true → location ≠ binaryLocation host config start) :
    (compileEntry host config library start dependencies).Keeps location entry := by
  unfold compileEntry
  split
  · rename_i isCompiled
    refine Keeps.bind (.of_files fun _ => rfl) fun files _ => ?_
    refine Compile.compile_keeps ?_ (spared isCompiled) (differs isCompiled)
    simp only [List.forall_mem_cons, List.forall_mem_append, List.forall_mem_map]
    refine ⟨plain_outputAddress plain plainStart, plainOthers, ?_⟩
    intro address member
    unfold Library.bundledFiles at member
    dsimp only at member
    split at member
    · rcases List.mem_cons.mp member with rfl | isCopy
      · exact Library.plain_moduleAddress plain _ _
      · obtain ⟨copy, -, rfl⟩ := List.mem_map.mp isCopy
        exact plain.follow copy
    · cases member
  · exact .of_files fun _ => rfl

/-- All sources of a build are plain. -/
theorem plain_allSources
    {files : FileSystem}
    {found : List Location}
    (plain : host.working.Plain)
    (discovered : (Dependencies.find config.normalizer files
      (host.working.follow path)).1 = .ok found)
    (member : source ∈ allSources host path found) :
    source.Plain := by
  rcases List.mem_append.mp member with isFound | isEntry
  · exact Dependencies.plain_of_reaches (plain.follow path)
      (Dependencies.reaches_of_find discovered isFound)
  · rw [List.mem_singleton.mp isEntry]
    exact plain.follow path

/-- The outputs of the dependencies of a build are plain. -/
theorem plain_outputs
    {files : FileSystem}
    {found : List Location}
    (plain : host.working.Plain)
    (discovered : (Dependencies.find config.normalizer files
      (host.working.follow path)).1 = .ok found) :
    ∀ made ∈ ((allSources host path found).map (output host config)).dropLast,
      made.file.location.Plain := by
  intro made member
  obtain ⟨source, isSource, rfl⟩ := List.mem_map.mp (List.mem_of_mem_dropLast member)
  exact plain_outputAddress plain (plain_allSources plain discovered isSource)

/-- A build keeps whatever is no Nim file and not its binary. -/
theorem build_keeps
    (plain : host.working.Plain)
    (notNim : ¬location.EndsIn nimEnding)
    (spared : config.compile = true → host.Spares location)
    (differs : config.compile = true →
      location ≠ binaryLocation host config (host.working.follow path)) :
    (build host config path).Keeps location entry := by
  unfold build
  refine Keeps.bind (.of_files fun workspace => ?_) fun found isFound => ?_
  · rw [Dependencies.runOn_discover]
  refine Keeps.bind ?_ fun _ _ => ?_
  · intro workspace held
    exact (widened_makeOutputDirectory host config workspace).at?_eq_some held
  refine (buildFiles_keeps _ notNim).bind fun outputs isOutputs => ?_
  refine (Library.bundle_keeps notNim).bind fun _ _ => ?_
  refine (compileEntry_keeps plain (plain.follow path) ?_ spared differs).bind
    fun _ _ => .of_files fun _ => rfl
  obtain ⟨workspace, searched, ranSearch⟩ := isFound
  rw [Dependencies.runOn_discover] at ranSearch
  obtain ⟨prepared, built, ranFiles⟩ := isOutputs
  obtain ⟨-, rfl, -⟩ := made_of_runOn_buildFiles ranFiles
  exact plain_outputs plain (Prod.mk.inj ranSearch).1

end Build

end FrenchNim
