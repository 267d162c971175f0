import FrenchNim.Proofs.Project.Recipes

namespace FrenchNim.Library

/-!
# What a bundling leaves behind

The library module is written first and the copies of the library sources
behind it, one by one. A bundling that fails at one of them leaves the module
and the copies before it. From then on the module is there, so that no later
bundling under its name writes anything.
-/

/-- The directory of the library sources is found. -/
structure Found (host : Host) (config : Config) (files : FileSystem) (directory : Location) :
    Prop where
  named : config.libraryDirectory ≠ ""
  located : files.locate host.working config.libraryDirectory = .ok directory
  isDirectory : files.at? directory = some .directory

/-- The library sources in a directory, in the order in which they are copied. -/
def sources (files : FileSystem) (directory : Location) : List String :=
  sourcesEnding files directory nimEnding ++ sourcesEnding files directory sourceEnding

/-- The address of the copy of a library source. -/
def copyAddress (host : Host) (destination library source : String) : Address :=
  .inDirectory host.working destination (copyName library source ++ nimEnding)

/-- The code of the copy of a library source. -/
def copyCode (config : Config) (source : String) (content : Bytes) : Option Bytes :=
  if CleanPath.extension source = nimEnding then
    some content
  else
    Project.nimCode config.normalizer standardLibrary content

/-- How the copy of a library source is made. -/
def recipe (host : Host) (config : Config) (destination library source : String) : Recipe :=
  ⟨(Address.inDirectory host.working config.libraryDirectory source).location,
    (copyAddress host destination library source).location, copyCode config source⟩

/-- The file of the library module that includes the copies of the given sources. -/
def moduleWriting (host : Host) (destination library : String) (names : List String) : Writing :=
  ⟨(moduleAddress host destination library).location, textBytes (moduleText library names)⟩

variable {host : Host} {config : Config} {destination library : String} {files : FileSystem}
  {directory : Location} {workspace : Workspace}

theorem place_recipe
    (host : Host)
    (config : Config)
    (destination library source : String) :
    (recipe host config destination library source).place =
      (copyAddress host destination library source).location := by
  rw [recipe]

theorem extension_of_mem_sourcesEnding
    {ending name : String}
    (member : name ∈ sourcesEnding files directory ending) :
    CleanPath.extension name = ending := by
  unfold sourcesEnding at member
  have accepted := (List.mem_filter.mp member).2
  simp only [Bool.and_eq_true, decide_eq_true_eq] at accepted
  exact accepted.1

/-! ## Single steps -/

/-- The copy of a source whose content is known is written, or nothing changes. -/
theorem runOn_writeCopy
    (host : Host)
    (destination library source : String)
    (content : Bytes)
    (workspace : Workspace) :
    (∃ after, (writeCopy host destination library source content).runOn workspace =
        (.ok (copyAddress host destination library source), after) ∧
      workspace.files.write (copyAddress host destination library source).location content false =
        .ok after.files) ∨
    ∃ failure, (writeCopy host destination library source content).runOn workspace =
        (.error failure, workspace) ∧
      ¬workspace.files.Writable (copyAddress host destination library source).location := by
  unfold writeCopy
  by_cases writable :
      workspace.files.Writable (copyAddress host destination library source).location
  · obtain ⟨changed, written⟩ := writable.write content false
    rw [copyAddress] at written
    rw [Work.runOn_bind_ok (Work.runOn_write_ok written)]
    exact .inl ⟨_, rfl, written⟩
  · obtain ⟨reason, refused⟩ := Work.runOn_write_error writable
    rw [copyAddress] at refused
    rw [Work.runOn_bind_ok refused]
    exact .inr ⟨_, rfl, writable⟩

theorem copyNim_follows
    {source : String}
    (isNim : CleanPath.extension source = nimEnding) :
    (copyNim host config destination library source).Follows
      (recipe host config destination library source)
      (copyAddress host destination library source) := by
  intro workspace
  have ran : (Work.read (.inDirectory host.working config.libraryDirectory source)).runOn
      workspace = (.ok ((workspace.files.read (Address.inDirectory host.working
        config.libraryDirectory source).location).mapError (·.message (Address.inDirectory
        host.working config.libraryDirectory source).text)), workspace) := rfl
  unfold copyNim
  rw [Work.runOn_bind_ok ran]
  cases stored : workspace.files.read
      (Address.inDirectory host.working config.libraryDirectory source).location with
  | error error =>
      refine .inr ⟨_, workspace, rfl, rfl, .inl ?_⟩
      simp [Recipe.made, recipe, stored, Except.toOption]
  | ok content =>
      have code : (recipe host config destination library source).made workspace.files =
          some content := by
        simp [Recipe.made, recipe, stored, Except.toOption, copyCode, isNim]
      rcases runOn_writeCopy host destination library source content workspace with
        ⟨after, written, changed⟩ | ⟨failure, refused, unwritable⟩
      · exact .inl ⟨content, after, written, code, changed⟩
      · exact .inr ⟨failure, workspace, refused, rfl, .inr unwritable⟩

theorem copyFrench_follows
    {source : String}
    (isFrench : CleanPath.extension source = sourceEnding) :
    (copyFrench host config destination library source).Follows
      (recipe host config destination library source)
      (copyAddress host destination library source) := by
  intro workspace
  have notNim : CleanPath.extension source ≠ nimEnding := by
    rw [isFrench]
    decide
  have sameCode : copyCode config source =
      Project.nimCode config.normalizer standardLibrary := by
    funext content
    rw [copyCode, if_neg notNim]
  unfold copyFrench
  rcases Project.runOn_transpileFile config.normalizer standardLibrary
      (.inDirectory host.working config.libraryDirectory source) workspace with
    ⟨generated, ran, code⟩ | ⟨failure, ran, noCode⟩
  · rw [← sameCode] at code
    rw [Work.runOn_bind_ok ran]
    rcases runOn_writeCopy host destination library source (textBytes generated) workspace with
      ⟨after, written, changed⟩ | ⟨failure, refused, unwritable⟩
    · exact .inl ⟨textBytes generated, after, written, code, changed⟩
    · exact .inr ⟨failure, workspace, refused, rfl, .inr unwritable⟩
  · rw [← sameCode] at noCode
    exact .inr ⟨failure, workspace, Work.runOn_bind_error ran, rfl, .inl noCode⟩

/-! ## Whole bundlings -/

/-- A bundling has written the module for all names and the copies of some of them. -/
def Copied (host : Host) (config : Config) (destination library : String)
    (before : FileSystem) (names copied : List String) (after : FileSystem) : Prop :=
  ∃ opened, before.write (moduleAddress host destination library).location
      (textBytes (moduleText library names)) false = .ok opened ∧
    Recipe.Made opened (copied.map (recipe host config destination library)) after

/-- The module and the copies are written, up to the first source that fails. -/
theorem runOn_writeBundle
    (host : Host)
    (config : Config)
    (directory : Location)
    (destination library : String)
    (workspace : Workspace) :
    (∃ failure, (writeBundle host config directory destination library
          (moduleAddress host destination library)).runOn workspace = (.error failure, workspace) ∧
      ¬workspace.files.Writable (moduleAddress host destination library).location) ∨
    (∃ after, (writeBundle host config directory destination library
          (moduleAddress host destination library)).runOn workspace =
        (.ok ⟨moduleAddress host destination library,
          (sources workspace.files directory).map (copyAddress host destination library)⟩, after) ∧
      Copied host config destination library workspace.files (sources workspace.files directory)
        (sources workspace.files directory) after.files) ∨
    ∃ failure after, ∃ copied broken rest,
      (writeBundle host config directory destination library
          (moduleAddress host destination library)).runOn workspace = (.error failure, after) ∧
      sources workspace.files directory = copied ++ broken :: rest ∧
      Copied host config destination library workspace.files (sources workspace.files directory)
        copied after.files ∧
      (recipe host config destination library broken).Fails after.files := by
  have isNim : ∀ name ∈ sourcesEnding workspace.files directory nimEnding,
      (copyNim host config destination library name).Follows
        (recipe host config destination library name)
        (copyAddress host destination library name) :=
    fun name member => copyNim_follows (extension_of_mem_sourcesEnding member)
  have isFrench : ∀ name ∈ sourcesEnding workspace.files directory sourceEnding,
      (copyFrench host config destination library name).Follows
        (recipe host config destination library name)
        (copyAddress host destination library name) :=
    fun name member => copyFrench_follows (extension_of_mem_sourcesEnding member)
  have ran : Work.files.runOn workspace = (.ok workspace.files, workspace) := rfl
  unfold writeBundle
  rw [Work.runOn_bind_ok ran]
  dsimp only
  by_cases writable : workspace.files.Writable (moduleAddress host destination library).location
  · right
    obtain ⟨opened, written⟩ := writable.write
      (textBytes (moduleText library (sources workspace.files directory))) false
    rw [← sources, Work.runOn_bind_ok (Work.runOn_write_ok written)]
    dsimp only
    -- The Nim files are copied first, so a French file fails behind all of them.
    rcases Work.runOn_mapM isNim { workspace with files := opened } with
      ⟨next, ranNim, madeNim⟩ |
        ⟨failure, next, copied, broken, rest, ranNim, split, madeNim, fails⟩
    · rw [Work.runOn_bind_ok ranNim]
      rcases Work.runOn_mapM isFrench next with
        ⟨after, ranFrench, madeFrench⟩ |
          ⟨failure, after, copied, broken, rest, ranFrench, split, madeFrench, fails⟩
      · left
        rw [Work.runOn_bind_ok ranFrench, ← List.map_append]
        refine ⟨_, rfl, ⟨opened, written, ?_⟩⟩
        rw [sources, List.map_append]
        exact madeNim.append madeFrench
      · right
        rw [Work.runOn_bind_error ranFrench]
        refine ⟨failure, after, sourcesEnding workspace.files directory nimEnding ++ copied, broken,
          rest, rfl, ?_, ⟨opened, written, ?_⟩, fails⟩
        · rw [sources, split, List.append_assoc]
        · rw [List.map_append]
          exact madeNim.append madeFrench
    · right
      rw [Work.runOn_bind_error ranNim]
      refine ⟨failure, next, copied, broken,
        rest ++ sourcesEnding workspace.files directory sourceEnding, rfl, ?_,
        ⟨opened, written, madeNim⟩, fails⟩
      rw [sources, split, List.append_assoc, List.cons_append]
  · left
    obtain ⟨reason, refused⟩ := Work.runOn_write_error writable
    rw [Work.runOn_bind_ok refused]
    exact ⟨_, rfl, writable⟩

/-- What is found behind a path, with its location. -/
theorem listed_eq_ok_iff
    {working place : Location}
    {path : String}
    {entry : Entry} :
    (do
      let location ← files.locate working path
      let held ← files.look location
      return (location, held) : Except FileFault (Location × Entry)) = .ok (place, entry) ↔
      files.locate working path = .ok place ∧ files.at? place = some entry := by
  rw [← FileSystem.look_eq_ok_iff]
  cases files.locate working path with
  | error fault =>
      simp [bind, Except.bind]
  | ok location =>
      cases looked : files.look location with
      | error fault =>
          simp only [bind, Except.bind, looked, reduceCtorEq, Except.ok.injEq, false_iff]
          rintro ⟨rfl, seen⟩
          cases looked.symm.trans seen
      | ok held =>
          simp only [bind, Except.bind, looked, pure, Except.pure, Except.ok.injEq, Prod.mk.injEq]
          constructor
          · rintro ⟨rfl, rfl⟩
            exact ⟨rfl, looked⟩
          · rintro ⟨rfl, seen⟩
            exact ⟨rfl, Except.ok.inj (looked.symm.trans seen)⟩

/-- Where no library is named, nothing is done. -/
theorem runOn_bundle_of_unnamed
    (destination library : String)
    (workspace : Workspace)
    (unnamed : config.libraryDirectory = "") :
    (bundle host config destination library).runOn workspace = (.ok none, workspace) := by
  unfold bundle
  rw [if_pos unnamed]
  rfl

/-- Without its sources a library is not bundled, and no file changes. -/
theorem runOn_bundle_of_missing
    (destination library : String)
    (missing : ∀ directory, ¬Found host config workspace.files directory) :
    ((bundle host config destination library).runOn workspace).2.files = workspace.files ∧
      ∀ made, ((bundle host config destination library).runOn workspace).1 ≠ .ok (some made) := by
  by_cases named : config.libraryDirectory = ""
  · rw [runOn_bundle_of_unnamed destination library workspace named]
    exact ⟨rfl, fun made same => by cases same⟩
  · have ran : Work.files.runOn workspace = (.ok workspace.files, workspace) := rfl
    unfold bundle
    rw [if_neg named, Work.runOn_bind_ok ran]
    dsimp only
    split
    · exact ⟨rfl, fun made same => by cases same⟩
    · exact ⟨rfl, fun made same => by cases same⟩
    · exact ⟨rfl, fun made same => by cases same⟩
    · rename_i directory listed
      obtain ⟨located, isDirectory⟩ := listed_eq_ok_iff.mp listed
      exact (missing directory ⟨named, located, isDirectory⟩).elim

/-- A library is not bundled if its module is there, and no file changes. -/
theorem runOn_bundle_of_held
    (found : Found host config workspace.files directory)
    (held : workspace.files.holds (moduleAddress host destination library).location = true) :
    ∃ after, (bundle host config destination library).runOn workspace = (.ok none, after) ∧
      after.files = workspace.files := by
  have ran : Work.files.runOn workspace = (.ok workspace.files, workspace) := rfl
  unfold bundle
  rw [if_neg found.named, Work.runOn_bind_ok ran]
  dsimp only
  rw [listed_eq_ok_iff.mpr ⟨found.located, found.isDirectory⟩]
  dsimp only
  rw [if_pos held]
  exact ⟨_, rfl, rfl⟩

/-- A library is bundled if its sources are found and its module is not there. -/
theorem runOn_bundle_of_free
    (found : Found host config workspace.files directory)
    (free : workspace.files.holds (moduleAddress host destination library).location = false) :
    (bundle host config destination library).runOn workspace =
      (writeBundle host config directory destination library
        (moduleAddress host destination library) >>= fun made => pure (some made)).runOn
          workspace := by
  have ran : Work.files.runOn workspace = (.ok workspace.files, workspace) := rfl
  unfold bundle
  rw [if_neg found.named, Work.runOn_bind_ok ran]
  dsimp only
  rw [listed_eq_ok_iff.mpr ⟨found.located, found.isDirectory⟩]
  dsimp only
  rw [if_neg (by simp [free])]

/-- What becomes of a bundling. -/
theorem runOn_bundle_cases
    (host : Host)
    (config : Config)
    (destination library : String)
    (workspace : Workspace) :
    (∃ result after, (bundle host config destination library).runOn workspace =
        (result, after) ∧ after.files = workspace.files ∧ (∀ made, result ≠ .ok (some made)) ∧
      ∀ directory, Found host config workspace.files directory →
        result = .ok none ∨
          ¬workspace.files.Writable (moduleAddress host destination library).location) ∨
    ∃ directory, Found host config workspace.files directory ∧
      workspace.files.holds (moduleAddress host destination library).location = false ∧
      ((∃ after, (bundle host config destination library).runOn workspace =
          (.ok (some ⟨moduleAddress host destination library,
            (sources workspace.files directory).map (copyAddress host destination library)⟩),
            after) ∧
        Copied host config destination library workspace.files (sources workspace.files directory)
          (sources workspace.files directory) after.files) ∨
      ∃ failure after, ∃ copied broken rest,
        (bundle host config destination library).runOn workspace = (.error failure, after) ∧
        sources workspace.files directory = copied ++ broken :: rest ∧
        Copied host config destination library workspace.files (sources workspace.files directory)
          copied after.files ∧
        (recipe host config destination library broken).Fails after.files) := by
  by_cases missing : ∀ directory, ¬Found host config workspace.files directory
  · obtain ⟨same, unmade⟩ := runOn_bundle_of_missing destination library missing
    exact .inl ⟨_, _, rfl, same, unmade, fun directory found => (missing directory found).elim⟩
  · obtain ⟨directory, found⟩ := not_forall_not.mp missing
    cases held : workspace.files.holds (moduleAddress host destination library).location with
    | true =>
        obtain ⟨after, ran, same⟩ := runOn_bundle_of_held found held
        exact .inl ⟨_, after, ran, same, by simp, fun _ _ => .inl rfl⟩
    | false =>
        rw [runOn_bundle_of_free found held]
        rcases runOn_writeBundle host config directory destination library workspace with
          ⟨failure, ran, unwritable⟩ | ⟨after, ran, copied⟩ |
            ⟨failure, after, copied, broken, rest, ran, split, isCopied, fails⟩
        · rw [Work.runOn_bind_error ran]
          exact .inl ⟨_, workspace, rfl, rfl, by simp, fun _ _ => .inr unwritable⟩
        · rw [Work.runOn_bind_ok ran]
          exact .inr ⟨directory, found, rfl, .inl ⟨after, rfl, copied⟩⟩
        · rw [Work.runOn_bind_error ran]
          exact .inr ⟨directory, found, rfl,
            .inr ⟨failure, after, copied, broken, rest, rfl, split, isCopied, fails⟩⟩

/-- A bundling that makes a bundle has found the library and written all of it. -/
theorem copied_of_runOn_bundle
    {made : Bundle}
    {after : Workspace}
    (done : (bundle host config destination library).runOn workspace = (.ok (some made), after)) :
    ∃ directory, Found host config workspace.files directory ∧
      workspace.files.holds (moduleAddress host destination library).location = false ∧
      made = ⟨moduleAddress host destination library,
        (sources workspace.files directory).map (copyAddress host destination library)⟩ ∧
      Copied host config destination library workspace.files (sources workspace.files directory)
        (sources workspace.files directory) after.files := by
  rcases runOn_bundle_cases host config destination library workspace with
    ⟨result, reached, ran, -, unmade, -⟩ | ⟨directory, found, free, ⟨reached, ran, isCopied⟩ |
      ⟨failure, reached, _, _, _, ran, -⟩⟩
  · obtain ⟨isResult, -⟩ := Prod.mk.inj (done.symm.trans ran)
    exact (unmade made isResult.symm).elim
  · obtain ⟨isResult, rfl⟩ := Prod.mk.inj (done.symm.trans ran)
    exact ⟨directory, found, free, Option.some.inj (Except.ok.inj isResult), isCopied⟩
  · obtain ⟨isResult, -⟩ := Prod.mk.inj (done.symm.trans ran)
    cases isResult

/-- A bundling that makes no bundle has changed no file. -/
theorem files_of_runOn_bundle
    {after : Workspace}
    (done : (bundle host config destination library).runOn workspace = (.ok none, after)) :
    after.files = workspace.files := by
  rcases runOn_bundle_cases host config destination library workspace with
    ⟨result, reached, ran, same, -⟩ | ⟨directory, -, -, ⟨reached, ran, -⟩ |
      ⟨failure, reached, _, _, _, ran, -⟩⟩
  · obtain ⟨-, rfl⟩ := Prod.mk.inj (done.symm.trans ran)
    exact same
  · obtain ⟨isResult, -⟩ := Prod.mk.inj (done.symm.trans ran)
    cases isResult
  · obtain ⟨isResult, -⟩ := Prod.mk.inj (done.symm.trans ran)
    cases isResult

/-! ## What was written -/

namespace Copied

variable {before after : FileSystem} {names copied : List String}

theorem exists_writes
    (isCopied : Copied host config destination library before names copied after) :
    ∃ row, Writes before row after ∧
      row.map (·.location) = (moduleAddress host destination library).location ::
        copied.map (fun name => (copyAddress host destination library name).location) := by
  obtain ⟨opened, written, made⟩ := isCopied
  obtain ⟨row, writes, places⟩ := made.exists_writes
  refine ⟨_, .write written writes, ?_⟩
  rw [List.map_cons, places, List.map_map]
  rfl

/-- The module is there as soon as the copying begins. -/
theorem holds_module
    (isCopied : Copied host config destination library before names copied after) :
    after.holds (moduleAddress host destination library).location = true := by
  obtain ⟨opened, written, made⟩ := isCopied
  obtain ⟨row, writes, -⟩ := made.exists_writes
  exact (Writes.write written writes).holds_of_mem List.mem_cons_self

/-- If no library source is written, all copies have the codes of the tree before. -/
theorem writes_of_apart
    (isCopied : Copied host config destination library before names copied after)
    (unwritten : ∀ name ∈ copied, (recipe host config destination library name).origin ≠
      (moduleAddress host destination library).location)
    (apart : Recipe.Apart (copied.map (recipe host config destination library))) :
    Writes before
        (moduleWriting host destination library names ::
          copied.map fun name => (recipe host config destination library name).writing before)
        after ∧
      ∀ name ∈ copied, ∃ code,
        (recipe host config destination library name).made before = some code := by
  obtain ⟨opened, written, made⟩ := isCopied
  have same : ∀ name ∈ copied, (recipe host config destination library name).made opened =
      (recipe host config destination library name).made before := by
    intro name member
    exact Recipe.made_eq_of_at? (FileSystem.at?_write_of_ne written (unwritten name member))
  have sameRow : copied.map (fun name =>
        (recipe host config destination library name).writing opened) =
      copied.map fun name => (recipe host config destination library name).writing before := by
    apply List.map_congr_left
    intro name member
    rw [Recipe.writing, Recipe.writing, same name member]
  obtain ⟨writes, codes⟩ := made.writes_of_apart apart
  rw [List.map_map] at writes
  rw [List.forall_mem_map] at codes
  refine ⟨?_, fun name member => ?_⟩
  · rw [← sameRow]
    exact .write written writes
  · rw [← same name member]
    exact codes name member

end Copied

/-- The module is not there, and all library sources can be copied to a destination. -/
structure Ready (host : Host) (config : Config) (destination library : String)
    (files : FileSystem) (directory : Location) : Prop where
  found : Found host config files directory
  free : files.holds (moduleAddress host destination library).location = false
  writable : files.Writable (moduleAddress host destination library).location
  copyable : ∀ name ∈ sources files directory,
    ¬(recipe host config destination library name).Fails files
  unwritten : ∀ name ∈ sources files directory,
    (recipe host config destination library name).origin ≠
      (moduleAddress host destination library).location
  apart : Recipe.Apart ((sources files directory).map (recipe host config destination library))

/-- A bundling that is ready writes the module and all copies. -/
theorem runOn_bundle_of_ready
    (ready : Ready host config destination library workspace.files directory) :
    ∃ after, (bundle host config destination library).runOn workspace =
        (.ok (some ⟨moduleAddress host destination library,
          (sources workspace.files directory).map (copyAddress host destination library)⟩),
          after) ∧
      Writes workspace.files
        (moduleWriting host destination library (sources workspace.files directory) ::
          (sources workspace.files directory).map fun name =>
            (recipe host config destination library name).writing workspace.files)
        after.files := by
  rw [runOn_bundle_of_free ready.found ready.free]
  rcases runOn_writeBundle host config directory destination library workspace with
    ⟨failure, ran, unwritable⟩ | ⟨after, ran, isCopied⟩ |
      ⟨failure, after, copied, broken, rest, ran, split, isCopied, fails⟩
  · exact (unwritable ready.writable).elim
  · rw [Work.runOn_bind_ok ran]
    exact ⟨after, rfl, (isCopied.writes_of_apart ready.unwritten ready.apart).1⟩
  · obtain ⟨row, writes, places⟩ := isCopied.exists_writes
    have isBroken : broken ∈ sources workspace.files directory := by simp [split]
    refine (Recipe.not_fails_of_writes (ready.copyable broken isBroken) writes ?_ fails).elim
    -- Neither the module nor an earlier copy is the source that fails.
    intro writing isWriting
    have isPlace := List.mem_map_of_mem (f := Writing.location) isWriting
    rw [places] at isPlace
    rcases List.mem_cons.mp isPlace with isModule | isCopy
    · rw [isModule]
      exact (ready.unwritten broken isBroken).symm
    · obtain ⟨name, member, hasPlace⟩ := List.mem_map.mp isCopy
      have isSource : name ∈ sources workspace.files directory := by simp [split, member]
      rw [← hasPlace]
      exact (ready.apart _ (List.mem_map_of_mem isBroken) _ (List.mem_map_of_mem isSource)).symm

/--
A bundling that fails has changed nothing, or it has written the module and the
copies in front of a source that fails. Either way every later bundling writes
nothing as long as the module is there, whatever became of the source. When the
module is not there and all sources can be copied, everything is written.
-/
theorem bundle_failure_leaves_module
    {failure : Failure}
    {after : Workspace}
    (failed : (bundle host config destination library).runOn workspace = (.error failure, after)) :
    ((after.files = workspace.files ∧
        ∀ directory, Found host config workspace.files directory →
          ¬workspace.files.Writable (moduleAddress host destination library).location) ∨
      ∃ directory, ∃ copied broken rest,
        Found host config workspace.files directory ∧
        sources workspace.files directory = copied ++ broken :: rest ∧
        Copied host config destination library workspace.files (copied ++ broken :: rest) copied
          after.files ∧
        (recipe host config destination library broken).Fails after.files ∧
        workspace.files.holds (moduleAddress host destination library).location = false ∧
        after.files.holds (moduleAddress host destination library).location = true) ∧
    ∀ later directory, Found host config later.files directory →
      (later.files.holds (moduleAddress host destination library).location = true →
        ∃ logged, (bundle host config destination library).runOn later = (.ok none, logged) ∧
          logged.files = later.files) ∧
      (Ready host config destination library later.files directory →
        ∃ logged, (bundle host config destination library).runOn later =
            (.ok (some ⟨moduleAddress host destination library,
              (sources later.files directory).map (copyAddress host destination library)⟩),
              logged) ∧
          Writes later.files
            (moduleWriting host destination library (sources later.files directory) ::
              (sources later.files directory).map fun name =>
                (recipe host config destination library name).writing later.files)
            logged.files) := by
  refine ⟨?_, fun later place isFound => ⟨runOn_bundle_of_held isFound, runOn_bundle_of_ready⟩⟩
  rcases runOn_bundle_cases host config destination library workspace with
    ⟨result, same, ran, unchanged, -, reasons⟩ |
      ⟨directory, found, free, ⟨done, ran, -⟩ |
        ⟨reason, stopped, copied, broken, rest, ran, split, isCopied, fails⟩⟩
  · left
    cases failed.symm.trans ran
    refine ⟨unchanged, fun directory found => ?_⟩
    rcases reasons directory found with isNone | unwritable
    · cases isNone
    · exact unwritable
  · cases failed.symm.trans ran
  · right
    cases failed.symm.trans ran
    rw [split] at isCopied
    exact ⟨directory, copied, broken, rest, found, split, isCopied, fails, free,
      isCopied.holds_module⟩

/-! ## A library with a broken source -/

/-- A library of one French source with the given content. -/
def smallLibrary (content : Bytes) : FileSystem :=
  ⟨[(["lib"], .directory), (["lib", "b.fr"], .file content false)]⟩

/-- The settings for a bundling of the small library. -/
def smallConfig : Config :=
  { Config.default with normalize := false, libraryDirectory := "/lib" }

/-- The small library is found wherever its directory is. -/
theorem found_smallLibrary
    (isDirectory : files.at? ["lib"] = some .directory) :
    Found idleHost smallConfig files ["lib"] := by
  have parts : pathParts "/lib" = ["", "lib"] := by decide
  have rooted : isRooted "/lib" = true := by decide
  have root : files.look [] = .ok .directory := FileSystem.look_eq_ok_iff.mpr files.at?_root
  refine ⟨by decide, ?_, isDirectory⟩
  simp [FileSystem.locate, smallConfig, FileSystem.walk, parts, root, rooted, Location.step]

/-- The bundling of a source that does not parse leaves the module and nothing else. -/
theorem runOn_bundle_smallLibrary :
    ∃ failure after, (bundle idleHost smallConfig "/" "std").runOn ⟨smallLibrary [0x28], []⟩ =
        (.error failure, after) ∧
      ∃ content, (smallLibrary [0x28]).write ["std.nim"] content false = .ok after.files := by
  have found := found_smallLibrary (show (smallLibrary [0x28]).at? ["lib"] = _ from rfl)
  have listed : sources (smallLibrary [0x28]) ["lib"] = ["b.fr"] := by
    cbv
  have noCode : Project.nimCode none standardLibrary [0x28] = none := by
    cbv
  rw [runOn_bundle_of_free found rfl]
  rcases runOn_writeBundle idleHost smallConfig ["lib"] "/" "std" ⟨smallLibrary [0x28], []⟩ with
    ⟨failure, -, unwritable⟩ | ⟨after, -, opened, written, made⟩ |
      ⟨failure, after, copied, broken, rest, ran, split, ⟨opened, written, made⟩, -⟩
  · exact (unwritable (.inr ⟨rfl, rfl⟩)).elim
  · rw [listed] at made
    cases made with
    | follow code _ _ =>
        have unread := FileSystem.at?_write_of_ne written
          (show ["lib", "b.fr"] ≠ (moduleAddress idleHost "/" "std").location by decide)
        cases (code.symm.trans (Recipe.made_eq_of_at? unread)).trans noCode
  · rw [Work.runOn_bind_error ran]
    rw [listed] at split
    cases copied with
    | nil =>
        cases made
        exact ⟨failure, after, rfl, _, written⟩
    | cons first others =>
        simp at split

/-- The bundling of the small library fails behind its module, which then stays in the way. -/
theorem bundle_failure_leaves_module_smallLibrary :
    ∃ failure after, (bundle idleHost smallConfig "/" "std").runOn ⟨smallLibrary [0x28], []⟩ =
        (.error failure, after) ∧
      after.files.holds (moduleAddress idleHost "/" "std").location = true ∧
      ∀ later directory, Found idleHost smallConfig later.files directory →
        later.files.holds (moduleAddress idleHost "/" "std").location = true →
        ∃ logged, (bundle idleHost smallConfig "/" "std").runOn later = (.ok none, logged) ∧
          logged.files = later.files := by
  obtain ⟨failure, after, ran, content, written⟩ := runOn_bundle_smallLibrary
  obtain ⟨⟨-, unwritable⟩ | ⟨_, _, _, _, -, -, -, -, -, held⟩, laterOn⟩ :=
    bundle_failure_leaves_module ran
  · have found := found_smallLibrary (show (smallLibrary [0x28]).at? ["lib"] = _ from rfl)
    exact (unwritable _ found (.inr ⟨rfl, rfl⟩)).elim
  · exact ⟨failure, after, ran, held,
      fun later directory found => (laterOn later directory found).1⟩

/-- When the broken source has become good, a second bundling does not write its copy. -/
theorem bundle_smallLibrary_blocked :
    ∃ failure after, (bundle idleHost smallConfig "/" "std").runOn ⟨smallLibrary [0x28], []⟩ =
        (.error failure, after) ∧
      after.files ≠ smallLibrary [0x28] ∧
      ∃ logged, (bundle idleHost smallConfig "/" "std").runOn
          ⟨after.files.put ["lib", "b.fr"] (.file [] false), []⟩ = (.ok none, logged) ∧
        logged.files.at? ["b_std.nim"] = none := by
  obtain ⟨failure, after, ran, content, written⟩ := runOn_bundle_smallLibrary
  have held : after.files.holds ["std.nim"] = true := by
    rw [FileSystem.holds, FileSystem.at?_write written, if_pos rfl]
    rfl
  have repaired : ∀ location, location ≠ ["lib", "b.fr"] →
      (after.files.put ["lib", "b.fr"] (.file [] false)).at? location = after.files.at? location :=
    fun location differs => by rw [FileSystem.at?_put _ _ _ _ (by decide), if_neg differs]
  have found : Found idleHost smallConfig (after.files.put ["lib", "b.fr"] (.file [] false))
      ["lib"] := by
    apply found_smallLibrary
    rw [repaired _ (by decide)]
    exact FileSystem.at?_write_directory written rfl
  have stillHeld : (after.files.put ["lib", "b.fr"] (.file [] false)).holds
      (moduleAddress idleHost "/" "std").location = true := by
    rw [FileSystem.holds, repaired _ (by decide)]
    exact held
  have blocked : ∃ logged, (bundle idleHost smallConfig "/" "std").runOn
        ⟨after.files.put ["lib", "b.fr"] (.file [] false), []⟩ = (.ok none, logged) ∧
      logged.files = after.files.put ["lib", "b.fr"] (.file [] false) :=
    runOn_bundle_of_held found stillHeld
  obtain ⟨logged, again, same⟩ := blocked
  refine ⟨failure, after, ran, ?_, logged, again, ?_⟩
  · intro unchanged
    rw [unchanged] at held
    cases held
  · rw [same, repaired _ (by decide), FileSystem.at?_write_of_ne written (by decide)]
    rfl

end FrenchNim.Library
