import FrenchNim.Proofs.Emission
import FrenchNim.Proofs.Files.Writing
import FrenchNim.Proofs.Project.Untouched

namespace FrenchNim

/-!
# Generated files

Every generated file is made by one recipe: a file is read, its content becomes
a code, and the code is written to a place. Work on a list of recipes follows
them one after the other. It stops at the first one that fails, and what was
made before stays.
-/

/-- How a file is made from another one. -/
structure Recipe where
  /-- The file that is read. -/
  origin : Location
  /-- The file that is written. -/
  place : Location
  /-- What becomes of the content, if it is good. -/
  code : Bytes → Option Bytes

namespace Recipe

/-- The code that a recipe gives in a file tree. -/
def made (recipe : Recipe) (files : FileSystem) : Option Bytes :=
  (files.read recipe.origin).toOption.bind recipe.code

/-- The recipe cannot be followed in a file tree. -/
def Fails (recipe : Recipe) (files : FileSystem) : Prop :=
  recipe.made files = none ∨ ¬files.Writable recipe.place

/-- The file that is written for a recipe. -/
def writing (files : FileSystem) (recipe : Recipe) : Writing :=
  ⟨recipe.place, (recipe.made files).getD []⟩

/-- What the place of a recipe holds afterwards. A file that is already there keeps its mode. -/
def entry (recipe : Recipe) (files : FileSystem) : Option Entry :=
  (recipe.made files).map fun code => .file code (files.modeAt recipe.place false)

/-- No recipe reads what another one writes. -/
def Apart (recipes : List Recipe) : Prop :=
  ∀ reader ∈ recipes, ∀ writer ∈ recipes, reader.origin ≠ writer.place

/-- No recipe reads what one in front of it writes. -/
def Ordered (recipes : List Recipe) : Prop :=
  recipes.Pairwise fun earlier later => later.origin ≠ earlier.place

/-- The second tree is the first one after all recipes were followed. -/
inductive Made : FileSystem → List Recipe → FileSystem → Prop
  | done (files : FileSystem) : Made files [] files
  | follow
      {files next after : FileSystem}
      {recipe : Recipe}
      {content : Bytes}
      {rest : List Recipe}
      (code : recipe.made files = some content)
      (written : files.write recipe.place content false = .ok next)
      (others : Made next rest after) :
      Made files (recipe :: rest) after

variable {files next after : FileSystem} {recipe : Recipe} {recipes more : List Recipe}

/-- What a recipe makes depends on its origin alone. -/
theorem made_eq_of_at?
    (same : after.at? recipe.origin = files.at? recipe.origin) :
    recipe.made after = recipe.made files := by
  unfold made
  rw [FileSystem.toOption_read, FileSystem.toOption_read, same]

/-- A recipe does not fail if it makes something and its place can be written. -/
theorem not_fails_iff :
    ¬recipe.Fails files ↔
      (∃ content, recipe.made files = some content) ∧ files.Writable recipe.place := by
  unfold Fails
  rw [not_or, not_not, ← ne_eq, Option.ne_none_iff_exists']

/-- A recipe can still be followed when files were written that it does not read. -/
theorem not_fails_of_writes
    {row : List Writing}
    (ready : ¬recipe.Fails files)
    (writes : Writes files row after)
    (unread : ∀ writing ∈ row, writing.location ≠ recipe.origin) :
    ¬recipe.Fails after := by
  obtain ⟨⟨code, isCode⟩, writable⟩ := not_fails_iff.mp ready
  have same := made_eq_of_at? (writes.at?_of_ne unread)
  exact not_fails_iff.mpr ⟨⟨code, same.trans isCode⟩, writes.writable writable⟩

/-- Recipes that are apart stay apart without the first one. -/
theorem Apart.tail
    (apart : Apart (recipe :: recipes)) :
    Apart recipes := by
  intro reader isReader writer isWriter
  exact apart reader (List.mem_cons_of_mem _ isReader) writer (List.mem_cons_of_mem _ isWriter)

/-- Recipes that are apart may be followed in any order, so in theirs. -/
theorem Apart.ordered
    (apart : Apart recipes) :
    Ordered recipes := by
  apply List.pairwise_of_forall_mem_list
  intro earlier isEarlier later isLater
  exact apart later isLater earlier isEarlier

namespace Made

/-- Recipes are followed one part behind the other. -/
theorem append
    (first : Made files recipes next)
    (second : Made next more after) :
    Made files (recipes ++ more) after := by
  induction first with
  | done files =>
      exact second
  | follow code written _ inductionHypothesis =>
      exact .follow code written (inductionHypothesis second)

/-- Following recipes writes to their places. -/
theorem exists_writes
    (made : Made files recipes after) :
    ∃ row, Writes files row after ∧ row.map (·.location) = recipes.map (·.place) := by
  induction made with
  | done files =>
      exact ⟨[], .done files, rfl⟩
  | @follow files next after recipe content rest code written others inductionHypothesis =>
      obtain ⟨row, writes, places⟩ := inductionHypothesis
      exact ⟨⟨recipe.place, content⟩ :: row, .write written writes, by simp [places]⟩

/-- Following recipes changes nothing but their places. -/
theorem at?_of_ne
    {location : Location}
    (made : Made files recipes after)
    (untouched : ∀ recipe ∈ recipes, recipe.place ≠ location) :
    after.at? location = files.at? location := by
  obtain ⟨row, writes, places⟩ := made.exists_writes
  apply writes.at?_of_ne
  intro writing isWriting
  have isPlace := List.mem_map_of_mem (f := Writing.location) isWriting
  rw [places] at isPlace
  obtain ⟨recipe, isRecipe, hasPlace⟩ := List.mem_map.mp isPlace
  rw [← hasPlace]
  exact untouched recipe isRecipe

/-- If no recipe reads what is written, all codes are those of the tree before. -/
theorem writes_of_apart
    (made : Made files recipes after)
    (apart : Apart recipes) :
    Writes files (recipes.map (writing files)) after ∧
      ∀ recipe ∈ recipes, ∃ content, recipe.made files = some content := by
  induction made with
  | done files =>
      exact ⟨.done files, by simp⟩
  | @follow files next after recipe content rest code written others inductionHypothesis =>
      obtain ⟨writes, codes⟩ := inductionHypothesis apart.tail
      have same : ∀ other ∈ rest, other.made next = other.made files := by
        intro other isOther
        apply made_eq_of_at?
        apply FileSystem.at?_write_of_ne written
        exact apart other (List.mem_cons_of_mem _ isOther) recipe List.mem_cons_self
      have sameRow : rest.map (writing next) = rest.map (writing files) := by
        apply List.map_congr_left
        intro other isOther
        rw [writing, writing, same other isOther]
      constructor
      · rw [List.map_cons, writing, code, ← sameRow]
        exact .write written writes
      · intro other member
        rcases List.mem_cons.mp member with rfl | isOther
        · exact ⟨content, code⟩
        · rw [← same other isOther]
          exact codes other isOther

end Made

end Recipe

namespace Work

/-- The work makes one file by a recipe and returns a value, or fails and changes no file. -/
def Follows {β : Type} (work : Work β) (recipe : Recipe) (value : β) : Prop :=
  ∀ workspace : Workspace,
    (∃ content after, work.runOn workspace = (.ok value, after) ∧
      recipe.made workspace.files = some content ∧
      workspace.files.write recipe.place content false = .ok after.files) ∨
    ∃ failure after, work.runOn workspace = (.error failure, after) ∧
      after.files = workspace.files ∧ recipe.Fails workspace.files

/-- Writing a file changes the tree as the file system says. -/
theorem runOn_write_ok
    {address : Address}
    {content : Bytes}
    {executable : Bool}
    {workspace : Workspace}
    {changed : FileSystem}
    (written : workspace.files.write address.location content executable = .ok changed) :
    (write address content executable).runOn workspace =
      (.ok none, { workspace with files := changed }) := by
  refine (runOn_bind_ok rfl).trans ?_
  rw [written]
  rfl

/-- Writing a file where this cannot be done fails and changes nothing. -/
theorem runOn_write_error
    {address : Address}
    {content : Bytes}
    {executable : Bool}
    {workspace : Workspace}
    (unwritable : ¬workspace.files.Writable address.location) :
    ∃ reason, (write address content executable).runOn workspace =
      (.ok (some reason), workspace) := by
  cases outcome : workspace.files.write address.location content executable with
  | error error =>
      refine ⟨error.message address.text, (runOn_bind_ok rfl).trans ?_⟩
      rw [outcome]
      rfl
  | ok changed =>
      exact (unwritable (FileSystem.write_eq_ok_iff.mp outcome).1).elim

/-- Work on a list of items follows their recipes up to the first that fails. -/
theorem runOn_mapM
    {α β : Type}
    {act : α → Work β}
    {recipe : α → Recipe}
    {value : α → β}
    {items : List α}
    (follows : ∀ item ∈ items, (act item).Follows (recipe item) (value item))
    (workspace : Workspace) :
    (∃ after, (items.mapM act).runOn workspace = (.ok (items.map value), after) ∧
      Recipe.Made workspace.files (items.map recipe) after.files) ∨
    ∃ failure after, ∃ finished broken rest,
      (items.mapM act).runOn workspace = (.error failure, after) ∧
      items = finished ++ broken :: rest ∧
      Recipe.Made workspace.files (finished.map recipe) after.files ∧
      (recipe broken).Fails after.files := by
  induction items generalizing workspace with
  | nil =>
      exact .inl ⟨workspace, rfl, .done _⟩
  | cons item rest inductionHypothesis =>
      obtain ⟨followsFirst, followsRest⟩ := List.forall_mem_cons.mp follows
      rw [List.mapM_cons]
      rcases followsFirst workspace with
        ⟨content, next, ran, code, written⟩ | ⟨failure, next, ran, same, fails⟩
      · rw [runOn_bind_ok ran]
        rcases inductionHypothesis followsRest next with
          ⟨after, ranRest, made⟩ |
            ⟨failure, after, finished, broken, others, ranRest, split, made, fails⟩
        · rw [runOn_bind_ok ranRest]
          exact .inl ⟨after, rfl, .follow code written made⟩
        · rw [runOn_bind_error ranRest]
          exact .inr ⟨failure, after, item :: finished, broken, others, rfl, by rw [split]; rfl,
            .follow code written made, fails⟩
      · rw [runOn_bind_error ran]
        refine .inr ⟨failure, next, [], item, rest, rfl, rfl, ?_, ?_⟩
        · rw [same]
          exact .done _
        · rw [same]
          exact fails

/-- If all recipes can be followed, work on their items does not fail. -/
theorem runOn_mapM_of_ready
    {α β : Type}
    {act : α → Work β}
    {recipe : α → Recipe}
    {value : α → β}
    {items : List α}
    {workspace : Workspace}
    (follows : ∀ item ∈ items, (act item).Follows (recipe item) (value item))
    (ready : ∀ item ∈ items, ¬(recipe item).Fails workspace.files)
    (ordered : Recipe.Ordered (items.map recipe)) :
    ∃ after, (items.mapM act).runOn workspace = (.ok (items.map value), after) ∧
      Recipe.Made workspace.files (items.map recipe) after.files := by
  rcases runOn_mapM follows workspace with
    succeeded | ⟨failure, after, finished, broken, rest, ran, split, made, fails⟩
  · exact succeeded
  · subst split
    obtain ⟨row, writes, places⟩ := made.exists_writes
    have isBroken : broken ∈ finished ++ broken :: rest := by simp
    refine (Recipe.not_fails_of_writes (ready broken isBroken) writes ?_ fails).elim
    -- What was written before is nothing that the broken recipe reads.
    intro writing isWriting
    have isPlace := List.mem_map_of_mem (f := Writing.location) isWriting
    rw [places, List.map_map] at isPlace
    obtain ⟨item, isItem, hasPlace⟩ := List.mem_map.mp isPlace
    rw [← hasPlace]
    rw [List.map_append, List.map_cons] at ordered
    have earlier := (List.pairwise_append.mp ordered).2.2
    exact (earlier _ (List.mem_map_of_mem isItem) _ List.mem_cons_self).symm

end Work

/-! ## The recipes of a build -/

namespace Project

/-- The Nim code of the content of a source file, if there is any. -/
def nimCode (normalizer : Normalizer) (library : String) (content : Bytes) : Option Bytes :=
  (Pipeline.transpile normalizer library (.ofBytes content)).toOption.map textBytes

/-- Transpiling a file changes nothing and gives the code of its content. -/
theorem runOn_transpileFile
    (normalizer : Normalizer)
    (library : String)
    (source : Address)
    (workspace : Workspace) :
    (∃ generated, (transpileFile normalizer library source).runOn workspace =
        (.ok generated, workspace) ∧
      (workspace.files.read source.location).toOption.bind (nimCode normalizer library) =
        some (textBytes generated)) ∨
    ∃ failure, (transpileFile normalizer library source).runOn workspace =
        (.error failure, workspace) ∧
      (workspace.files.read source.location).toOption.bind (nimCode normalizer library) =
        none := by
  have ran : (Work.read source).runOn workspace =
      (.ok ((workspace.files.read source.location).mapError (·.message source.text)),
        workspace) := rfl
  unfold transpileFile
  rw [Work.runOn_bind_ok ran]
  cases workspace.files.read source.location with
  | error error =>
      exact .inr ⟨_, rfl, rfl⟩
  | ok content =>
      cases transpiled : Pipeline.transpile normalizer library (.ofBytes content) with
      | error failure =>
          have noCode : nimCode normalizer library content = none := by
            simp [nimCode, transpiled, Except.toOption]
          simp only [Except.mapError, transpileContent, transpiled]
          exact .inr ⟨_, rfl, noCode⟩
      | ok generated =>
          have code : nimCode normalizer library content = some (textBytes generated) := by
            simp [nimCode, transpiled, Except.toOption]
          simp only [Except.mapError, transpileContent, transpiled]
          exact .inl ⟨generated, rfl, code⟩

/-- A source that parses has Nim code. -/
theorem exists_transpile_of_parses
    {normalizer : Normalizer}
    {files : FileSystem}
    {source : Location}
    (library : String)
    (parses : Dependencies.Parses normalizer files source) :
    ∃ content code, files.read source = .ok content ∧
      Pipeline.transpile normalizer library (.ofBytes content) = .ok code := by
  obtain ⟨content, program, read, parsed⟩ := parses
  rcases Pipeline.parsePrepared_cases (normalizer.stages (.ofBytes content))
      (normalizer.apply (.ofBytes content)) with
    ⟨tokens, other, isProgram, outcome⟩ | ⟨mistake, -, outcome⟩
  · obtain ⟨code, generated⟩ := generate_of_parsed library isProgram
    refine ⟨content, code, read, ?_⟩
    unfold Pipeline.transpile Pipeline.run Pipeline.runParse
    simp only [outcome, Pipeline.emit, generated]
  · cases outcome.symm.trans parsed

end Project

namespace Build

/-- The output of a source. -/
def output (host : Host) (config : Config) (source : Location) : Output :=
  ⟨source, outputAddress host config source⟩

/-- How the Nim file of a source is made. -/
def recipe (host : Host) (config : Config) (library : String) (source : Location) : Recipe :=
  ⟨source, (outputAddress host config source).location, Project.nimCode config.normalizer library⟩

/-- The Nim file of a source can be made if the source parses and there is a place for it. -/
theorem not_fails_of_parses
    {host : Host}
    {config : Config}
    {library : String}
    {source : Location}
    {files : FileSystem}
    (parses : Dependencies.Parses config.normalizer files source)
    (writable : files.Writable (outputAddress host config source).location) :
    ¬(recipe host config library source).Fails files := by
  refine Recipe.not_fails_iff.mpr ⟨?_, writable⟩
  obtain ⟨content, code, read, transpiled⟩ := Project.exists_transpile_of_parses library parses
  refine ⟨textBytes code, ?_⟩
  simp [Recipe.made, recipe, read, Project.nimCode, transpiled, Except.toOption]

/-- Building one source follows its recipe. -/
theorem buildFile_follows
    (host : Host)
    (config : Config)
    (library : String)
    (source : Location) :
    (buildFile host config library source).Follows (recipe host config library source)
      (output host config source) := by
  intro workspace
  unfold buildFile
  rcases Project.runOn_transpileFile config.normalizer library (.ofLocation source) workspace with
    ⟨generated, ran, code⟩ | ⟨failure, ran, noCode⟩
  · rw [Work.runOn_bind_ok ran]
    by_cases writable : workspace.files.Writable (outputAddress host config source).location
    · obtain ⟨changed, written⟩ := writable.write (textBytes generated) false
      rw [Work.runOn_bind_ok (Work.runOn_write_ok written)]
      exact .inl ⟨textBytes generated, _, rfl, code, written⟩
    · obtain ⟨reason, refused⟩ := Work.runOn_write_error writable
      exact .inr ⟨_, workspace, Work.runOn_bind_ok refused, rfl, .inr writable⟩
  · exact .inr ⟨failure, workspace, Work.runOn_bind_error ran, rfl, .inl noCode⟩

end Build

end FrenchNim
