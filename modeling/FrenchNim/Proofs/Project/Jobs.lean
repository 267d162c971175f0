import FrenchNim.Proofs.Project.Stages

namespace FrenchNim.Build

open Relation (ReflTransGen)

/-!
# Jobs at the same time

The sources of a build may be worked on at the same time, each by a job of its
own. All jobs share one file tree and one row of outputs, and their steps come
in any order. A pool is what they have reached together. If the outputs are
different places and no source is among them, every order of the steps ends
with the same files and outputs as one job after the other.
-/

/-! ## The steps of a job -/

/-- The first half of a job: read the source. -/
def load (source : Location) : Work Bytes := do
  match ← Work.read (.ofLocation source) with
  | .error reason => throw (Project.unreadable source.text reason)
  | .ok content => return content

/-- The second half of a job: transpile what was read and write the Nim file. -/
def store (host : Host) (config : Config) (library : String) (source : Location)
    (content : Bytes) : Work Output := do
  match Project.transpileContent config.normalizer library source.text content with
  | .error failure => throw failure
  | .ok generated =>
      let file := outputAddress host config source
      match ← Work.write file (textBytes generated) false with
      | some reason => throw (.wrapped ("failed to write " ++ file.text) (.plain reason))
      | none =>
          Work.log .info "transpiled"
            [("source", .text source.text), ("output", .text file.text)]
          return ⟨source, file⟩

/-- A source is built by the two halves of its job. -/
theorem buildFile_eq
    (host : Host)
    (config : Config)
    (library : String)
    (source : Location) :
    buildFile host config library source = load source >>= store host config library source := by
  unfold buildFile load Project.transpileFile
  rw [bind_assoc, bind_assoc]
  apply congrArg
  funext outcome
  cases outcome with
  | error reason =>
      rfl
  | ok content =>
      rw [pure_bind]
      unfold store
      simp only [Address.ofLocation]
      cases Project.transpileContent config.normalizer library source.text content <;> rfl

/-- How far a job has come. -/
inductive Phase where
  | waiting
  | started
  | loaded (content : Bytes)
  | stored (output : Output)
  | ended
  deriving Repr, DecidableEq

namespace Phase

/-- The job holds one of the places for jobs at the same time. -/
def isRunning : Phase → Bool
  | waiting | ended => false
  | started | loaded _ | stored _ => true

/-- The steps that a job has left at most. -/
def remaining : Phase → Nat
  | waiting => 4
  | started => 3
  | loaded _ => 2
  | stored _ => 1
  | ended => 0

end Phase

/-- What the jobs of a build have reached. -/
structure Pool where
  workspace : Workspace
  phases : List Phase
  /-- The outputs that are known, one place for each source. -/
  outputs : List (Option Output)
  /-- The failure that came first. -/
  failure? : Option Failure

namespace Pool

/-- No job has started. -/
def initial (workspace : Workspace) (sources : List Location) : Pool :=
  ⟨workspace, sources.map fun _ => .waiting, sources.map fun _ => none, none⟩

/-- The number of jobs at work. -/
def running (pool : Pool) : Nat :=
  pool.phases.countP (·.isRunning)

/-- The steps that all jobs have left at most. -/
def remaining (pool : Pool) : Nat :=
  (pool.phases.map (·.remaining)).sum

/-- All jobs have ended. -/
def Finished (pool : Pool) : Prop :=
  ∀ phase ∈ pool.phases, phase = .ended

/-- A job comes to its next phase. -/
def move (pool : Pool) (index : Nat) (workspace : Workspace) (phase : Phase) : Pool :=
  { pool with workspace := workspace, phases := pool.phases.set index phase }

/-- A job ends with a failure. -/
def fail (pool : Pool) (index : Nat) (workspace : Workspace) (failure : Failure) : Pool :=
  { pool.move index workspace .ended with failure? := pool.failure?.or (some failure) }

/-- A job puts its output into the row of outputs. -/
def record (pool : Pool) (index : Nat) (output : Output) : Pool :=
  { pool.move index pool.workspace .ended with outputs := pool.outputs.set index (some output) }

end Pool

section Steps

variable (host : Host) (config : Config) (library : String) (sources : List Location)
  (limit : Nat)

/--
One step of one job.

Jobs are started in the order of the sources, as long as there is room. A job
that finds out that another one has failed does nothing more.
-/
inductive Step : Pool → Pool → Prop
  | start
      {pool : Pool}
      {index : Nat}
      (waits : pool.phases[index]? = some .waiting)
      (first : ∀ earlier < index, pool.phases[earlier]? ≠ some .waiting)
      (room : pool.running < limit) :
      Step pool (pool.move index pool.workspace .started)
  | stop
      {pool : Pool}
      {index : Nat}
      (isStarted : pool.phases[index]? = some .started)
      (failed : pool.failure? ≠ none) :
      Step pool (pool.move index pool.workspace .ended)
  | load
      {pool : Pool}
      {index : Nat}
      {source : Location}
      {content : Bytes}
      {after : Workspace}
      (isSource : sources[index]? = some source)
      (isStarted : pool.phases[index]? = some .started)
      (ran : (load source).runOn pool.workspace = (.ok content, after)) :
      Step pool (pool.move index after (.loaded content))
  | loadFails
      {pool : Pool}
      {index : Nat}
      {source : Location}
      {failure : Failure}
      {after : Workspace}
      (isSource : sources[index]? = some source)
      (isStarted : pool.phases[index]? = some .started)
      (ran : (load source).runOn pool.workspace = (.error failure, after)) :
      Step pool (pool.fail index after failure)
  | store
      {pool : Pool}
      {index : Nat}
      {source : Location}
      {content : Bytes}
      {output : Output}
      {after : Workspace}
      (isSource : sources[index]? = some source)
      (isLoaded : pool.phases[index]? = some (.loaded content))
      (ran : (store host config library source content).runOn pool.workspace =
        (.ok output, after)) :
      Step pool (pool.move index after (.stored output))
  | storeFails
      {pool : Pool}
      {index : Nat}
      {source : Location}
      {content : Bytes}
      {failure : Failure}
      {after : Workspace}
      (isSource : sources[index]? = some source)
      (isLoaded : pool.phases[index]? = some (.loaded content))
      (ran : (store host config library source content).runOn pool.workspace =
        (.error failure, after)) :
      Step pool (pool.fail index after failure)
  | record
      {pool : Pool}
      {index : Nat}
      {output : Output}
      (isStored : pool.phases[index]? = some (.stored output)) :
      Step pool (pool.record index output)

/-- The jobs take any number of steps. -/
def Runs : Pool → Pool → Prop :=
  ReflTransGen (Step host config library sources limit)

end Steps

variable {host : Host} {config : Config} {library : String} {sources : List Location}
  {limit : Nat} {pool next : Pool}

/-! ## Every run ends -/

theorem remaining_set_lt
    {phases : List Phase}
    {index : Nat}
    {phase later : Phase}
    (isPhase : phases[index]? = some phase)
    (fewer : later.remaining < phase.remaining) :
    ((phases.set index later).map (·.remaining)).sum < (phases.map (·.remaining)).sum := by
  induction phases generalizing index with
  | nil =>
      simp at isPhase
  | cons head rest inductionHypothesis =>
      cases index with
      | zero =>
          cases isPhase
          simpa using fewer
      | succ index =>
          simpa using inductionHypothesis isPhase

/-- Every step leaves fewer steps to take. -/
theorem Step.remaining_lt
    (step : Step host config library sources limit pool next) :
    next.remaining < pool.remaining := by
  cases step with
  | start waits => exact remaining_set_lt waits (by decide)
  | stop isStarted => exact remaining_set_lt isStarted (by decide)
  | load _ isStarted => exact remaining_set_lt isStarted (by simp [Phase.remaining])
  | loadFails _ isStarted => exact remaining_set_lt isStarted (by decide)
  | store _ isLoaded => exact remaining_set_lt isLoaded (by simp [Phase.remaining])
  | storeFails _ isLoaded => exact remaining_set_lt isLoaded (by simp [Phase.remaining])
  | record isStored => exact remaining_set_lt isStored (by simp [Phase.remaining])

/-! ## What the halves of a job do -/

theorem runOn_load
    {source : Location}
    {content : Bytes}
    {workspace : Workspace}
    (read : workspace.files.read source = .ok content) :
    (load source).runOn workspace = (.ok content, workspace) := by
  have ran : (Work.read (.ofLocation source)).runOn workspace =
      (.ok ((workspace.files.read source).mapError (·.message source.text)), workspace) := rfl
  unfold load
  rw [Work.runOn_bind_ok ran, read]
  rfl

theorem runOn_store
    {source : Location}
    {content : Bytes}
    {code : String}
    {workspace : Workspace}
    {changed : FileSystem}
    (transpiled : Pipeline.transpile config.normalizer library (.ofBytes content) = .ok code)
    (written : workspace.files.write (outputAddress host config source).location (textBytes code)
      false = .ok changed) :
    ∃ after, (store host config library source content).runOn workspace =
        (.ok (output host config source), after) ∧ after.files = changed := by
  unfold store Project.transpileContent
  simp only [transpiled]
  rw [Work.runOn_bind_ok (Work.runOn_write_ok written)]
  exact ⟨_, rfl, rfl⟩

/-! ## Jobs that do not meet -/

/-- The jobs of the sources can all be done, and none reads or writes what another one writes. -/
structure Independent (host : Host) (config : Config) (library : String)
    (sources : List Location) (files : FileSystem) : Prop where
  ready : ∀ source ∈ sources, ¬(recipe host config library source).Fails files
  distinct : ((sources.map (recipe host config library)).map (·.place)).Nodup
  apart : Recipe.Apart (sources.map (recipe host config library))

/-- What is known of a job: its output is as before or done, and so is its place in the row. -/
def Phase.Agrees (recipe : Recipe) (output : Output) (before files : FileSystem)
    (slot : Option Output) : Phase → Prop
  | .waiting | .started => files.at? recipe.place = before.at? recipe.place ∧ slot = none
  | .loaded content =>
      files.at? recipe.place = before.at? recipe.place ∧ slot = none ∧
        before.read recipe.origin = .ok content
  | .stored made => files.at? recipe.place = recipe.entry before ∧ slot = none ∧ made = output
  | .ended => files.at? recipe.place = recipe.entry before ∧ slot = some output

/-- What is known of a pool between two steps. -/
structure Sound (host : Host) (config : Config) (library : String) (sources : List Location)
    (before : FileSystem) (pool : Pool) : Prop where
  phaseCount : pool.phases.length = sources.length
  outputCount : pool.outputs.length = sources.length
  calm : pool.failure? = none
  /-- Only outputs were written. -/
  elsewhere : ∀ location,
    (∀ source ∈ sources, (recipe host config library source).place ≠ location) →
    pool.workspace.files.at? location = before.at? location
  agrees : ∀ (index : Nat) (source : Location) (phase : Phase) (slot : Option Output),
    sources[index]? = some source →
    pool.phases[index]? = some phase → pool.outputs[index]? = some slot →
    phase.Agrees (recipe host config library source) (output host config source) before
      pool.workspace.files slot

variable {before : FileSystem}

namespace Independent

theorem place_ne
    (independent : Independent host config library sources before)
    {index other : Nat}
    {source otherSource : Location}
    (isSource : sources[index]? = some source)
    (isOther : sources[other]? = some otherSource)
    (differs : index ≠ other) :
    (recipe host config library otherSource).place ≠ (recipe host config library source).place := by
  intro same
  apply differs
  have bound : index < ((sources.map (recipe host config library)).map (·.place)).length := by
    simpa using (List.getElem?_eq_some_iff.mp isSource).1
  apply (List.getElem?_inj bound independent.distinct).mp
  simp [isSource, isOther, same]

/-- A source is where no output is written. -/
theorem place_ne_source
    (independent : Independent host config library sources before)
    {source : Location}
    (isSource : source ∈ sources) :
    ∀ other ∈ sources, (recipe host config library other).place ≠ source := by
  intro other isOther
  exact (independent.apart _ (List.mem_map_of_mem isSource) _ (List.mem_map_of_mem isOther)).symm

/-- The directory of an output is where no output is written. -/
theorem place_ne_directory
    (independent : Independent host config library sources before)
    {location : Location}
    (isDirectory : before.at? location = some .directory) :
    ∀ other ∈ sources, (recipe host config library other).place ≠ location := by
  rintro other isOther rfl
  obtain ⟨-, writable⟩ := Recipe.not_fails_iff.mp (independent.ready other isOther)
  rcases writable with ⟨_, _, isFile⟩ | ⟨isFree, -⟩
  · cases isFile.symm.trans isDirectory
  · cases isFree.symm.trans isDirectory

/-- Every source can be read and has code, and its output can be written. -/
theorem exists_code
    (independent : Independent host config library sources before)
    {source : Location}
    (isSource : source ∈ sources) :
    ∃ content code, before.read source = .ok content ∧
      Pipeline.transpile config.normalizer library (.ofBytes content) = .ok code ∧
      (recipe host config library source).entry before =
        some (.file (textBytes code)
          (before.modeAt (recipe host config library source).place false)) := by
  obtain ⟨⟨made, isMade⟩, -⟩ := Recipe.not_fails_iff.mp (independent.ready source isSource)
  have known := isMade
  unfold Recipe.made at known
  cases read : before.read source with
  | error error =>
      simp [recipe, read, Except.toOption] at known
  | ok content =>
      cases transpiled : Pipeline.transpile config.normalizer library (.ofBytes content) with
      | error failure =>
          simp [recipe, read, Except.toOption, Project.nimCode, transpiled] at known
      | ok code =>
          have sameCode : textBytes code = made := by
            simpa [recipe, read, Except.toOption, Project.nimCode, transpiled] using known
          refine ⟨content, code, rfl, transpiled, ?_⟩
          rw [Recipe.entry, isMade, sameCode]
          rfl

end Independent

namespace Sound

/-- At the start nothing has changed. -/
theorem initial
    (workspace : Workspace) :
    Sound host config library sources workspace.files (.initial workspace sources) where
  phaseCount := by simp [Pool.initial]
  outputCount := by simp [Pool.initial]
  calm := rfl
  elsewhere := fun _ _ => rfl
  agrees := by
    intro index source phase slot isSource isPhase isSlot
    simp only [Pool.initial, List.getElem?_map, isSource, Option.map_some,
      Option.some.injEq] at isPhase isSlot
    subst isPhase isSlot
    exact ⟨rfl, rfl⟩

/-- A step of one job that changes no more than the output of the job keeps what is known. -/
theorem update
    (sound : Sound host config library sources before pool)
    (independent : Independent host config library sources before)
    {index : Nat}
    {source : Location}
    {phase : Phase}
    {slot : Option Output}
    {after : Workspace}
    (isSource : sources[index]? = some source)
    (frame : ∀ location, location ≠ (recipe host config library source).place →
      after.files.at? location = pool.workspace.files.at? location)
    (agrees : phase.Agrees (recipe host config library source) (output host config source) before
      after.files slot) :
    Sound host config library sources before
      ⟨after, pool.phases.set index phase, pool.outputs.set index slot, pool.failure?⟩ where
  phaseCount := by simp [sound.phaseCount]
  outputCount := by simp [sound.outputCount]
  calm := sound.calm
  elsewhere := by
    intro location untouched
    rw [frame location (untouched source (List.mem_of_getElem? isSource)).symm]
    exact sound.elsewhere location untouched
  agrees := by
    intro other otherSource otherPhase otherSlot isOther isPhase isSlot
    by_cases same : index = other
    · subst same
      have bound := (List.getElem?_eq_some_iff.mp isSource).1
      rw [List.getElem?_set_self (by rw [sound.phaseCount]; exact bound)] at isPhase
      rw [List.getElem?_set_self (by rw [sound.outputCount]; exact bound)] at isSlot
      cases isSource.symm.trans isOther
      cases isPhase
      cases isSlot
      exact agrees
    · rw [List.getElem?_set_ne same] at isPhase isSlot
      have known := sound.agrees other otherSource otherPhase otherSlot isOther isPhase isSlot
      have unchanged := frame _ (independent.place_ne isSource isOther same)
      cases otherPhase <;> simpa [Phase.Agrees, unchanged] using known

end Sound

namespace Sound

theorem exists_source
    (sound : Sound host config library sources before pool)
    {index : Nat}
    {phase : Phase}
    (isPhase : pool.phases[index]? = some phase) :
    ∃ source slot, sources[index]? = some source ∧ pool.outputs[index]? = some slot := by
  have bound := (List.getElem?_eq_some_iff.mp isPhase).1
  have sourceBound : index < sources.length := by
    rw [← sound.phaseCount]
    exact bound
  have outputBound : index < pool.outputs.length := by
    rw [sound.outputCount]
    exact sourceBound
  exact ⟨_, _, List.getElem?_eq_getElem sourceBound, List.getElem?_eq_getElem outputBound⟩

/-- A job that comes to its next phase and changes no more than its output. -/
theorem move
    (sound : Sound host config library sources before pool)
    (independent : Independent host config library sources before)
    {index : Nat}
    {source : Location}
    {phase : Phase}
    {slot : Option Output}
    {after : Workspace}
    (isSource : sources[index]? = some source)
    (isSlot : pool.outputs[index]? = some slot)
    (frame : ∀ location, location ≠ (recipe host config library source).place →
      after.files.at? location = pool.workspace.files.at? location)
    (agrees : phase.Agrees (recipe host config library source) (output host config source) before
      after.files slot) :
    Sound host config library sources before (pool.move index after phase) := by
  have updated := sound.update independent isSource frame agrees
  obtain ⟨bound, isValue⟩ := List.getElem?_eq_some_iff.mp isSlot
  rw [← isValue, List.set_getElem_self] at updated
  exact updated

/-- A source still has the content from before. -/
theorem read_source
    (sound : Sound host config library sources before pool)
    (independent : Independent host config library sources before)
    {source : Location}
    {content : Bytes}
    (isSource : source ∈ sources)
    (read : before.read source = .ok content) :
    pool.workspace.files.read source = .ok content := by
  obtain ⟨executable, isFile⟩ := FileSystem.read_eq_ok_iff.mp read
  apply FileSystem.read_eq_ok_iff.mpr
  refine ⟨executable, ?_⟩
  rw [sound.elsewhere source (independent.place_ne_source isSource)]
  exact isFile

/-- An output that is as before can be written. -/
theorem writable
    (sound : Sound host config library sources before pool)
    (independent : Independent host config library sources before)
    {source : Location}
    (isSource : source ∈ sources)
    (unchanged : pool.workspace.files.at? (recipe host config library source).place =
      before.at? (recipe host config library source).place) :
    pool.workspace.files.Writable (recipe host config library source).place := by
  obtain ⟨-, isWritable⟩ := Recipe.not_fails_iff.mp (independent.ready source isSource)
  rw [FileSystem.Writable, unchanged]
  rcases isWritable with isFile | ⟨isFree, isDirectory⟩
  · exact .inl isFile
  · right
    refine ⟨isFree, ?_⟩
    rw [sound.elsewhere _ (independent.place_ne_directory isDirectory)]
    exact isDirectory

/-- A job that has read its source finishes its output. -/
theorem runOn_store_of_loaded
    (sound : Sound host config library sources before pool)
    (independent : Independent host config library sources before)
    {source : Location}
    {content : Bytes}
    (isSource : source ∈ sources)
    (read : before.read source = .ok content)
    (unchanged : pool.workspace.files.at? (recipe host config library source).place =
      before.at? (recipe host config library source).place) :
    ∃ after, (store host config library source content).runOn pool.workspace =
        (.ok (output host config source), after) ∧
      after.files.at? (recipe host config library source).place =
        (recipe host config library source).entry before ∧
      ∀ location, location ≠ (recipe host config library source).place →
        after.files.at? location = pool.workspace.files.at? location := by
  obtain ⟨known, code, isKnown, transpiled, final⟩ := independent.exists_code isSource
  cases isKnown.symm.trans read
  obtain ⟨changed, written⟩ :=
    (sound.writable independent isSource unchanged).write (textBytes code) false
  obtain ⟨after, ran, rfl⟩ := runOn_store transpiled written
  refine ⟨after, ran, ?_, fun location differs => FileSystem.at?_write_of_ne written differs⟩
  rw [FileSystem.at?_write written, if_pos rfl, final, FileSystem.modeAt, FileSystem.modeAt,
    unchanged]

/-- Every step keeps what is known. -/
theorem step
    (sound : Sound host config library sources before pool)
    (independent : Independent host config library sources before)
    (taken : Step host config library sources limit pool next) :
    Sound host config library sources before next := by
  cases taken with
  | start waits first room =>
      obtain ⟨source, slot, isSource, isSlot⟩ := sound.exists_source waits
      have known := sound.agrees _ source _ slot isSource waits isSlot
      exact sound.move independent isSource isSlot (fun _ _ => rfl) known
  | stop isStarted failed =>
      exact (failed sound.calm).elim
  | @load index source content after isSource isStarted ran =>
      obtain ⟨-, slot, -, isSlot⟩ := sound.exists_source isStarted
      obtain ⟨unchanged, isNone⟩ := sound.agrees _ source _ slot isSource isStarted isSlot
      have member := List.mem_of_getElem? isSource
      obtain ⟨known, -, read, -⟩ := independent.exists_code member
      cases (runOn_load (sound.read_source independent member read)).symm.trans ran
      exact sound.move independent isSource isSlot (fun _ _ => rfl) ⟨unchanged, isNone, read⟩
  | loadFails isSource isStarted ran =>
      have member := List.mem_of_getElem? isSource
      obtain ⟨known, -, read, -⟩ := independent.exists_code member
      cases (runOn_load (sound.read_source independent member read)).symm.trans ran
  | @store index source content made after isSource isLoaded ran =>
      obtain ⟨-, slot, -, isSlot⟩ := sound.exists_source isLoaded
      obtain ⟨unchanged, isNone, read⟩ := sound.agrees _ source _ slot isSource isLoaded isSlot
      obtain ⟨reached, isRun, final, frame⟩ :=
        sound.runOn_store_of_loaded independent (List.mem_of_getElem? isSource) read unchanged
      cases isRun.symm.trans ran
      exact sound.move independent isSource isSlot frame ⟨final, isNone, rfl⟩
  | @storeFails index source content failure after isSource isLoaded ran =>
      obtain ⟨-, slot, -, isSlot⟩ := sound.exists_source isLoaded
      obtain ⟨unchanged, -, read⟩ := sound.agrees _ source _ slot isSource isLoaded isSlot
      obtain ⟨reached, isRun, -⟩ :=
        sound.runOn_store_of_loaded independent (List.mem_of_getElem? isSource) read unchanged
      cases isRun.symm.trans ran
  | record isStored =>
      obtain ⟨source, slot, isSource, isSlot⟩ := sound.exists_source isStored
      obtain ⟨final, -, isOutput⟩ := sound.agrees _ source _ slot isSource isStored isSlot
      exact sound.update independent isSource (fun _ _ => rfl) ⟨final, by rw [isOutput]⟩

/-- What is known at the start is known in every run. -/
theorem runs
    (sound : Sound host config library sources before pool)
    (independent : Independent host config library sources before)
    (taken : Runs host config library sources limit pool next) :
    Sound host config library sources before next := by
  induction taken with
  | refl =>
      exact sound
  | tail _ step inductionHypothesis =>
      exact inductionHypothesis.step independent step

/-- A job at work can take its next step. -/
theorem exists_step_of_isRunning
    (sound : Sound host config library sources before pool)
    (independent : Independent host config library sources before)
    {index : Nat}
    {phase : Phase}
    (isPhase : pool.phases[index]? = some phase)
    (isRunning : phase.isRunning = true) :
    ∃ later, Step host config library sources limit pool later := by
  obtain ⟨source, slot, isSource, isSlot⟩ := sound.exists_source isPhase
  have known := sound.agrees _ source _ slot isSource isPhase isSlot
  have member := List.mem_of_getElem? isSource
  cases phase with
  | waiting => cases isRunning
  | started =>
      obtain ⟨content, -, read, -⟩ := independent.exists_code member
      exact ⟨_, .load isSource isPhase (runOn_load (sound.read_source independent member read))⟩
  | loaded content =>
      obtain ⟨unchanged, -, read⟩ := known
      obtain ⟨after, ran, -⟩ := sound.runOn_store_of_loaded independent member read unchanged
      exact ⟨_, .store isSource isPhase ran⟩
  | stored made => exact ⟨_, .record isPhase⟩
  | ended => cases isRunning

/-- If there is room for one job, the jobs never stand still before all have ended. -/
theorem finished_or_exists_step
    (sound : Sound host config library sources before pool)
    (independent : Independent host config library sources before)
    (room : 0 < limit) :
    pool.Finished ∨ ∃ later, Step host config library sources limit pool later := by
  by_cases active : ∃ (index : Nat) (phase : Phase),
      pool.phases[index]? = some phase ∧ phase.isRunning = true
  · obtain ⟨index, phase, isPhase, isRunning⟩ := active
    exact .inr (sound.exists_step_of_isRunning independent isPhase isRunning)
  · have idle : ∀ phase ∈ pool.phases, phase.isRunning = false := by
      intro phase member
      obtain ⟨index, isPhase⟩ := List.mem_iff_getElem?.mp member
      by_contra isRunning
      exact active ⟨index, phase, isPhase, by simpa using isRunning⟩
    by_cases waits : ∃ index : Nat, pool.phases[index]? = some .waiting
    · right
      refine ⟨_, .start (Nat.find_spec waits) (fun earlier less => Nat.find_min waits less) ?_⟩
      rw [Pool.running, List.countP_eq_zero.mpr fun phase member => by simp [idle phase member]]
      exact room
    · left
      intro phase member
      obtain ⟨index, isPhase⟩ := List.mem_iff_getElem?.mp member
      have notRunning := idle phase member
      cases phase with
      | waiting => exact (waits ⟨index, isPhase⟩).elim
      | ended => rfl
      | _ => cases notRunning

/-- All jobs can be brought to their end. -/
theorem exists_finished
    (sound : Sound host config library sources before pool)
    (independent : Independent host config library sources before)
    (room : 0 < limit) :
    ∃ final, Runs host config library sources limit pool final ∧ final.Finished := by
  induction steps : pool.remaining using Nat.strong_induction_on generalizing pool with
  | _ count inductionHypothesis =>
      rcases sound.finished_or_exists_step independent room with finished | ⟨later, step⟩
      · exact ⟨pool, .refl, finished⟩
      · have fewer := step.remaining_lt
        rw [steps] at fewer
        obtain ⟨final, taken, finished⟩ :=
          inductionHypothesis _ fewer (sound.step independent step) rfl
        exact ⟨final, .head step taken, finished⟩

/-- When all jobs have ended, every output is done and recorded. -/
theorem outputs_of_finished
    (sound : Sound host config library sources before pool)
    (finished : pool.Finished) :
    pool.outputs = sources.map (fun source => some (output host config source)) ∧
      ∀ source ∈ sources, pool.workspace.files.at? (recipe host config library source).place =
        (recipe host config library source).entry before := by
  have ended : ∀ (index : Nat) (source : Location), sources[index]? = some source →
      pool.phases[index]? = some .ended := by
    intro index source isSource
    have bound : index < pool.phases.length := by
      rw [sound.phaseCount]
      exact (List.getElem?_eq_some_iff.mp isSource).1
    rw [List.getElem?_eq_getElem bound, finished _ (List.getElem_mem bound)]
  constructor
  · apply List.ext_getElem?
    intro index
    cases isSource : sources[index]? with
    | none =>
        rw [List.getElem?_map, isSource, Option.map_none, List.getElem?_eq_none_iff,
          sound.outputCount]
        exact List.getElem?_eq_none_iff.mp isSource
    | some source =>
        obtain ⟨-, slot, -, isSlot⟩ := sound.exists_source (ended index source isSource)
        obtain ⟨-, isOutput⟩ :=
          sound.agrees index source _ slot isSource (ended index source isSource) isSlot
        rw [List.getElem?_map, isSource, isSlot, isOutput]
        rfl
  · intro source member
    obtain ⟨index, isSource⟩ := List.mem_iff_getElem?.mp member
    obtain ⟨-, slot, -, isSlot⟩ := sound.exists_source (ended index source isSource)
    exact (sound.agrees index source _ slot isSource (ended index source isSource) isSlot).1

end Sound

/-! ## One job after the other -/

/-- The first jobs have ended with outputs, one job is in a phase, and the others wait. -/
def Pool.amid (workspace : Workspace) (outputs : List Output) (phase : Phase)
    (waiting : List Location) : Pool :=
  ⟨workspace, outputs.map (fun _ => .ended) ++ phase :: waiting.map fun _ => .waiting,
    outputs.map some ++ none :: waiting.map fun _ => none, none⟩

/-- The first jobs have ended with outputs, and the others wait. -/
def Pool.behind (workspace : Workspace) (outputs : List Output) (waiting : List Location) : Pool :=
  ⟨workspace, outputs.map (fun _ => .ended) ++ waiting.map fun _ => .waiting,
    outputs.map some ++ waiting.map fun _ => none, none⟩

namespace Pool

variable {workspace after : Workspace} {outputs : List Output} {phase next : Phase}
  {waiting : List Location}

/-- The job that is amid the others is in its phase. -/
theorem phase_amid :
    (amid workspace outputs phase waiting).phases[outputs.length]? = some phase := by
  simp [amid]

/-- The jobs in front of it do not wait any more. -/
theorem phases_front
    {index : Nat}
    (less : index < outputs.length) :
    (amid workspace outputs phase waiting).phases[index]? ≠ some .waiting := by
  simp [amid, List.getElem?_append_left, less]

/-- No job is at work while the next one waits. -/
theorem running_amid :
    (amid workspace outputs .waiting waiting).running = 0 := by
  simp [amid, running, Phase.isRunning, List.countP_eq_zero]

/-- A step of the job leaves the others as they are. -/
theorem move_amid :
    (amid workspace outputs phase waiting).move outputs.length after next =
      amid after outputs next waiting := by
  simp [amid, move, List.set_append_right]

/-- The job ends with its output. -/
theorem record_amid (output : Output) :
    (amid workspace outputs phase waiting).record outputs.length output =
      behind workspace (outputs ++ [output]) waiting := by
  simp [amid, behind, record, move, List.set_append_right]

/-- When no job waits any more, all have ended. -/
theorem finished_behind :
    (behind workspace outputs []).Finished := by
  simp [behind, Finished]

end Pool

variable {workspace after : Workspace} {outputs : List Output}

/-- A source that is built is a job that takes all its steps without a break. -/
theorem runs_of_buildFile
    {source : Location}
    {output : Output}
    (room : 0 < limit)
    (isSource : sources[outputs.length]? = some source)
    (waiting : List Location)
    (ran : (buildFile host config library source).runOn workspace = (.ok output, after)) :
    Runs host config library sources limit (.behind workspace outputs (source :: waiting))
      (.behind after (outputs ++ [output]) waiting) := by
  rw [buildFile_eq] at ran
  obtain ⟨content, middle, loaded, stored⟩ := Work.exists_of_runOn_bind ran
  have starts : Step host config library sources limit
      (.amid workspace outputs .waiting waiting) _ :=
    .start Pool.phase_amid (fun _ => Pool.phases_front) (Pool.running_amid.trans_lt room)
  have loads : Step host config library sources limit
      (.amid workspace outputs .started waiting) _ :=
    .load isSource Pool.phase_amid loaded
  have stores : Step host config library sources limit
      (.amid middle outputs (.loaded content) waiting) _ :=
    .store isSource Pool.phase_amid stored
  have records : Step host config library sources limit
      (.amid after outputs (.stored output) waiting) _ :=
    .record Pool.phase_amid
  rw [Pool.move_amid] at starts loads stores
  rw [Pool.record_amid] at records
  exact .head starts (.head loads (.head stores (.single records)))

/-- Sources that are built one after the other are jobs that follow each other. -/
theorem runs_of_mapM
    {made : List Output}
    {waiting : List Location}
    (room : 0 < limit)
    (rest : sources.drop outputs.length = waiting)
    (ran : (waiting.mapM (buildFile host config library)).runOn workspace = (.ok made, after)) :
    Runs host config library sources limit (.behind workspace outputs waiting)
      (.behind after (outputs ++ made) []) := by
  induction waiting generalizing workspace outputs made with
  | nil =>
      cases ran
      rw [List.reverse_nil, List.append_nil]
      exact .refl
  | cons source waiting inductionHypothesis =>
      rw [List.mapM_cons] at ran
      obtain ⟨output, middle, ranFirst, ran⟩ := Work.exists_of_runOn_bind ran
      obtain ⟨later, reached, ranRest, ran⟩ := Work.exists_of_runOn_bind ran
      cases ran
      have isSource : sources[outputs.length]? = some source := by
        rw [← List.head?_drop, rest, List.head?_cons]
      have restBehind : sources.drop (outputs ++ [output]).length = waiting := by
        rw [List.length_append, List.length_singleton, ← List.drop_drop, rest, List.drop_one,
          List.tail_cons]
      have first := runs_of_buildFile room isSource waiting ranFirst
      have others := inductionHypothesis restBehind ranRest
      rw [List.append_assoc, List.singleton_append] at others
      exact first.trans others

/--
To work on one source after the other is one of the orders in which jobs at the same
time can take their steps, and it brings all of them to their end.
-/
theorem runs_of_buildFiles
    (room : 0 < limit)
    (ran : (buildFiles host config library sources).runOn workspace = (.ok outputs, after)) :
    Runs host config library sources limit (.initial workspace sources)
        (.behind after outputs []) ∧
      (Pool.behind after outputs []).Finished := by
  refine ⟨?_, Pool.finished_behind⟩
  unfold buildFiles at ran
  cases canceled : host.canceled with
  | true =>
      rw [canceled, if_pos rfl] at ran
      cases ran
  | false =>
      rw [canceled, if_neg Bool.false_ne_true] at ran
      exact runs_of_mapM room (show sources.drop ([] : List Output).length = sources from rfl) ran

/-! ## Every order gives the same files -/

/-- Sources that parse, with different outputs that can be written and are no sources. -/
theorem independent_of_parses
    (parses : ∀ source ∈ sources, Dependencies.Parses config.normalizer workspace.files source)
    (writable : ∀ source ∈ sources,
      workspace.files.Writable (outputAddress host config source).location)
    (distinct : (sources.map fun source => (outputAddress host config source).location).Nodup)
    (apart : ∀ source ∈ sources, (outputAddress host config source).location ∉ sources) :
    Independent host config library sources workspace.files where
  ready := fun source member => not_fails_of_parses (parses source member) (writable source member)
  distinct := by
    rw [List.map_map]
    exact distinct
  apart := by
    intro reader isReader writer isWriter same
    obtain ⟨source, isSource, rfl⟩ := List.mem_map.mp isReader
    obtain ⟨other, isOther, rfl⟩ := List.mem_map.mp isWriter
    apply apart other isOther
    rw [show (outputAddress host config other).location = source from same.symm]
    exact isSource

/-- One job after the other makes all outputs and changes nothing else. -/
theorem Independent.runOn_buildFiles
    (independent : Independent host config library sources workspace.files)
    (notCanceled : host.canceled = false) :
    ∃ after, (buildFiles host config library sources).runOn workspace =
        (.ok (sources.map (output host config)), after) ∧
      (∀ source ∈ sources, after.files.at? (recipe host config library source).place =
        (recipe host config library source).entry workspace.files) ∧
      ∀ location, (∀ source ∈ sources, (recipe host config library source).place ≠ location) →
        after.files.at? location = workspace.files.at? location := by
  obtain ⟨after, ran, -⟩ := runOn_buildFiles_of_ready workspace notCanceled independent.ready
    independent.apart.ordered
  obtain ⟨taken, finished⟩ := runs_of_buildFiles Nat.one_pos ran
  have sound := (Sound.initial workspace).runs independent taken
  exact ⟨after, ran, (sound.outputs_of_finished finished).2, sound.elsewhere⟩

/--
Whatever the order of the steps, jobs at the same time end with the files and
outputs of one job after the other. Every output holds the code of its source,
no other file is changed, and the outputs are in the order of the sources, which
are the dependencies as they were found and the entry behind them.
-/
theorem jobs_confluent
    (room : 0 < limit)
    (notCanceled : host.canceled = false)
    (parses : ∀ source ∈ sources, Dependencies.Parses config.normalizer workspace.files source)
    (writable : ∀ source ∈ sources,
      workspace.files.Writable (outputAddress host config source).location)
    (distinct : (sources.map fun source => (outputAddress host config source).location).Nodup)
    (apart : ∀ source ∈ sources, (outputAddress host config source).location ∉ sources) :
    (∃ after, (buildFiles host config library sources).runOn workspace =
        (.ok (sources.map (output host config)), after) ∧
      (∀ source ∈ sources, ∃ content code, workspace.files.read source = .ok content ∧
        Pipeline.transpile config.normalizer library (.ofBytes content) = .ok code ∧
        after.files.read (outputAddress host config source).location = .ok (textBytes code)) ∧
      (∀ location, (∀ source ∈ sources, (outputAddress host config source).location ≠ location) →
        after.files.at? location = workspace.files.at? location) ∧
      ∀ pool, Runs host config library sources limit (.initial workspace sources) pool →
        pool.failure? = none ∧
        (∀ later, Step host config library sources limit pool later →
          later.remaining < pool.remaining) ∧
        (∃ final, Runs host config library sources limit pool final ∧ final.Finished) ∧
        (pool.Finished →
          pool.outputs = sources.map (fun source => some (output host config source)) ∧
          ∀ location, pool.workspace.files.at? location = after.files.at? location)) ∧
    ∀ path result after, (build host config path).runOn workspace = (.ok result, after) →
      ∃ found, (Dependencies.find config.normalizer workspace.files
          (host.working.follow path)).1 = .ok found ∧
        result.outputs = (found ++ [host.working.follow path]).map (output host config) := by
  have independent : Independent host config library sources workspace.files :=
    independent_of_parses parses writable distinct apart
  constructor
  · obtain ⟨after, ran, places, elsewhere⟩ := independent.runOn_buildFiles notCanceled
    refine ⟨after, ran, ?_, elsewhere, ?_⟩
    · intro source member
      obtain ⟨content, code, read, transpiled, final⟩ := independent.exists_code member
      refine ⟨content, code, read, transpiled, ?_⟩
      exact FileSystem.read_eq_ok_iff.mpr ⟨_, (places source member).trans final⟩
    · intro pool taken
      have sound := (Sound.initial workspace).runs independent taken
      refine ⟨sound.calm, fun later step => step.remaining_lt,
        sound.exists_finished independent room, fun finished => ?_⟩
      obtain ⟨outputs, done⟩ := sound.outputs_of_finished finished
      refine ⟨outputs, fun location => ?_⟩
      -- Both runs end with the code of the source at an output, and as they began elsewhere.
      by_cases isOutput : ∃ source ∈ sources, (recipe host config library source).place = location
      · obtain ⟨source, member, rfl⟩ := isOutput
        rw [done source member, places source member]
      · have untouched : ∀ source ∈ sources,
            (recipe host config library source).place ≠ location :=
          fun source member same => isOutput ⟨source, member, same⟩
        rw [sound.elsewhere location untouched, elsewhere location untouched]
  · intro path result after done
    obtain ⟨stages⟩ := exists_stages done
    exact ⟨stages.found, stages.discovered, stages.outputs⟩

/-- Two empty sources in the root directory. -/
def pairTree : FileSystem :=
  ⟨[(["a.fr"], .file [] false), (["b.fr"], .file [] false)]⟩

/-- Two jobs at the same time leave the files that two jobs behind each other leave. -/
theorem jobs_confluent_pairTree :
    ∃ after, (buildFiles idleHost bareConfig "std" [["a.fr"], ["b.fr"]]).runOn ⟨pairTree, []⟩ =
        (.ok ([["a.fr"], ["b.fr"]].map (output idleHost bareConfig)), after) ∧
      ∀ pool, Runs idleHost bareConfig "std" [["a.fr"], ["b.fr"]] 2
          (.initial ⟨pairTree, []⟩ [["a.fr"], ["b.fr"]]) pool → pool.Finished →
        ∀ location, pool.workspace.files.at? location = after.files.at? location := by
  have outputA : outputAddress idleHost bareConfig ["a.fr"] = ⟨"/a.nim", ["a.nim"]⟩ := by
    cbv
  have outputB : outputAddress idleHost bareConfig ["b.fr"] = ⟨"/b.nim", ["b.nim"]⟩ := by
    cbv
  have parsesA : Dependencies.Parses none pairTree ["a.fr"] :=
    Dependencies.usable_importsOf.mp ⟨[], by cbv⟩
  have parsesB : Dependencies.Parses none pairTree ["b.fr"] :=
    Dependencies.usable_importsOf.mp ⟨[], by cbv⟩
  have writable : ∀ source ∈ [["a.fr"], ["b.fr"]],
      pairTree.Writable (outputAddress idleHost bareConfig source).location := by
    simp only [List.forall_mem_cons, outputA, outputB]
    exact ⟨.inr ⟨rfl, rfl⟩, .inr ⟨rfl, rfl⟩, by simp⟩
  obtain ⟨⟨after, ran, -, -, final⟩, -⟩ := @jobs_confluent idleHost bareConfig "std"
    [["a.fr"], ["b.fr"]] 2 ⟨pairTree, []⟩ (by decide) rfl (by simpa using ⟨parsesA, parsesB⟩)
    writable (by simp [outputA, outputB]) (by simp [outputA, outputB])
  exact ⟨after, ran, fun pool taken finished => ((final pool taken).2.2.2 finished).2⟩

end FrenchNim.Build
