import FrenchNim.Project.Build
import FrenchNim.Proofs.Project.Dependencies

namespace FrenchNim

/-!
# Builds that write nothing

The search for dependencies reads every source of a build and changes no file.
So a build stops before its first write when one of its sources does not parse.
-/

namespace Work

/-- Work that fails ends all work that follows it. -/
theorem runOn_bind_error
    {α β : Type}
    {work : Work α}
    {next : α → Work β}
    {workspace after : Workspace}
    {failure : Failure}
    (failed : work.runOn workspace = (.error failure, after)) :
    (work >>= next).runOn workspace = (.error failure, after) := by
  unfold runOn at failed ⊢
  rw [ExceptT.run_bind, StateT.run_bind, failed]
  rfl

/-- Work that succeeds hands on what it leaves behind. -/
theorem runOn_bind_ok
    {α β : Type}
    {work : Work α}
    {next : α → Work β}
    {workspace after : Workspace}
    {value : α}
    (done : work.runOn workspace = (.ok value, after)) :
    (work >>= next).runOn workspace = (next value).runOn after := by
  unfold runOn at done ⊢
  rw [ExceptT.run_bind, StateT.run_bind, done]
  rfl

end Work

/-- The search for dependencies adds to the log and does nothing else. -/
theorem Dependencies.runOn_discover
    (normalizer : Normalizer)
    (entry : Location)
    (workspace : Workspace) :
    (discover normalizer entry).runOn workspace =
      ((find normalizer workspace.files entry).1,
        { workspace with log := workspace.log ++ (find normalizer workspace.files entry).2 }) := by
  have read : Work.files.runOn workspace = (.ok workspace.files, workspace) := rfl
  refine (Work.runOn_bind_ok read).trans ?_
  refine (Work.runOn_bind_ok rfl).trans ?_
  dsimp only
  cases (find normalizer workspace.files entry).1 <;> rfl

/-- A build with a source that does not parse fails and leaves all files as they were. -/
theorem Build.runOn_build_unparsed
    (host : Host)
    (config : Config)
    (path : String)
    (workspace : Workspace)
    (unparsed : ∃ source,
      Dependencies.Reaches workspace.files
        (Dependencies.importsOf config.normalizer workspace.files)
        (host.working.follow path) source ∧
      ¬Dependencies.Parses config.normalizer workspace.files source) :
    ∃ failure after, (build host config path).runOn workspace = (.error failure, after) ∧
      after.files = workspace.files := by
  obtain ⟨source, reaches, broken⟩ := unparsed
  obtain ⟨failure, -, failed, -⟩ := Dependencies.find_eq_error reaches broken
  have searched := Dependencies.runOn_discover config.normalizer (host.working.follow path)
    workspace
  rw [failed] at searched
  exact ⟨failure, _, Work.runOn_bind_error searched, rfl⟩

/-- A host in the root directory that runs no commands. -/
def idleHost : Host :=
  ⟨[], ["tmp"], "id", false, fun files _ => ⟨files, "", .failed "no commands"⟩⟩

/-- A source behind a chain of imports does not parse, and the output directory is not made. -/
theorem Build.runOn_build_cyclicTree :
    ∃ failure after,
      (build idleHost { Config.default with normalize := false, output := "out" } "a").runOn
        ⟨Dependencies.cyclicTree [0x28], []⟩ = (.error failure, after) ∧
      after.files = Dependencies.cyclicTree [0x28] :=
  runOn_build_unparsed idleHost { Config.default with normalize := false, output := "out" } "a"
    ⟨Dependencies.cyclicTree [0x28], []⟩
    ⟨["c"], Dependencies.reaches_cyclicTree [0x28], Dependencies.not_parses_cyclicTree⟩

end FrenchNim
