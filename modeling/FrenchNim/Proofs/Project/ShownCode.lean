import FrenchNim.CommandLine.Commands
import FrenchNim.Proofs.Failure.Places
import FrenchNim.Proofs.Project.Untouched

namespace FrenchNim

/-!
# The code that is shown for a file that does not parse

The positions of a parsing failure refer to the code that the normalizer made. A
failure about a source file holds the code that excerpts are taken from. These
two are the same if the file was to be transpiled. The search for dependencies
and the commands on one file keep the content of the file as it was read, so
there they are the same only if the normalizer changes nothing.
-/

/--
The code that excerpts are taken from, and the code that the positions refer to,
of a failure about a source file that does not parse.
-/
def Failure.codes? : Failure → Option (Source × Source)
  | .source _ shown (.parsing meant _) => some (shown, meant)
  | _ => none

namespace Pipeline

variable {normalizer : Normalizer} {code : Source} {failure : Failure}

/-- A parsing failure is about the normalized code. -/
theorem parsing_of_parse
    (failed : parse normalizer code = .error failure) :
    ∃ children, failure = .parsing (normalizer.apply code) children := by
  obtain ⟨fault, -, rfl⟩ := exists_fault_of_parse failed
  exact ⟨_, Failure.ofParseFault_eq _ fault⟩

end Pipeline

variable {normalizer : Normalizer} {failure : Failure} {shown meant : Source}

/-- The search for dependencies shows the content of the file. -/
theorem Dependencies.codes?_of_importsOf
    {files : FileSystem}
    {file : Location}
    (failed : importsOf normalizer files file = .error failure)
    (codes : failure.codes? = some (shown, meant)) :
    ∃ content, files.read file = .ok content ∧ shown = .ofBytes content ∧
      meant = normalizer.apply shown := by
  unfold importsOf at failed
  cases stored : files.read file with
  | error error =>
      rw [stored] at failed
      cases failed
      cases codes
  | ok content =>
      rw [stored] at failed
      dsimp only at failed
      cases parsed : Pipeline.parse normalizer (.ofBytes content) with
      | ok program =>
          rw [parsed] at failed
          cases failed
      | error cause =>
          rw [parsed] at failed
          cases failed
          obtain ⟨children, rfl⟩ := Pipeline.parsing_of_parse parsed
          cases codes
          exact ⟨content, rfl, rfl, rfl⟩

/-- Transpiling a file shows the code that the positions refer to. -/
theorem Project.codes?_of_transpileContent
    {library path : String}
    {content : Bytes}
    (failed : transpileContent normalizer library path content = .error failure)
    (codes : failure.codes? = some (shown, meant)) :
    shown = meant ∧ meant = normalizer.apply (.ofBytes content) := by
  unfold transpileContent at failed
  dsimp only at failed
  cases transpiled : Pipeline.transpile normalizer library (.ofBytes content) with
  | ok generated =>
      rw [transpiled] at failed
      cases failed
  | error cause =>
      rw [transpiled] at failed
      cases failed
      obtain ⟨children, rfl⟩ :=
        Pipeline.parsing_of_parse (Pipeline.parse_of_transpile transpiled)
      cases codes
      exact ⟨rfl, rfl⟩

/-- Transpiling a file that can be read fails as its content does. -/
theorem Project.codes?_of_transpileFile
    {library : String}
    {source : Address}
    {workspace after : Workspace}
    (failed : (transpileFile normalizer library source).runOn workspace = (.error failure, after))
    (codes : failure.codes? = some (shown, meant)) :
    ∃ content, workspace.files.read source.location = .ok content ∧
      meant = normalizer.apply (.ofBytes content) ∧ shown = meant := by
  have ran : (Work.read source).runOn workspace =
      (.ok ((workspace.files.read source.location).mapError (·.message source.text)),
        workspace) := rfl
  unfold transpileFile at failed
  rw [Work.runOn_bind_ok ran] at failed
  cases stored : workspace.files.read source.location with
  | error error =>
      rw [stored] at failed
      cases failed
      cases codes
  | ok content =>
      rw [stored] at failed
      dsimp only [Except.mapError] at failed
      cases made : transpileContent normalizer library source.text content with
      | ok generated =>
          rw [made] at failed
          cases failed
      | error cause =>
          rw [made] at failed
          cases failed
          obtain ⟨same, isMeant⟩ := codes?_of_transpileContent made codes
          exact ⟨content, rfl, isMeant, same⟩

/-- A command on one file shows the content of the file. -/
theorem CommandLine.codes?_of_soleProgram
    {host : Host}
    {files : FileSystem}
    {operands : List String}
    (failed : soleProgram host files operands = .error failure)
    (codes : failure.codes? = some (shown, meant)) :
    ∃ path content, operands = [path] ∧ files.readThrough host.working path = .ok content ∧
      shown = .ofBytes content ∧ meant = Config.default.normalizer.apply shown := by
  rcases operands with _ | ⟨path, _ | ⟨other, rest⟩⟩
  · cases failed
    cases codes
  · unfold soleProgram at failed
    cases stored : files.readThrough host.working path with
    | error error =>
        simp only [stored] at failed
        cases failed
        cases codes
    | ok content =>
        simp only [stored] at failed
        cases parsed : Pipeline.parse Config.default.normalizer (.ofBytes content) with
        | ok program =>
            rw [parsed] at failed
            cases failed
        | error cause =>
            rw [parsed] at failed
            cases failed
            obtain ⟨children, rfl⟩ := Pipeline.parsing_of_parse parsed
            cases codes
            exact ⟨path, content, rfl, stored, rfl, rfl⟩
  · cases failed
    cases codes

/-! ## Files that do not parse -/

section Broken

variable {content : Bytes} {cause : Failure}

/-- Looking for dependencies shows the bytes of an entry that does not parse. -/
theorem Dependencies.runOn_discover_of_broken
    {entry : Location}
    {workspace : Workspace}
    (stored : workspace.files.read entry = .ok content)
    (broken : Pipeline.parse normalizer (.ofBytes content) = .error cause) :
    (discover normalizer entry).runOn workspace =
      (.error (.source entry.text (.ofBytes content) cause), workspace) := by
  have failed : importsOf normalizer workspace.files entry =
      .error (.source entry.text (.ofBytes content) cause) := by
    simp only [importsOf, stored, broken]
  rw [runOn_discover, find, failed]
  simp only [List.append_nil]

/-- Transpiling a file that does not parse shows its normalized code. -/
theorem Project.runOn_transpileFile_of_broken
    {library : String}
    {source : Address}
    {workspace : Workspace}
    (stored : workspace.files.read source.location = .ok content)
    (broken : Pipeline.parse normalizer (.ofBytes content) = .error cause) :
    (transpileFile normalizer library source).runOn workspace =
      (.error (.source source.text (normalizer.apply (.ofBytes content)) cause), workspace) := by
  have read : (Work.read source).runOn workspace = (.ok (.ok content), workspace) :=
    congrArg (fun found => (Except.ok (found.mapError (·.message source.text)), workspace)) stored
  have failed : transpileContent normalizer library source.text content =
      .error (.source source.text (normalizer.apply (.ofBytes content)) cause) := by
    obtain ⟨children, rfl⟩ := Pipeline.parsing_of_parse broken
    unfold Pipeline.parse at broken
    simp only [transpileContent, Pipeline.transpile, Pipeline.run, broken, reportedCode]
  unfold transpileFile
  rw [Work.runOn_bind_ok read]
  simp only [failed]
  rfl

/-- Formatting a file that does not parse shows its bytes. -/
theorem CommandLine.soleProgram_of_broken
    {host : Host}
    {files : FileSystem}
    {path : String}
    (stored : files.readThrough host.working path = .ok content)
    (broken : Pipeline.parse Config.default.normalizer (.ofBytes content) = .error cause) :
    soleProgram host files [path] = .error (.source path (.ofBytes content) cause) := by
  simp only [soleProgram, stored, broken]

end Broken

/--
Positions always refer to the normalized content of the file. Transpiling a file
shows this code; the search for dependencies and the commands on one file show
the content as it was read.
-/
theorem codes_of_failures (normalizer : Normalizer) (failure : Failure) (shown meant : Source)
    (codes : failure.codes? = some (shown, meant)) :
    (∀ entry workspace after,
      (Dependencies.discover normalizer entry).runOn workspace = (.error failure, after) →
        ∃ file content,
          Dependencies.Reaches workspace.files
            (Dependencies.importsOf normalizer workspace.files) entry file ∧
          workspace.files.read file = .ok content ∧
          shown = .ofBytes content ∧ meant = normalizer.apply (.ofBytes content)) ∧
    (∀ library source workspace after,
      (Project.transpileFile normalizer library source).runOn workspace =
          (.error failure, after) →
        ∃ content, workspace.files.read source.location = .ok content ∧
          shown = normalizer.apply (.ofBytes content) ∧
          meant = normalizer.apply (.ofBytes content)) ∧
    (∀ host files operands,
      CommandLine.soleProgram host files operands = .error failure →
        ∃ path content, operands = [path] ∧
          files.readThrough host.working path = .ok content ∧
          shown = .ofBytes content ∧
          meant = Config.default.normalizer.apply (.ofBytes content)) := by
  refine ⟨?_, ?_, ?_⟩
  · intro entry workspace after failed
    rw [Dependencies.runOn_discover] at failed
    obtain ⟨stopped, -⟩ := Prod.mk.inj failed
    rcases Dependencies.find_outcome normalizer workspace.files entry with
      ⟨found, listed, -⟩ | ⟨cause, file, broken, reaches, unusable⟩
    · rw [listed] at stopped
      cases stopped
    · rw [broken] at stopped
      cases stopped
      obtain ⟨content, stored, rfl, isMeant⟩ :=
        Dependencies.codes?_of_importsOf unusable codes
      exact ⟨file, content, reaches, stored, rfl, isMeant⟩
  · intro library source workspace after failed
    obtain ⟨content, stored, isMeant, same⟩ := Project.codes?_of_transpileFile failed codes
    exact ⟨content, stored, same.trans isMeant, isMeant⟩
  · intro host files operands failed
    obtain ⟨path, content, sole, stored, rfl, isMeant⟩ :=
      CommandLine.codes?_of_soleProgram failed codes
    exact ⟨path, content, sole, stored, rfl, isMeant⟩

/-! ## A file that the normalizer changes -/

/-- A comment with a letter and an accent of its own, and a parenthesis that nothing opens. -/
def accentContent : Bytes :=
  [0x2F, 0x2A, 0x65, 0xCC, 0x81, 0x2A, 0x2F, 0x29, 0x0A]

/-- The accent is composed with its letter. -/
def composedAccent : Source :=
  .ofBytes [0x2F, 0x2A, 0xC3, 0xA9, 0x2A, 0x2F, 0x29, 0x0A]

/-- The parenthesis is the sixth character of its line, not the seventh. -/
def accentError : SyntaxError :=
  { message := ""
    got := ")"
    gotKind := .parenClose
    position := ⟨6, 1, 5⟩
    hint := "" }

def accentTree : FileSystem :=
  ⟨[(["a.fr"], .file accentContent false)]⟩

/-- Normalization composes the accent. -/
theorem normalize_accentContent :
    Config.default.normalizer.apply (.ofBytes accentContent) = composedAccent := by
  decide +kernel

/-- The stored file is not normalized. -/
theorem accentContent_ne_composed : Source.ofBytes accentContent ≠ composedAccent := by
  decide +kernel

/-- The normalized code does not parse. -/
theorem parse_composedAccent :
    Pipeline.parse none composedAccent = .error (.parsing composedAccent [.unfit accentError]) := by
  cbv

/-- So the stored file does not parse. -/
theorem parse_accentContent :
    Pipeline.parse Config.default.normalizer (.ofBytes accentContent) =
      .error (.parsing composedAccent [.unfit accentError]) := by
  rw [Pipeline.parse_eq_none, normalize_accentContent, parse_composedAccent]

/-- The failure of the file with the given code. -/
def accentFailure (path : String) (shown : Source) : Failure :=
  .source path shown (.parsing composedAccent [.unfit accentError])

/-- Looking for its dependencies shows the stored code. -/
theorem discover_accentTree :
    (Dependencies.discover Config.default.normalizer ["a.fr"]).runOn ⟨accentTree, []⟩ =
      (.error (accentFailure (Location.text ["a.fr"]) (.ofBytes accentContent)),
        ⟨accentTree, []⟩) :=
  Dependencies.runOn_discover_of_broken rfl parse_accentContent

/-- Transpiling it shows the normalized code. -/
theorem transpileFile_accentTree :
    (Project.transpileFile Config.default.normalizer "std" (.ofLocation ["a.fr"])).runOn
        ⟨accentTree, []⟩ =
      (.error (accentFailure (Location.text ["a.fr"]) composedAccent), ⟨accentTree, []⟩) := by
  rw [← normalize_accentContent]
  exact Project.runOn_transpileFile_of_broken rfl parse_accentContent

/-- Reading it alone shows the stored code. -/
theorem soleProgram_accentTree :
    CommandLine.soleProgram idleHost accentTree ["/a.fr"] =
      .error (accentFailure "/a.fr" (.ofBytes accentContent)) :=
  CommandLine.soleProgram_of_broken (by cbv) parse_accentContent

/-- What the theorem says about the three failures of the file with the accent. -/
theorem codes_of_failures_accentTree :
    (∃ file content,
      Dependencies.Reaches accentTree
        (Dependencies.importsOf Config.default.normalizer accentTree) ["a.fr"] file ∧
      accentTree.read file = .ok content ∧
      Source.ofBytes accentContent = .ofBytes content ∧
      composedAccent = Config.default.normalizer.apply (.ofBytes content)) ∧
    (∃ content, accentTree.read ["a.fr"] = .ok content ∧
      composedAccent = Config.default.normalizer.apply (.ofBytes content) ∧
      composedAccent = Config.default.normalizer.apply (.ofBytes content)) ∧
    ∃ path content, ["/a.fr"] = [path] ∧
      accentTree.readThrough idleHost.working path = .ok content ∧
      Source.ofBytes accentContent = .ofBytes content ∧
      composedAccent = Config.default.normalizer.apply (.ofBytes content) :=
  ⟨(codes_of_failures Config.default.normalizer _ _ _ rfl).1 _ _ _ discover_accentTree,
    (codes_of_failures Config.default.normalizer _ _ _ rfl).2.1 _ _ _ _ transpileFile_accentTree,
    (codes_of_failures Config.default.normalizer _ _ _ rfl).2.2 _ _ _ soleProgram_accentTree⟩

/--
The search for dependencies and the commands on one file show another code than
the one that the positions refer to.
-/
theorem codes?_differ_accentTree :
    (∃ failure after shown meant,
      (Dependencies.discover Config.default.normalizer ["a.fr"]).runOn ⟨accentTree, []⟩ =
        (.error failure, after) ∧
      failure.codes? = some (shown, meant) ∧ shown ≠ meant) ∧
    ∃ failure shown meant,
      CommandLine.soleProgram idleHost accentTree ["/a.fr"] = .error failure ∧
      failure.codes? = some (shown, meant) ∧ shown ≠ meant :=
  ⟨⟨_, _, _, _, discover_accentTree, rfl, accentContent_ne_composed⟩,
    ⟨_, _, _, soleProgram_accentTree, rfl, accentContent_ne_composed⟩⟩

end FrenchNim
