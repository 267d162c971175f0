import FrenchNim.Pipeline
import FrenchNim.Settings.Document
import FrenchNim.Settings.Target
import FrenchNim.Time.Duration

namespace FrenchNim

/-!
# Configurations

A configuration says how programs are built. It starts from the defaults, is
changed by a settings file, and has its gaps filled before it is used.
-/

/-- How many files are worked on at a time. -/
inductive Jobs where
  /-- As many as the machine has processors. -/
  | processors
  | count (number : Int)
  deriving Repr, DecidableEq

/-- How programs are built. -/
structure Config where
  /-- The name of the standard library module. If it is empty, every build invents one. -/
  library : String
  /-- The directory of the standard library sources, empty if there is none. -/
  libraryDirectory : String
  /-- The directory of the generated files. If it is empty, they stand beside their sources. -/
  output : String
  target : Target
  compile : Bool
  compiler : String
  /-- How long the compiler may run. -/
  timeout : Duration
  jobs : Jobs
  normalize : Bool
  deriving Repr, DecidableEq

namespace Config

/-- The compiler where no other is chosen. -/
def defaultCompiler : String := "nim"

/-- How long a compiler may run where nothing else is chosen. -/
def defaultTimeout : Duration := ⟨5 * Duration.minute⟩

/-- The file name of the configuration that is used if it exists. -/
def fileName : String := "fr2nim.yaml"

/-- The configuration where nothing is chosen. -/
def default : Config :=
  { library := ""
    libraryDirectory := ""
    output := ""
    target := .linux
    compile := false
    compiler := defaultCompiler
    timeout := defaultTimeout
    jobs := .processors
    normalize := true }

/-- The configuration of which nothing is set. -/
def empty : Config :=
  { library := ""
    libraryDirectory := ""
    output := ""
    target := ⟨""⟩
    compile := false
    compiler := ""
    timeout := ⟨0⟩
    jobs := .count 0
    normalize := false }

/-- At least one job. -/
def atLeastOne : Jobs → Jobs
  | .processors => .processors
  | .count number => if number < 1 then .count 1 else .count number

/-- The configuration with its gaps filled. -/
def completed (config : Config) : Config :=
  { config with
    target := if config.target.name = "" then default.target else config.target
    compiler := if config.compiler = "" then default.compiler else config.compiler
    timeout := if config.timeout.nanoseconds ≤ 0 then default.timeout else config.timeout
    jobs := atLeastOne config.jobs }

/-- What sources are normalized with. -/
def normalizer (config : Config) : Normalizer :=
  Normalizer.ofFlag config.normalize

/-! ## Settings files -/

/-- The scalar of a setting, nothing if the setting is missing. -/
def setting? (entries : List (String × SettingValue)) (key : String) : Option Scalar :=
  match entries.lookup key with
  | none => some .null
  | some (.scalar value) => some value
  | some .collection => none

/-- A setting that is a text; empty if it is missing. -/
def text (entries : List (String × SettingValue)) (key : String) : Except Failure String :=
  match setting? entries key with
  | some value => .ok value.toText
  | none => .error .malformedConfiguration

/-- A setting that is a truth value. -/
def flag? (entries : List (String × SettingValue)) (key : String) :
    Except Failure (Option Bool) :=
  match (setting? entries key).bind Scalar.toBool? with
  | some value => .ok value
  | none => .error .malformedConfiguration

/-- A setting that is an integer. -/
def integer? (entries : List (String × SettingValue)) (key : String) :
    Except Failure (Option Int) :=
  match (setting? entries key).bind Scalar.toInteger? with
  | some value => .ok value
  | none => .error .malformedConfiguration

/-- The second text, unless it is empty. -/
def override (current chosen : String) : String :=
  if chosen = "" then current else chosen

/-- The target of a setting. -/
def chooseTarget (name : String) : Except Failure Target :=
  if name = "" then .ok default.target else Target.read name

/-- The time limit of a setting. -/
def chooseTimeout (written : String) : Except Failure Duration :=
  if written = "" then
    .ok default.timeout
  else
    (Duration.read written).mapError fun fault =>
      .plain ("invalid timeout " ++ Escaped.quote written ++ ": " ++ fault.message written)

/-- The number of jobs of a setting. Numbers that are not positive choose nothing. -/
def chooseJobs : Option Int → Jobs
  | some number => if 0 < number then .count number else default.jobs
  | none => default.jobs

/-- The configuration that a settings file describes. -/
def read (settings : String) : Except Failure Config := do
  match Settings.read? settings with
  | none => throw .malformedConfiguration
  | some entries =>
      let library ← text entries "prefix"
      let libraryDirectory ← text entries "stdlib"
      let output ← text entries "output"
      let targetName ← text entries "target"
      let compile? ← flag? entries "compile"
      let compiler ← text entries "compiler"
      let timeoutText ← text entries "timeout"
      let jobs? ← integer? entries "jobs"
      let normalize? ← flag? entries "normalize"
      let target ← chooseTarget targetName
      let timeout ← chooseTimeout timeoutText
      pure
        { library := library
          libraryDirectory := libraryDirectory
          output := output
          target := target
          compile := compile?.getD default.compile
          compiler := override default.compiler compiler
          timeout := timeout
          jobs := chooseJobs jobs?
          normalize := normalize?.getD default.normalize }

end Config

end FrenchNim
