import FrenchNim.Failure.Basic
import FrenchNim.Text.Canonical.Normalize

namespace FrenchNim

/-!
# From source to Nim

A source is normalized, cut into tokens, parsed and emitted. Every stage that is
passed leaves a record, and the first stage that fails decides the outcome. The
normalizer is a parameter: positions always refer to the text it returns.
-/

/-- The record of a stage that was passed. -/
inductive Stage where
  /-- The size of the normalized source in bytes. -/
  | normalized (size : Nat)
  /-- The number of tokens, the end of the input included. -/
  | lexed (tokens : Nat)
  /-- The number of declarations. -/
  | parsed (declarations : Nat)
  /-- The name of the standard library module and the size of the Nim code in bytes. -/
  | generated (library : String) (size : Nat)
  deriving Repr, DecidableEq

/-- How far a source came, and what became of it. -/
structure Run (α : Type) where
  stages : List Stage
  outcome : Except Failure α

/-- What a source is normalized with, if it is normalized at all. -/
abbrev Normalizer := Option (Source → Source)

namespace Normalizer

/-- The source that is cut into tokens. -/
def apply (normalizer : Normalizer) (code : Source) : Source :=
  match normalizer with
  | some prepare => prepare code
  | none => code

/-- The record of the normalization. -/
def stages (normalizer : Normalizer) (code : Source) : List Stage :=
  match normalizer with
  | some prepare => [.normalized (prepare code).byteSize]
  | none => []

end Normalizer

namespace Pipeline

/-- Parse a source that is already normalized. -/
def parsePrepared (stages : List Stage) (code : Source) : Run Program :=
  match lex code with
  | .error error => ⟨stages, .error (.ofParseFault code (.lexical error))⟩
  | .ok tokens =>
      let lexed := stages ++ [.lexed tokens.length]
      match parseTokens tokens with
      | .error error => ⟨lexed, .error (.ofParseFault code (.grammatical error))⟩
      | .ok program => ⟨lexed ++ [.parsed program.declarations.length], .ok program⟩

/-- Normalize and parse a source. -/
def runParse (normalizer : Normalizer) (code : Source) : Run Program :=
  parsePrepared (normalizer.stages code) (normalizer.apply code)

/-- Emit a program behind the stages that led to it. -/
def emit (stages : List Stage) (library : String) (program : Program) : Run String :=
  match generate library program with
  | .error node => ⟨stages, .error (.ofUnsupportedNode node)⟩
  | .ok code => ⟨stages ++ [.generated library code.utf8ByteSize], .ok code⟩

/-- Normalize, parse and emit a source. -/
def run (normalizer : Normalizer) (library : String) (code : Source) : Run String :=
  let parsing := runParse normalizer code
  match parsing.outcome with
  | .error failure => ⟨parsing.stages, .error failure⟩
  | .ok program => emit parsing.stages library program

/-- The program of a source. -/
def parse (normalizer : Normalizer) (code : Source) : Except Failure Program :=
  (runParse normalizer code).outcome

/-- The Nim code of a source. -/
def transpile (normalizer : Normalizer) (library : String) (code : Source) :
    Except Failure String :=
  (run normalizer library code).outcome

end Pipeline

/-- The normalizer of a setting. -/
def Normalizer.ofFlag (enabled : Bool) : Normalizer :=
  if enabled then some normalize else none

/-- The name of the standard library module where no other is chosen. -/
def standardLibrary : String := "std"

end FrenchNim
