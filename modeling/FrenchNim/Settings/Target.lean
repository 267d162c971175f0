import FrenchNim.Failure.Basic
import FrenchNim.Text.Escaped

namespace FrenchNim

/-!
# Targets

The operating systems a program is compiled for. A target is its name; the names
a user may choose are the three known ones, in any case.
-/

/-- The operating system a program is compiled for. -/
structure Target where
  name : String
  deriving Repr, DecidableEq, Inhabited

namespace Target

/-- The target macOS. -/
def macos : Target := ⟨"macos"⟩

/-- The target Windows. -/
def windows : Target := ⟨"windows"⟩

/-- The target Linux. -/
def linux : Target := ⟨"linux"⟩

/-- The known targets. -/
def known : List Target := [macos, windows, linux]

/--
The lower case of a letter.

Only two letters outside ASCII have an ASCII lower case, the dotted capital I
and the Kelvin sign. Every other such letter spells no target in either case.
-/
def lowerCase (c : Char) : Char :=
  match c with
  | '\u0130' => 'i'
  | '\u212a' => 'k'
  | other => other.toLower

/-- The target a user means. -/
def read (name : String) : Except Failure Target :=
  let target : Target := ⟨String.ofList (name.toList.map lowerCase)⟩
  if target ∈ known then
    .ok target
  else
    .error (.user ("unknown target " ++ Escaped.quote name ++ ", expected one of " ++
      String.intercalate ", " (known.map (·.name))))

/-- What the Nim compiler calls a target. -/
def nimSystem (target : Target) : String :=
  if target = macos then "macosx" else target.name

/-- The file name of the binary of a module. -/
def binaryName (target : Target) (module : String) : String :=
  if target = windows then module ++ ".exe" else module

end Target

end FrenchNim
