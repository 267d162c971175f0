import FrenchNim.CommandLine.Commands
import FrenchNim.CommandLine.Flags
import FrenchNim.Failure.Basic
import FrenchNim.Failure.Excerpt
import FrenchNim.Failure.Report
import FrenchNim.Files.FileSystem
import FrenchNim.Files.Glob
import FrenchNim.Files.Location
import FrenchNim.Grammar.Declaration
import FrenchNim.Grammar.Error
import FrenchNim.Grammar.Expression
import FrenchNim.Grammar.Program
import FrenchNim.Grammar.RawCode
import FrenchNim.Grammar.Reading
import FrenchNim.Json.Color
import FrenchNim.Json.Pretty
import FrenchNim.Json.Value
import FrenchNim.Main
import FrenchNim.Nim.Emit
import FrenchNim.Nim.Module
import FrenchNim.Number.Double
import FrenchNim.Number.Layout
import FrenchNim.Number.Reading
import FrenchNim.Number.Shortest
import FrenchNim.Pipeline
import FrenchNim.Project.Build
import FrenchNim.Project.Compile
import FrenchNim.Project.Dependencies
import FrenchNim.Project.Library
import FrenchNim.Project.Source
import FrenchNim.Project.Workspace
import FrenchNim.Script.Command
import FrenchNim.Script.Run
import FrenchNim.Script.Tools
import FrenchNim.Script.Word
import FrenchNim.Session.Basic
import FrenchNim.Session.Commands
import FrenchNim.Settings.BlockText
import FrenchNim.Settings.Config
import FrenchNim.Settings.Document
import FrenchNim.Settings.Escape
import FrenchNim.Settings.Item
import FrenchNim.Settings.Scalar
import FrenchNim.Settings.Scan
import FrenchNim.Settings.Symbol
import FrenchNim.Settings.Target
import FrenchNim.Syntax.Element
import FrenchNim.Syntax.Json
import FrenchNim.Syntax.Range
import FrenchNim.Syntax.Render
import FrenchNim.Syntax.Tree
import FrenchNim.Text.Canonical.ClassTable
import FrenchNim.Text.Canonical.DecompositionTable
import FrenchNim.Text.Canonical.MarkCountTable
import FrenchNim.Text.Canonical.Normalize
import FrenchNim.Text.CodeTable
import FrenchNim.Text.Display.BreakTables
import FrenchNim.Text.Display.Width
import FrenchNim.Text.Display.WidthTables
import FrenchNim.Text.EditDistance
import FrenchNim.Text.Escaped
import FrenchNim.Text.Position
import FrenchNim.Text.PrintableTable
import FrenchNim.Text.Quoted
import FrenchNim.Text.Rune
import FrenchNim.Text.Terminal
import FrenchNim.Text.Trim
import FrenchNim.Time.Duration
import FrenchNim.Token.Basic
import FrenchNim.Token.Keyword
import FrenchNim.Token.Kind
import FrenchNim.Token.Lexer
import FrenchNim.Token.Piece
import FrenchNim.Proofs.Grammar.Induction
import FrenchNim.Proofs.Grammar.Trees
import FrenchNim.Proofs.Emission
import FrenchNim.Proofs.Syntax.Relocation
import FrenchNim.Proofs.Grammar.Continuation
import FrenchNim.Proofs.Token.Lines
import FrenchNim.Proofs.Finality
import FrenchNim.Proofs.Syntax.Tokens
import FrenchNim.Proofs.Token.Spelling
import FrenchNim.Proofs.Syntax.Spelling
import FrenchNim.Proofs.Syntax.Shape
import FrenchNim.Proofs.Syntax.Regrouping
import FrenchNim.Proofs.Grammar.Rereading
import FrenchNim.Proofs.Grammar.RereadingPrograms
import FrenchNim.Proofs.RoundTrip
import FrenchNim.Proofs.Nim.Positions
import FrenchNim.Proofs.Nim.Signs
import FrenchNim.Proofs.Nim.Operands
import FrenchNim.Proofs.Nim.Reach
import FrenchNim.Proofs.Nim.Rivals
import FrenchNim.Proofs.Nim.Regrouped
import FrenchNim.Proofs.Nim.RegroupedPrograms
import FrenchNim.Proofs.Formatting
import FrenchNim.Proofs.Grammar.Seam
import FrenchNim.Proofs.Project.Dependencies
import FrenchNim.Proofs.Project.Untouched
import FrenchNim.Proofs.Text.Places
import FrenchNim.Proofs.Token.Positions
import FrenchNim.Proofs.Grammar.Joining
import FrenchNim.Proofs.Token.Joining
import FrenchNim.Proofs.Text.Segments
import FrenchNim.Proofs.Transpilation
import FrenchNim.Proofs.Session.Agreement
import FrenchNim.Proofs.Files.Writing
import FrenchNim.Proofs.Project.Recipes
import FrenchNim.Proofs.Files.Paths
import FrenchNim.Proofs.Project.Bundling
import FrenchNim.Proofs.Project.Generated
import FrenchNim.Proofs.Project.Jobs
import FrenchNim.Proofs.Project.Overwriting
import FrenchNim.Proofs.Composition
import FrenchNim.Proofs.Nim.Literals
import FrenchNim.Proofs.Grammar.Refusals
import FrenchNim.Proofs.Acceptance
import FrenchNim.Proofs.Nim.Rows
import FrenchNim.Proofs.Nim.Lines
import FrenchNim.Proofs.Nim.Margins
import FrenchNim.Proofs.Nim.Headers
import FrenchNim.Proofs.Syntax.Walking
import FrenchNim.Proofs.Layout
import FrenchNim.Proofs.Syntax.Rendering
import FrenchNim.Proofs.Invariance
import FrenchNim.Proofs.Syntax.Nesting
import FrenchNim.Proofs.Token.Extents
import FrenchNim.Proofs.Grammar.Places
import FrenchNim.Proofs.Ranges
import FrenchNim.Proofs.Token.Written
import FrenchNim.Proofs.RawCode
import FrenchNim.Proofs.Grammar.Goals
import FrenchNim.Proofs.Grammar.Tracking
import FrenchNim.Proofs.Grammar.Completion
import FrenchNim.Proofs.Text.Lines
import FrenchNim.Proofs.Failure.Places
import FrenchNim.Proofs.Failure.Excerpt
import FrenchNim.Proofs.Project.ShownCode
import FrenchNim.Proofs.Session.Numbers
import FrenchNim.Proofs.Files.Texts
import FrenchNim.Proofs.Project.Imports
import FrenchNim.Proofs.Token.Openings
import FrenchNim.Proofs.Completion
import FrenchNim.Proofs.Nim.UnknownNodes
import FrenchNim.Proofs.Session.Opening
import FrenchNim.Proofs.Text.Encoding
import FrenchNim.Proofs.Token.Gaps
import FrenchNim.Proofs.Token.Unlexing
import FrenchNim.Proofs.Token.Quoting
import FrenchNim.Proofs.Grammar.Course
import FrenchNim.Proofs.Grammar.Depth
import FrenchNim.Proofs.Grammar.Standing
import FrenchNim.Proofs.Grammar.Operators
import FrenchNim.Proofs.Grammar.Parentheses
import FrenchNim.Proofs.Grammar.ClassBodies
import FrenchNim.Proofs.Syntax.Renaming
import FrenchNim.Proofs.SelfReference
import FrenchNim.Proofs.Token.Slices
import FrenchNim.Proofs.Grammar.Cursor
import FrenchNim.Proofs.Termination
import FrenchNim.Proofs.Grammar.Leaves
import FrenchNim.Proofs.LeafRanges
import FrenchNim.Proofs.Syntax.Desugaring
import FrenchNim.Proofs.ForLoops
import FrenchNim.Proofs.Token.Limit
import FrenchNim.Proofs.Token.Escapes
import FrenchNim.Proofs.Token.OpenStrings
import FrenchNim.Proofs.Text.EditScripts
import FrenchNim.Proofs.Grammar.Suggestions
