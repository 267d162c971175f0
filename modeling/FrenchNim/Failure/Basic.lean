import FrenchNim.Grammar.Program
import FrenchNim.Nim.Module

namespace FrenchNim

/-!
# Failures

Everything that can go wrong, from a misspelled keyword to a failing compiler.
A failure may stand around other failures: it wraps one, joins several side by
side, or is the parent of children that are reported one by one.
-/

/-- A failure. -/
inductive Failure where
  /-- A failure that is nobody's fault in particular. -/
  | plain (message : String)
  /-- A mistake of the user. -/
  | user (message : String)
  /-- A mistake of the user with a cause. -/
  | userCause (cause : Failure)
  /-- A mistake inside the program. -/
  | internal (message : String)
  /-- A mistake inside the program with a cause. -/
  | internalCause (cause : Failure)
  /-- A place in the program that should never be reached. -/
  | unreachable
  /-- A message in front of a cause. -/
  | wrapped (message : String) (cause : Failure)
  /-- Failures side by side. -/
  | joined (causes : List Failure)
  /-- A failure with children. -/
  | parent (message : String) (children : List Failure)
  /-- A failure at a range of the source, perhaps with a second message. -/
  | positioned (message : String) (span : Span) (secondary? : Option String)
  /-- A failure with a second message. -/
  | hinted (message : String) (secondary : String)
  /-- A token that fits no rule of the grammar. -/
  | unfit (error : SyntaxError)
  /-- A string without an end. -/
  | unterminatedString (start : Position) (lastLine : Int)
  /-- An expression that is nested too deeply. -/
  | tooDeep (position : Position)
  /-- More tokens than are admitted. -/
  | tokenLimit (start : Position)
  /-- A source that does not parse. -/
  | parsing (code : Source) (children : List Failure)
  /-- A source file that cannot be used. -/
  | source (path : String) (code : Source) (cause : Failure)
  /-- A compiler that failed, with what it printed. -/
  | compilation (output : String) (cause : Failure)
  /-- A command that ran out of time. -/
  | deadline (limit : String)
  /-- An element that a traversal does not know. -/
  | unsupportedElement (kind : ElementKind) (span : Span)
  /-- A node that has no Nim form. -/
  | unsupportedNode (kind : ElementKind) (span : Span)
  /-- A configuration that cannot be read. -/
  | malformedConfiguration
  /-- A request for help, which is answered by the usage text alone. -/
  | helpRequested

namespace Failure

/-- A lexical error as a failure. -/
def ofLexError : LexError → Failure
  | .unterminatedString start lastLine => .unterminatedString start lastLine
  | .tokenLimit start => .tokenLimit start

/-- A grammar error as a failure. -/
def ofGrammarError : GrammarError → Failure
  | .unfit error => .unfit error
  | .tooDeep position => .tooDeep position

/-- The failure to parse a source. -/
def ofParseFault (code : Source) : ParseFault → Failure
  | .lexical error => .parsing code [ofLexError error]
  | .grammatical error => .parsing code [ofGrammarError error]

/-- The failure to emit a node. -/
def ofUnsupportedNode (node : UnsupportedNode) : Failure :=
  .unsupportedNode node.kind node.span

mutual

/-- The failure was caused by the user: it says so itself, or something inside it does. -/
def isUser : Failure → Bool
  | user _ | userCause _ | unfit _ | unterminatedString _ _ | tooDeep _ | tokenLimit _
  | parsing _ _ => true
  | internalCause cause => isUser cause
  | wrapped _ cause => isUser cause
  | parent _ children => anyUser children
  | source _ _ cause => isUser cause
  | compilation _ cause => isUser cause
  | _ => false

/-- One of the failures was caused by the user. -/
def anyUser : List Failure → Bool
  | [] => false
  | first :: rest => isUser first || anyUser rest

end

mutual

/-- The failure was caused inside the program: it says so itself, or something inside it does. -/
def isInternal : Failure → Bool
  | internal _ | internalCause _ | unreachable | unsupportedElement _ _
  | unsupportedNode _ _ => true
  | userCause cause => isInternal cause
  | wrapped _ cause => isInternal cause
  | parent _ children => anyInternal children
  | parsing _ children => anyInternal children
  | source _ _ cause => isInternal cause
  | compilation _ cause => isInternal cause
  | _ => false

/-- One of the failures was caused inside the program. -/
def anyInternal : List Failure → Bool
  | [] => false
  | first :: rest => isInternal first || anyInternal rest

end

mutual

/-- Parsing failed because the input ended too early. -/
def isIncomplete : Failure → Bool
  | parsing _ children => anyIncomplete children
  | unfit error => error.gotKind = .endOfInput
  | unterminatedString _ _ => true
  | _ => false

/-- One of the failures is an early end of the input. -/
def anyIncomplete : List Failure → Bool
  | [] => false
  | first :: rest => isIncomplete first || anyIncomplete rest

end

/-- The range a failure points at. -/
def span? : Failure → Option Span
  | positioned _ span _ => some span
  | unfit error => some ⟨error.position, error.position⟩
  | unterminatedString start _ => some ⟨start, start⟩
  | tooDeep position => some ⟨position, position⟩
  | unsupportedElement _ span => some span
  | unsupportedNode _ span => some span
  | _ => none

/-- The second message of a failure, empty if there is none. -/
def secondary : Failure → String
  | positioned _ _ secondary? => secondary?.getD ""
  | hinted _ secondary => secondary
  | unfit error => error.hint
  | tooDeep _ => "split the expression into multiple variable declarations"
  | _ => ""

mutual

/-- The first source failure in the chain of causes. -/
def firstSource? : Failure → Option (String × Source × Failure)
  | source path code cause => some (path, code, cause)
  | userCause cause => firstSource? cause
  | internalCause cause => firstSource? cause
  | wrapped _ cause => firstSource? cause
  | joined causes => firstSourceAmong? causes
  | parsing _ children => firstSourceAmong? children
  | compilation _ cause => firstSource? cause
  | _ => none

/-- The first source failure among several chains. -/
def firstSourceAmong? : List Failure → Option (String × Source × Failure)
  | [] => none
  | first :: rest =>
      match firstSource? first with
      | some found => some found
      | none => firstSourceAmong? rest

end

end Failure

end FrenchNim
