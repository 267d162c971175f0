namespace FrenchNim

/-!
# The words of a script

A compiler may be a script of simple commands. This module splits the text of a
script into words and symbols. Every letter of a word remembers how it was
quoted, since that decides what it may still stand for.
-/

namespace Script

/-- How a letter is quoted. -/
inductive Quoting where
  /-- Not at all. -/
  | bare
  /-- By double quotes, between which parameters are still replaced. -/
  | double
  /-- So that it stands for itself. -/
  | literal
  deriving Repr, DecidableEq

/-- A letter of a word. -/
structure Letter where
  char : Char
  quoting : Quoting
  deriving Repr, DecidableEq

/-- A word of a script. -/
abbrev Word := List Letter

/-- What a script consists of. -/
inductive Symbol where
  | word (letters : Word)
  | newline
  | sequence
  | andThen
  | orElse
  | output (descriptor : Nat) (append : Bool)
  | input
  | duplicate
  | unsupported
  deriving Repr, DecidableEq

/-- What the characters at a place of a script belong to. -/
inductive Mode where
  | outside
  | escaped
  | single
  | double
  | doubleEscaped
  | comment
  deriving Repr, DecidableEq

/-- The part of a script that is read: the letters of an open word and the symbols, newest first. -/
structure Progress where
  word : Option Word
  symbols : List Symbol
  deriving Repr

namespace Progress

/-- Nothing is read yet. -/
def start : Progress := ⟨none, []⟩

/-- Open a word, if none is open. -/
def opened (progress : Progress) : Progress :=
  { progress with word := some (progress.word.getD []) }

/-- Add a letter to the open word. -/
def letter (progress : Progress) (char : Char) (quoting : Quoting) : Progress :=
  { progress with word := some (⟨char, quoting⟩ :: progress.word.getD []) }

/-- Close the open word, if there is one. -/
def closed (progress : Progress) : Progress :=
  match progress.word with
  | none => progress
  | some letters => ⟨none, .word letters.reverse :: progress.symbols⟩

/-- Add a symbol behind the open word. -/
def symbol (progress : Progress) (next : Symbol) : Progress :=
  { progress.closed with symbols := next :: progress.closed.symbols }

/-- The descriptor in front of an arrow, and what was read before it. -/
def descriptor (progress : Progress) : Nat × Progress :=
  match progress.word with
  | some [⟨'1', .bare⟩] => (1, { progress with word := none })
  | some [⟨'2', .bare⟩] => (2, { progress with word := none })
  | _ => (1, progress.closed)

/-- Add an arrow with its descriptor. -/
def arrow (progress : Progress) (append : Bool) : Progress :=
  progress.descriptor.2.symbol (.output progress.descriptor.1 append)

end Progress

/-- A character that a backslash takes the meaning from between double quotes. -/
def hasMeaningInQuotes (c : Char) : Bool :=
  c = '$' || c = '"' || c = '\\' || c = '\x60'

/-- A character that starts something this library does not run. -/
def isUnsupported (c : Char) : Bool :=
  c = '(' || c = ')' || c = '\x60' || c = '&' || c = '|'

/-- Read the characters of a script. There is nothing to run if a quote stays open. -/
def readSymbols (mode : Mode) (progress : Progress) : List Char → Option (List Symbol)
  | [] =>
      if mode = .single ∨ mode = .double ∨ mode = .doubleEscaped then
        none
      else
        some progress.closed.symbols.reverse
  | c :: rest =>
      match mode with
      | .comment =>
          if c = '\n' then
            readSymbols .outside (progress.symbol .newline) rest
          else
            readSymbols .comment progress rest
      | .single =>
          if c = '\'' then
            readSymbols .outside progress rest
          else
            readSymbols .single (progress.letter c .literal) rest
      | .double =>
          if c = '"' then
            readSymbols .outside progress rest
          else if c = '\\' then
            readSymbols .doubleEscaped progress rest
          else
            readSymbols .double (progress.letter c .double) rest
      | .doubleEscaped =>
          if c = '\n' then
            readSymbols .double progress rest
          else if hasMeaningInQuotes c then
            readSymbols .double (progress.letter c .literal) rest
          else
            readSymbols .double ((progress.letter '\\' .literal).letter c .literal) rest
      | .escaped =>
          if c = '\n' then
            readSymbols .outside progress rest
          else
            readSymbols .outside (progress.letter c .literal) rest
      | .outside =>
          match c, rest with
          | '&', '&' :: behind => readSymbols .outside (progress.symbol .andThen) behind
          | '|', '|' :: behind => readSymbols .outside (progress.symbol .orElse) behind
          | '>', '>' :: behind => readSymbols .outside (progress.arrow true) behind
          | '>', '&' :: '1' :: behind =>
              readSymbols .outside (progress.descriptor.2.symbol .duplicate) behind
          | '>', '&' :: '2' :: behind =>
              readSymbols .outside (progress.descriptor.2.symbol .duplicate) behind
          | '>', behind => readSymbols .outside (progress.arrow false) behind
          | '<', behind => readSymbols .outside (progress.symbol .input) behind
          | '\n', behind => readSymbols .outside (progress.symbol .newline) behind
          | ';', behind => readSymbols .outside (progress.symbol .sequence) behind
          | '\'', behind => readSymbols .single progress.opened behind
          | '"', behind => readSymbols .double progress.opened behind
          | '\\', behind => readSymbols .escaped progress behind
          | other, behind =>
              if other = ' ' ∨ other = '\t' then
                readSymbols .outside progress.closed behind
              else if other = '#' ∧ progress.word.isNone then
                readSymbols .comment progress behind
              else if isUnsupported other then
                readSymbols .outside (progress.symbol .unsupported) behind
              else
                readSymbols .outside (progress.letter other .bare) behind

/-- The symbols of a script. -/
def symbols? (text : String) : Option (List Symbol) :=
  readSymbols .outside .start text.toList

end Script

end FrenchNim
