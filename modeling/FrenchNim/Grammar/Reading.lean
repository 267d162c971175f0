import FrenchNim.Grammar.Error
import FrenchNim.Syntax.Tree

namespace FrenchNim

/-!
# Reading from a token list

The rules of the grammar read from the front of a list of tokens that does not
include the end of the input; the token of the end is passed along for error
reports. A rule that succeeds returns what it read and the remaining tokens,
with the proof that they are fewer. This is what makes the grammar total.
-/

/-- What a rule read from a token list, and the fewer tokens that remain. -/
structure Progress (α : Type) (tokens : List Token) where
  value : α
  rest : List Token
  shorter : rest.length < tokens.length

/-- What an optional rule read from a token list, and the tokens that remain. -/
structure Advance (α : Type) (tokens : List Token) where
  value : α
  rest : List Token
  notLonger : rest.length ≤ tokens.length

/-- The outcome of a rule that reads at least one token. -/
abbrev Reading (α : Type) (tokens : List Token) := Except GrammarError (Progress α tokens)

/-- The outcome of a rule that may read nothing. -/
abbrev OptionalReading (α : Type) (tokens : List Token) := Except GrammarError (Advance α tokens)

namespace Progress

/-- The same progress with another value. -/
def map {tokens : List Token} (change : α → β) (progress : Progress α tokens) :
    Progress β tokens :=
  ⟨change progress.value, progress.rest, progress.shorter⟩

/-- What was read behind a token, as seen from that token. -/
def behindToken {tokens : List Token} (progress : Progress α tokens) (token : Token) :
    Progress α (token :: tokens) :=
  ⟨progress.value, progress.rest, Nat.lt_succ_of_lt progress.shorter⟩

/-- What was read from the rest of a list, as seen from the whole list. -/
def after {tokens behind : List Token} (progress : Progress α behind)
    (first : behind.length < tokens.length) : Progress α tokens :=
  ⟨progress.value, progress.rest, Nat.lt_trans progress.shorter first⟩

/-- What was read from the rest of a list that may be the whole list. -/
def afterOptional {tokens behind : List Token} (progress : Progress α behind)
    (first : behind.length ≤ tokens.length) : Progress α tokens :=
  ⟨progress.value, progress.rest, Nat.lt_of_lt_of_le progress.shorter first⟩

/-- Fewer tokens are not more tokens. -/
def toAdvance {tokens : List Token} (progress : Progress α tokens) : Advance α tokens :=
  ⟨progress.value, progress.rest, Nat.le_of_lt progress.shorter⟩

end Progress

namespace Advance

/-- Reading nothing. -/
def nothing (value : α) (tokens : List Token) : Advance α tokens :=
  ⟨value, tokens, Nat.le_refl tokens.length⟩

/-- What was read behind a token, as seen from that token. -/
def behindToken {tokens : List Token} (advance : Advance α tokens) (token : Token) :
    Progress α (token :: tokens) :=
  ⟨advance.value, advance.rest, Nat.lt_succ_of_le advance.notLonger⟩

/-- What was read from the rest of a list, as seen from the whole list. -/
def after {tokens behind : List Token} (advance : Advance α behind)
    (first : behind.length < tokens.length) : Progress α tokens :=
  ⟨advance.value, advance.rest, Nat.lt_of_le_of_lt advance.notLonger first⟩

/-- What was read from the rest of a list that may be the whole list. -/
def afterOptional {tokens behind : List Token} (advance : Advance α behind)
    (first : behind.length ≤ tokens.length) : Advance α tokens :=
  ⟨advance.value, advance.rest, Nat.le_trans advance.notLonger first⟩

end Advance

namespace Grammar

/-- The token a rule looks at: the first one, or the end of the input. -/
def current (final : Token) (tokens : List Token) : Token :=
  tokens.headD final

/-- Drop line breaks. -/
def skipNewlines (tokens : List Token) : List Token :=
  tokens.dropWhile (·.kind = .newline)

theorem length_skipNewlines_le (tokens : List Token) :
    (skipNewlines tokens).length ≤ tokens.length := by
  induction tokens with
  | nil =>
      simp [skipNewlines]
  | cons first rest inductionHypothesis =>
      unfold skipNewlines at *
      rw [List.dropWhile_cons]
      split
      · simp
        omega
      · simp

/-- Reading the first token. -/
def takeFirst (value : α) (token : Token) (rest : List Token) : Progress α (token :: rest) :=
  ⟨value, rest, Nat.lt_succ_self rest.length⟩

/-- Read one token of the expected kind. -/
def expect (final : Token) (expectation : Expectation) (tokens : List Token) :
    Reading Token tokens :=
  match tokens with
  | [] => .error (.expected expectation final)
  | first :: rest =>
      if first.kind = expectation.kind then
        .ok (takeFirst first first rest)
      else
        .error (.expected expectation first)

/-- The name a token spells. -/
def identifierOf (token : Token) : Identifier :=
  ⟨token.literal, token.span.first⟩

/-- Read a name. -/
def expectName (final : Token) (expectation : Expectation) (tokens : List Token) :
    Reading Identifier tokens := do
  let token ← expect final expectation tokens
  return token.map identifierOf

/-- Read names separated by commas, behind names that are already read, newest first. -/
def moreParameters (final : Token) (read : List Identifier) (tokens : List Token) :
    Reading (List Identifier) tokens := do
  let ⟨name, rest, shorter⟩ ← expectName final .parameterName tokens
  match rest, shorter with
  | [], shorter => return ⟨(name :: read).reverse, [], shorter⟩
  | comma :: behind, shorter =>
      if comma.kind = .comma then
        let names ← moreParameters final (name :: read) behind
        return (names.behindToken comma).after shorter
      else
        return ⟨(name :: read).reverse, comma :: behind, shorter⟩
  termination_by tokens.length
  decreasing_by (simp only [List.length_cons] at *; omega)

/-- Read a list of parameters with its parentheses. -/
def parameters (final : Token) (tokens : List Token) : Reading (List Identifier) tokens := do
  let ⟨_, inner, opened⟩ ← expect final .parenOpen tokens
  if (current final inner).kind = .parenClose then
    let closing ← expect final .parenClose inner
    return (closing.map fun _ => []).after opened
  else
    let ⟨names, behind, read⟩ ← moreParameters final [] inner
    let closing ← expect final .parenClose behind
    return ((closing.map fun _ => names).after read).after opened

end Grammar

end FrenchNim
