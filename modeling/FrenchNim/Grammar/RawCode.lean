import FrenchNim.Text.Trim
import FrenchNim.Token.Basic

namespace FrenchNim

/-!
# Embedded code

Code between `@nim(` and the matching parenthesis is not parsed. It is written
back from its tokens: with one space between two tokens, but none before a
closing parenthesis or a comma and none behind an opening parenthesis or a
comma. Strings are written between double quotes as they are.
-/

namespace RawCode

/-- The text of a token inside embedded code. -/
def written (token : Token) : String :=
  match token.kind with
  | .string => "\"" ++ token.literal ++ "\""
  | _ => token.literal

/-- The space in front of a token, if the token before it asks for one. -/
def gap (wanted : Bool) (token : Token) : String :=
  if wanted && token.kind ≠ .parenClose && token.kind ≠ .comma then " " else ""

/-- A token asks for a space behind it. -/
def wantsGap (token : Token) : Bool :=
  token.kind ≠ .parenOpen && token.kind ≠ .comma

/-- Embedded code, the last token read, and the tokens behind it. -/
structure Captured where
  code : String
  last : Token
  rest : List Token

/--
Collect tokens up to the parenthesis that closes the code, or to the end.

`nesting` counts the parentheses opened inside the code.
-/
def collect (nesting : Nat) (wanted : Bool) (code : String) (last : Token) :
    List Token → Captured
  | [] => ⟨code, last, []⟩
  | token :: rest =>
      let written := code ++ gap wanted token ++ written token
      match token.kind with
      | .parenOpen => collect (nesting + 1) false written token rest
      | .parenClose =>
          match nesting with
          | 0 => ⟨code, token, rest⟩
          | nesting + 1 => collect nesting true written token rest
      | _ => collect nesting (wantsGap token) written token rest

theorem length_collect_rest_le (nesting : Nat) (wanted : Bool) (code : String) (last : Token)
    (tokens : List Token) :
    (collect nesting wanted code last tokens).rest.length ≤ tokens.length := by
  fun_induction collect nesting wanted code last tokens <;> simp_all <;> omega

/-- Capture the code behind an opening parenthesis. -/
def capture (opening : Token) (tokens : List Token) : Captured :=
  let captured := collect 0 false "" opening tokens
  { captured with code := trimText captured.code }

theorem length_capture_rest_le (opening : Token) (tokens : List Token) :
    (capture opening tokens).rest.length ≤ tokens.length :=
  length_collect_rest_le 0 false "" opening tokens

end RawCode

end FrenchNim
