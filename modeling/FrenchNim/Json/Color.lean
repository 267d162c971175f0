import FrenchNim.Json.Value

namespace FrenchNim

/-!
# Coloured JSON

Colours are put around the parts of a JSON text: keys, strings, the escapes
inside both, numbers, the three words, and punctuation. Commas between the
items of an array stay plain.
-/

namespace Json.Color

/-- The escape sequence that ends every colour. -/
def reset : List Char := "\x1b[0m".toList

/-- The colour of keys. -/
def keyStyle : List Char := "\x1b[1m\x1b[94m".toList
/-- The colour of strings. -/
def stringStyle : List Char := "\x1b[32m".toList
/-- The colour of numbers. -/
def numberStyle : List Char := "\x1b[33m".toList
/-- The colour of true and false. -/
def boolStyle : List Char := "\x1b[36m".toList
/-- The colour of null. -/
def nullStyle : List Char := "\x1b[2m".toList
/-- The colour of escapes inside strings. -/
def escapeStyle : List Char := "\x1b[35m".toList
/-- The colour of brackets, colons and the commas of objects. -/
def punctuationStyle : List Char := "\x1b[1m".toList

/-- An open bracket: whether it is that of an object, and whether a key comes next. -/
structure Frame where
  isObject : Bool
  atKey : Bool
  deriving Repr

/-- Where in a JSON text the colouring stands. -/
inductive State where
  | between
  | word
  | string (style : List Char) (escape : Option Nat) (odd : Bool)
  deriving Repr

/-- The colour of a word by its first character. -/
def wordStyle? (c : Char) : Option (List Char) :=
  if c.isDigit || c = '-' then some numberStyle
  else if c = 't' || c = 'f' then some boolStyle
  else if c = 'n' then some nullStyle
  else none

/-- A character that ends a word. -/
def endsWord (c : Char) : Bool :=
  c ≤ ' ' || c = ',' || c = ':' || c = ']' || c = '}'

/-- Punctuation in its colour. -/
def punctuation (c : Char) : List Char :=
  punctuationStyle ++ c :: reset

/-- Turn the innermost object from keys to values or back. -/
def toggle : List Frame → List Frame
  | [] => []
  | frame :: rest => { frame with atKey := !frame.atKey } :: rest

/-- Colour one character that stands outside strings and words. -/
def step (frames : List Frame) (c : Char) : List Char × List Frame × State :=
  if c = '"' then
    let style := if (frames.head?.map (·.atKey)).getD false then keyStyle else stringStyle
    (style ++ ['"'], frames, .string style none false)
  else if c = '{' || c = '[' then
    (punctuation c, ⟨c = '{', c = '{'⟩ :: frames, .between)
  else if c = '}' || c = ']' then
    (punctuation c, frames.drop 1, .between)
  else if (c = ':' || c = ',') && (frames.head?.map (·.isObject)).getD false then
    (punctuation c, toggle frames, .between)
  else
    match wordStyle? c with
    | some style => (style ++ [c], frames, .word)
    | none => ([c], frames, .between)

/--
Colour the remaining text, behind coloured text that is kept in reverse.

Inside a string, `escape` counts the characters that the current escape still
takes, and `odd` tells whether an odd number of backslashes was just read.
-/
def run (frames : List Frame) (state : State) (colored : List Char) : List Char → List Char
  | [] =>
      match state with
      | .word => colored.reverse ++ reset
      | _ => colored.reverse
  | c :: rest =>
      match state with
      | .between =>
          let (text, frames, state) := step frames c
          run frames state (text.reverse ++ colored) rest
      | .word =>
          if endsWord c then
            let (text, frames, state) := step frames c
            run frames state (text.reverse ++ reset.reverse ++ colored) rest
          else
            run frames .word (c :: colored) rest
      | .string style escape odd =>
          if c = '\\' then
            let taken := if rest.head? = some 'u' then 5 else 1
            let text := reset ++ escapeStyle ++ [c]
            run frames (.string style (some taken) (!odd)) (text.reverse ++ colored) rest
          else
            let closes := c = '"' && !odd
            match escape with
            | some 1 =>
                if closes then
                  run frames .between ((c :: reset ++ style ++ reset).reverse ++ colored) rest
                else
                  run frames (.string style none false) ((c :: reset ++ style).reverse ++ colored)
                    rest
            | some (count + 1) =>
                if closes then
                  run frames .between ((c :: reset).reverse ++ colored) rest
                else
                  run frames (.string style (some count) false) (c :: colored) rest
            | _ =>
                if closes then
                  run frames .between ((c :: reset).reverse ++ colored) rest
                else
                  run frames (.string style none false) (c :: colored) rest

end Json.Color

/-- A JSON text with colours. -/
def Json.colored (text : String) : String :=
  String.ofList (Json.Color.run [] .between [] text.toList)

end FrenchNim
