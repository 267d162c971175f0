import FrenchNim.Text.Position
import FrenchNim.Token.Keyword

namespace FrenchNim

/-!
# Cutting a text into pieces

The scanner repeatedly cuts one piece off the head of the text. A piece is a
token, skipped text, or a string that never ends. Each piece carries the runes
it covers, so the pieces of a text always concatenate to the text.
-/

/-- A letter of the French alphabet outside ASCII. -/
def accentedLetters : List Char :=
  "àâäéèêëïîôöùûüÿçñÀÂÄÉÈÊËÏÎÔÖÙÛÜŸÇÑ".toList

/-- A character that may start a word. -/
def isLetter (c : Char) : Bool :=
  ('a' ≤ c && c ≤ 'z') || ('A' ≤ c && c ≤ 'Z') || c = '_' || accentedLetters.contains c

/-- A decimal digit. -/
def isDigit (c : Char) : Bool :=
  '0' ≤ c && c ≤ '9'

/-- A blank between tokens. A line break is a token of its own. -/
def isBlank (c : Char) : Bool :=
  c = ' ' || c = '\t' || c = '\r'

/-- The operator that starts with a character, given the next one, and whether it takes both. -/
def operator? (c : Char) (next : Option Char) : Option (TokenKind × Bool) :=
  match c with
  | '+' => some (.plus, false)
  | '-' => if next = some '>' then some (.arrow, true) else some (.minus, false)
  | '(' => some (.parenOpen, false)
  | ')' => some (.parenClose, false)
  | '{' => some (.braceOpen, false)
  | '}' => some (.braceClose, false)
  | '[' => some (.bracketOpen, false)
  | ']' => some (.bracketClose, false)
  | ',' => some (.comma, false)
  | ';' => some (.semicolon, false)
  | ':' => some (.colon, false)
  | '.' => some (.dot, false)
  | '@' => some (.atSign, false)
  | '=' => if next = some '=' then some (.equalEqual, true) else some (.equal, false)
  | '!' => if next = some '=' then some (.notEqual, true) else none
  | '<' => if next = some '=' then some (.lessEqual, true) else some (.less, false)
  | '>' => if next = some '=' then some (.greaterEqual, true) else some (.greater, false)
  | '\n' => some (.newline, false)
  | _ => none

/-- The head of a text, as one step of the scanner sees it. -/
inductive Piece where
  | trivia (text : Source)
  | token (kind : TokenKind) (literal : String) (text : Source)
  | unterminated (text : Source)
  deriving Repr, DecidableEq

namespace Piece

/-- The runes a piece covers. -/
def text : Piece → Source
  | trivia text => text
  | token _ _ text => text
  | unterminated text => text

/-- A token spelled by the given runes. -/
def spelled (kind : TokenKind) (text : Source) : Piece :=
  .token kind (Source.shown text) text

/-- What a character means behind a backslash. -/
def unescape (c : Char) : Char :=
  match c with
  | 'n' => '\n'
  | 't' => '\t'
  | 'r' => '\r'
  | other => other

/--
Cut a string literal whose opening quote is already read.

The value and the covered runes are collected newest first.
-/
def cutString (quote : Char) (value : List Char) (covered : Source) : Source → Piece × Source
  | [] => (.unterminated covered.reverse, [])
  | rune :: rest =>
      if rune.toChar = quote then
        (.token .string (String.ofList value.reverse) (rune :: covered).reverse, rest)
      else if rune.toChar = '\\' then
        match rest with
        | [] => (.unterminated (rune :: covered).reverse, [])
        | escaped :: rest =>
            cutString quote (unescape escaped.toChar :: value) (escaped :: rune :: covered) rest
      else
        cutString quote (rune.toChar :: value) (rune :: covered) rest

/-- Cut a block comment whose opening is already read. It ends at `*/` or with the text. -/
def cutBlockComment (covered : Source) : Source → Piece × Source
  | [] => (.trivia covered.reverse, [])
  | star :: slash :: rest =>
      if star.toChar = '*' && slash.toChar = '/' then
        (.trivia (slash :: star :: covered).reverse, rest)
      else
        cutBlockComment (star :: covered) (slash :: rest)
  | [last] => (.trivia (last :: covered).reverse, [])

/-- The longest run of runes with the given property at the head of a text. -/
def run (accept : Char → Bool) (text : Source) : Source :=
  text.takeWhile (accept ·.toChar)

/-- What stands behind the longest run of runes with the given property. -/
def afterRun (accept : Char → Bool) (text : Source) : Source :=
  text.dropWhile (accept ·.toChar)

/-- Cut a number that starts with the given digit. A dot belongs to it only before a digit. -/
def cutNumber (first : Rune) (rest : Source) : Piece × Source :=
  let whole := first :: run isDigit rest
  match afterRun isDigit rest with
  | dot :: digit :: more =>
      if dot.toChar = '.' && isDigit digit.toChar then
        (spelled .number (whole ++ dot :: digit :: run isDigit more), afterRun isDigit more)
      else
        (spelled .number whole, dot :: digit :: more)
  | more =>
      (spelled .number whole, more)

/-- A character that may continue a word. -/
def continuesWord (c : Char) : Bool :=
  isLetter c || isDigit c

/-- Cut a word that starts with the given letter. -/
def cutWord (first : Rune) (rest : Source) : Piece × Source :=
  let word := first :: run continuesWord rest
  (spelled (Keyword.kindOf (Source.shown word)) word, afterRun continuesWord rest)

/-- A character that does not end a line comment. -/
def isInLine (c : Char) : Bool :=
  c ≠ '\n'

/-- Cut what a slash starts: a comment, or a lone slash, which is skipped. -/
def cutSlash (slash : Rune) (rest : Source) : Piece × Source :=
  match rest with
  | [] => (.trivia [slash], [])
  | second :: more =>
      if second.toChar = '/' then
        (.trivia (slash :: second :: run isInLine more), afterRun isInLine more)
      else if second.toChar = '*' then
        cutBlockComment [second, slash] more
      else
        (.trivia [slash], second :: more)

/-- Cut the first piece off a non-empty text. A rune that starts no token is skipped. -/
def cut (first : Rune) (rest : Source) : Piece × Source :=
  match operator? first.toChar (rest.head?.map Rune.toChar) with
  | some (kind, false) =>
      (spelled kind [first], rest)
  | some (kind, true) =>
      (spelled kind (first :: rest.take 1), rest.drop 1)
  | none =>
      if first.toChar = '"' || first.toChar = '\'' then
        cutString first.toChar [] [first] rest
      else if first.toChar = '/' then
        cutSlash first rest
      else if isBlank first.toChar then
        (.trivia (first :: run isBlank rest), afterRun isBlank rest)
      else if isLetter first.toChar then
        cutWord first rest
      else if isDigit first.toChar then
        cutNumber first rest
      else
        (.trivia [first], rest)

/-! ## No rune is lost -/

@[simp] theorem run_append_afterRun (accept : Char → Bool) (text : Source) :
    run accept text ++ afterRun accept text = text := by
  simp [run, afterRun]

theorem text_cutString (quote : Char) (value : List Char) (covered rest : Source) :
    (cutString quote value covered rest).1.text ++ (cutString quote value covered rest).2 =
      covered.reverse ++ rest := by
  fun_induction cutString quote value covered rest <;> simp_all [text]

theorem text_cutBlockComment (covered rest : Source) :
    (cutBlockComment covered rest).1.text ++ (cutBlockComment covered rest).2 =
      covered.reverse ++ rest := by
  fun_induction cutBlockComment covered rest <;> simp_all [text]

theorem text_cutNumber (first : Rune) (rest : Source) :
    (cutNumber first rest).1.text ++ (cutNumber first rest).2 = first :: rest := by
  have whole := run_append_afterRun isDigit rest
  unfold cutNumber
  split
  · rename_i dot digit more found
    rw [found] at whole
    split
    · simp [spelled, text, whole]
    · simp [spelled, text, whole]
  · simp [spelled, text, whole]

theorem text_cutWord (first : Rune) (rest : Source) :
    (cutWord first rest).1.text ++ (cutWord first rest).2 = first :: rest := by
  simp [cutWord, spelled, text]

theorem text_cutSlash (slash : Rune) (rest : Source) :
    (cutSlash slash rest).1.text ++ (cutSlash slash rest).2 = slash :: rest := by
  unfold cutSlash
  repeat' split
  · simp [text]
  · simp [text]
  · simp [text_cutBlockComment]
  · simp [text]

/-- A piece and the text behind it are the whole text. -/
theorem text_cut (first : Rune) (rest : Source) :
    (cut first rest).1.text ++ (cut first rest).2 = first :: rest := by
  unfold cut
  split
  · simp [spelled, text]
  · cases rest <;> simp [spelled, text]
  · repeat' split
    · simp [text_cutString]
    · exact text_cutSlash first rest
    · simp [text]
    · exact text_cutWord first rest
    · exact text_cutNumber first rest
    · simp [text]

/-! ## Every piece covers at least one rune -/

theorem cutString_text_ne_nil (quote : Char) (value : List Char) (covered rest : Source)
    (started : covered ≠ []) : (cutString quote value covered rest).1.text ≠ [] := by
  fun_induction cutString quote value covered rest <;> simp_all [text]

theorem cutBlockComment_text_ne_nil (covered rest : Source) (started : covered ≠ []) :
    (cutBlockComment covered rest).1.text ≠ [] := by
  fun_induction cutBlockComment covered rest <;> simp_all [text]

theorem cut_text_ne_nil (first : Rune) (rest : Source) : (cut first rest).1.text ≠ [] := by
  unfold cut
  split
  · simp [spelled, text]
  · simp [spelled, text]
  · repeat' split
    · exact cutString_text_ne_nil _ _ _ _ (by simp)
    · unfold cutSlash
      repeat' split
      · simp [text]
      · simp [text]
      · exact cutBlockComment_text_ne_nil _ _ (by simp)
      · simp [text]
    · simp [text]
    · simp [cutWord, spelled, text]
    · unfold cutNumber
      repeat' split
      all_goals simp [spelled, text]
    · simp [text]

/-- The scanner moves forward with every piece. -/
theorem length_cut_lt (first : Rune) (rest : Source) :
    (cut first rest).2.length < (first :: rest).length := by
  have whole := congrArg List.length (text_cut first rest)
  have positive := List.length_pos_iff.mpr (cut_text_ne_nil first rest)
  simp only [List.length_append] at whole
  omega

end Piece

end FrenchNim
