import FrenchNim.Settings.BlockText
import FrenchNim.Settings.Escape

namespace FrenchNim.Settings

/-!
# Reading symbols

The characters of a settings file are read one by one. Unquoted text is
collected until something ends it: a mark, a comment, the end of the file, or a
line that starts no further to the right than the last key or dash. Line breaks
inside it are folded.
-/

/-- The part of a quoted text that was read. -/
structure Quotation where
  quote : Char
  /-- The value so far, newest first. -/
  value : List Char
  /-- Only blanks were read on the last line. -/
  atStart : Bool
  line : Nat
  column : Nat
  deriving Repr, DecidableEq

/-- What a character is read as a part of. -/
inductive Mode where
  | outside
  | comment
  | quoted (quotation : Quotation)
  /-- A text of indented lines, with the place of its header. -/
  | block (block : Block) (header : Option (Nat × Nat))
  deriving Repr, DecidableEq

/-- How the first character of a line stands to the last key or dash. -/
inductive Turn where
  | none
  /-- Further to the right. -/
  | deeper
  /-- Not further to the right. -/
  | back
  deriving Repr, DecidableEq

/-- Where a reader of symbols stands. -/
structure Scan where
  /-- The symbols so far, newest first. -/
  symbols : List Symbol
  mode : Mode
  /-- The number of characters that were read ahead. -/
  ahead : Nat
  line : Nat
  column : Nat
  /-- The number of blanks at the start of the line. -/
  indentation : Nat
  /-- Only blanks were read on this line. -/
  fresh : Bool
  /-- The column of the last key or dash, zero if there is none. -/
  delimiter : Nat
  /-- The number of open braces. -/
  braces : Nat
  /-- The number of open brackets. -/
  brackets : Nat
  /-- The unquoted text up to its last character that is no blank, newest first. -/
  text : List Char
  /-- What was read behind the text, newest first. -/
  gap : List Char
  /-- All characters since the last symbol, newest first. -/
  source : List Char
  /-- The place of a text that goes over several lines. -/
  start : Option (Nat × Nat)
  deriving Repr

namespace Scan

/-- The start of a file. -/
def initial : Scan :=
  { symbols := []
    mode := .outside
    ahead := 0
    line := 1
    column := 1
    indentation := 0
    fresh := true
    delimiter := 0
    braces := 0
    brackets := 0
    text := []
    gap := []
    source := []
    start := none }

/-! ## Small steps -/

/-- Some text is collected. -/
def hasText (scan : Scan) : Bool :=
  !scan.text.isEmpty

/-- The reader is between braces or brackets. -/
def inFlow (scan : Scan) : Bool :=
  0 < scan.braces || 0 < scan.brackets

/-- Collect a character. Blanks before the text are dropped. -/
def collect (scan : Scan) (c : Char) : Scan :=
  if isBlank c then
    if scan.hasText then { scan with gap := c :: scan.gap } else scan
  else
    { scan with text := c :: scan.gap ++ scan.text, gap := [] }

/-- Note a character of the source. -/
def note (scan : Scan) (c : Char) : Scan :=
  { scan with source := c :: scan.source }

/-- Go on by some characters on the same line. -/
def advance (scan : Scan) (count : Nat) : Scan :=
  { scan with column := scan.column + count, ahead := count - 1 }

/-- Go on to the next line. -/
def nextLine (scan : Scan) : Scan :=
  { scan with line := scan.line + 1, column := 1, indentation := 0, fresh := true }

/-- Forget the collected text. -/
def clear (scan : Scan) : Scan :=
  { scan with text := [], gap := [], source := [] }

/-- The source since the last symbol, without the space before it. -/
def trimmedSource (scan : Scan) : List Char :=
  scan.source.reverse.dropWhile fun c => c = ' ' || isLineEnd c

/-- Add a symbol that stands at a line and a column. -/
def addAt (scan : Scan) (kind : SymbolKind) (line column : Nat) : Scan :=
  let source := scan.trimmedSource
  let body := (source.reverse.dropWhile fun c => c = ' ' || isLineEnd c).reverse
  let symbol : Symbol :=
    { kind := kind
      line := line
      column := column
      broken := source.any isLineEnd
      lastLine := line + countLineBreaks body }
  { scan with symbols := symbol :: scan.symbols }

/-- Add a symbol that stands here. -/
def add (scan : Scan) (kind : SymbolKind) : Scan :=
  scan.addAt kind scan.line scan.column

/-- The place of the collected text. -/
def place (scan : Scan) : Nat × Nat :=
  scan.start.getD (scan.line, scan.column - (scan.text.length + scan.gap.length))

/-- Make a symbol of the collected text, if there is some. -/
def cut (scan : Scan) : Scan :=
  if scan.hasText then
    let place := scan.place
    let text := String.ofList scan.text.reverse
    { (scan.addAt (.scalar .plain text) place.1 place.2).clear with start := none }
  else
    { scan with gap := [], start := none }

/-- Cut the text off and add a mark of so many characters. -/
def mark (scan : Scan) (kind : SymbolKind) (length : Nat) : Scan :=
  ((scan.cut.add kind).advance length).clear

/-- Read a character as a part of unquoted text. -/
def plain (scan : Scan) (c : Char) : Scan :=
  ((scan.collect c).note c).advance 1

/-- The source since the last symbol is indented by a tab. -/
def isTabbed (scan : Scan) : Bool :=
  match scan.source.reverse with
  | '\t' :: _ => true
  | ' ' :: '\t' :: _ => true
  | _ => false

/-- Note the start of a line at its first character that is no blank. -/
def enter (scan : Scan) (c : Char) : Scan × Turn :=
  if !scan.fresh || isLineEnd c || c = '\t' then
    (scan, .none)
  else if c = ' ' then
    ({ scan with indentation := scan.indentation + 1 }, .none)
  else if scan.delimiter = 0 then
    ({ scan with fresh := false }, .none)
  else if scan.delimiter < scan.column then
    ({ scan with fresh := false }, .deeper)
  else
    ({ scan with fresh := false }, .back)

/-! ## Marks -/

/-- Read a colon, given the text behind it. -/
def readColon (scan : Scan) (rest : List Char) : Option Scan :=
  let separates :=
    if scan.braces = 0 then
      startsWithSpace rest
    else
      rest.head? ≠ some '/' && (scan.symbols.head?.map (·.kind)) ≠ some .colon
  if !separates then
    some (scan.plain ':')
  else if scan.isTabbed then
    none
  else
    let delimiter :=
      if scan.hasText then
        scan.place.2
      else
        match scan.symbols.head? with
        | some ⟨.scalar .quoted _, _, column, _, _⟩ => column
        | _ => scan.delimiter
    some ({ scan with delimiter := delimiter }.mark .colon 1)

/-- Read a dash, given the text behind it. -/
def readDash (scan : Scan) (turn : Turn) (rest : List Char) : Option Scan :=
  if scan.indentation = 0 ∧ scan.column = 1 ∧ startsWithRun '-' 2 rest then
    some { (scan.mark .header 3) with delimiter := 0, indentation := 0 }
  else if scan.hasText then
    if turn = .deeper then
      some { (scan.plain '-') with mode := .block (dashedBlock scan.column) none }
    else
      some (scan.plain '-')
  else if !startsWithSpace rest then
    some (scan.plain '-')
  else if scan.isTabbed then
    none
  else
    some { (scan.mark .dash 1) with delimiter := scan.column }

/-- The text behind a character merges another mapping into this one. -/
def isMerge (rest : List Char) : Bool :=
  startsWithRun '<' 1 rest &&
    match (rest.drop 1).dropWhile (· = ' ') with
    | ':' :: next :: _ => next = ' ' || isLineEnd next
    | _ => false

/-- Read the header of a text of indented lines, given the text behind its mark. -/
def readHeader (scan : Scan) (style : BlockStyle) (rest : List Char) : Option Scan :=
  let line := rest.takeWhile (!isLineEnd ·)
  let ending := rest.dropWhile (!isLineEnd ·)
  let header := if ending.isEmpty then line.dropLast else line
  let taken := line.length + if ['\r', '\n'].isPrefixOf ending then 2 else 1
  let delimiter := if scan.column = 1 then 1 else scan.delimiter
  (openBlock? style delimiter (headerOptions header)).map fun block =>
    { scan.clear.nextLine with
      mode := .block block (some (scan.line, scan.column))
      ahead := taken
      delimiter := delimiter }

/-! ## Unquoted text -/

/-- Drop blanks at the end of the source, and with them what was read behind the text. -/
def dropTrailing (scan : Scan) : Scan :=
  if (scan.source.head?.map isBlank).getD false then
    { scan with source := scan.source.dropWhile isBlank, gap := [] }
  else
    scan

/-- Fold a line break into the text. A further one is kept. -/
def foldBreak (scan : Scan) : Scan :=
  if scan.hasText && scan.fresh then
    match scan.gap with
    | ' ' :: gap => { scan with gap := '\n' :: gap }
    | gap => { scan with gap := '\n' :: gap }
  else
    scan.collect ' '

/-- Read the end of a line, given the text behind it. -/
def readLineEnd (scan : Scan) (c : Char) (rest : List Char) : Scan :=
  let start :=
    if scan.hasText && scan.start.isNone then
      some (scan.line, scan.column - scan.text.length)
    else
      scan.start
  let scan := { scan with start := start }.dropTrailing
  let double := c = '\r' && rest.head? = some '\n'
  let scan := if double then { scan.note '\r' with ahead := 1 } else scan
  let final := if double then rest.tail.isEmpty else rest.isEmpty
  let scan := if final then scan.cut else scan
  (scan.foldBreak.note (if double then '\n' else c)).nextLine

/-- Read a tab. Behind a key or a text it is passed over. -/
def readTab (scan : Scan) : Option Scan :=
  if (scan.hasText && scan.delimiter = 0) || scan.delimiter < scan.column then
    some { scan.note '\t' with indentation := scan.indentation + 1 }
  else if scan.fresh && !scan.inFlow then
    none
  else
    some (scan.plain '\t')

/-- Read a character outside of quotes and comments, given the text behind it. -/
def readOutside (scan : Scan) (turn : Turn) (c : Char) (rest : List Char) : Option Scan :=
  if isLineEnd c then
    some (scan.readLineEnd c rest)
  else if c = ' ' then
    if scan.fresh then some ((scan.note ' ').advance 1) else some (scan.plain ' ')
  else if c = '\t' then
    scan.readTab
  else if c = ':' then
    scan.readColon rest
  else if c = '-' then
    scan.readDash turn rest
  else if c = '\x7b' then
    if scan.hasText && !scan.inFlow then some (scan.plain c)
    else some ({ scan with braces := scan.braces + 1 }.mark .openBrace 1)
  else if c = '\x7d' then
    if scan.braces = 0 then some (scan.plain c)
    else some ({ scan with braces := scan.braces - 1 }.mark .closeBrace 1)
  else if c = '[' then
    if scan.hasText && !scan.inFlow then some (scan.plain c)
    else some ({ scan with brackets := scan.brackets + 1 }.mark .openBracket 1)
  else if c = ']' then
    if 0 < scan.brackets then
      some ({ scan with brackets := scan.brackets - 1 }.mark .closeBracket 1)
    else if scan.hasText then some (scan.plain c)
    else none
  else if c = ',' then
    if scan.inFlow then some (scan.mark .comma 1) else some (scan.plain c)
  else if c = '.' ∧ scan.indentation = 0 ∧ scan.column = 1 ∧ startsWithRun '.' 2 rest then
    some (scan.mark .footer 3)
  else if c = '<' && isMerge rest then
    none
  else if c = '#' then
    if scan.hasText && !(scan.source.head?.map isSpace).getD false then some (scan.plain c)
    else some { (scan.mark .comment 1) with mode := .comment }
  else if scan.hasText then
    some (scan.plain c)
  else if c = '\'' || c = '"' then
    some { ((scan.note c).advance 1) with
      mode := .quoted ⟨c, [], false, scan.line, scan.column⟩ }
  else if c = '|' then
    scan.readHeader .literal rest
  else if c = '>' then
    scan.readHeader .folded rest
  else if ['!', '&', '*', '@', '\x60'].contains c then
    none
  else if c = '%' && scan.indentation = 0 then
    none
  else if c = '?' && (rest.head?.map isBlank).getD false then
    none
  else
    some (scan.plain c)

/-! ## Quoted text -/

/-- Read the end of a line inside quotes, given the text behind it. -/
def readQuotedLineEnd (scan : Scan) (quotation : Quotation) (rest : List Char) : Option Scan :=
  if startsWithMarker rest then
    none
  else
    let fold := if quotation.atStart then '\n' else ' '
    let value := fold :: quotation.value.dropWhile (· = ' ')
    some { scan.nextLine with mode := .quoted { quotation with value := value, atStart := true } }

/-- Read an escape inside quotes, given the text behind the backslash. -/
def readEscape (scan : Scan) (quotation : Quotation) (rest : List Char) : Option Scan :=
  let joined := Mode.quoted { quotation with atStart := true }
  match rest with
  | '\r' :: '\n' :: _ =>
      some { ((scan.note '\r').note '\n').nextLine with mode := joined, ahead := 2 }
  | next :: _ =>
      if isLineEnd next then
        some { (scan.note next).nextLine with mode := joined, ahead := 1 }
      else
        (escape? rest).map fun found =>
          { scan.advance (found.2 + 1) with
            mode := .quoted
              { quotation with value := found.1 :: quotation.value, atStart := false } }
  | [] => none

/-- Read a character inside quotes, given the text behind it. -/
def readQuoted (scan : Scan) (quotation : Quotation) (c : Char) (rest : List Char) :
    Option Scan :=
  let scan := scan.note c
  let value := c :: quotation.value
  if isLineEnd c then
    scan.readQuotedLineEnd quotation rest
  else if quotation.atStart && c = ' ' then
    some (scan.advance 1)
  else if quotation.atStart && c = '\t' then
    if scan.column ≤ scan.delimiter then none else some (scan.advance 1)
  else if c = '\\' && quotation.quote = '"' then
    scan.readEscape quotation rest
  else if c ≠ quotation.quote then
    some { scan.advance 1 with
      mode := .quoted { quotation with value := value, atStart := false } }
  else if c = '\'' && rest.head? = some c then
    some { (scan.note c).advance 2 with mode := .quoted { quotation with value := value } }
  else
    let text := String.ofList quotation.value.reverse
    let closed := scan.addAt (.scalar .quoted text) quotation.line quotation.column
    some { (closed.advance 1).clear with mode := .outside }

/-! ## Texts of indented lines -/

/-- Collect a character of an indented text; only blanks at its start are dropped. -/
def collectWide (scan : Scan) (c : Char) : Scan :=
  if c = ' ' then
    scan.collect c
  else
    { scan with text := c :: scan.gap ++ scan.text, gap := [] }

/-- Collect a blank at the start of a line if it belongs to the text. -/
def collectIndent (scan : Scan) (block : Block) : Scan × Block :=
  if block.first = 0 ∨ scan.column < block.first then
    (scan, block)
  else
    let folding := block.folding && block.style = .literal
    ({ scan with text := ' ' :: scan.gap ++ scan.text, gap := [] },
      { block with folding := folding })

/-- Make a symbol of an indented text. -/
def closeBlock (scan : Scan) (block : Block) (place : Nat × Nat) : Scan :=
  { (scan.addAt (.scalar .block (block.finish scan.text)) place.1 place.2).clear with
    mode := .outside
    start := none }

/-- Read the last character of a file inside an indented text. -/
def readBlockEnd (scan : Scan) (block : Block) (header : Option (Nat × Nat)) (c : Char) :
    Option Scan :=
  let (scan, block) :=
    if scan.fresh && c = ' ' then scan.collectIndent block else (scan.collect c, block)
  let block := block.noteColumn scan.column
  if block.isPlaced then
    some ((scan.closeBlock block (header.getD (scan.line, scan.column))).advance 1)
  else
    none

/-- Read the end of a line inside an indented text, given the text behind it. -/
def readBlockLineEnd (scan : Scan) (block : Block) (header : Option (Nat × Nat)) (c : Char)
    (rest : List Char) : Scan :=
  let double := c = '\r' && rest.head? = some '\n'
  let block := (block.noteBlanks (scan.column - 1)).nextLine
  let scan := (scan.collect (if double then '\n' else c)).nextLine
  let scan := { scan with mode := .block block header, ahead := if double then 1 else 0 }
  if startsWithMarker (if double then rest.tail else rest) then
    scan.closeBlock block (header.getD (scan.line, scan.column))
  else
    scan

/-- Read a character of an indented text, given the text behind it. -/
def readBlock (scan : Scan) (block : Block) (header : Option (Nat × Nat)) (c : Char)
    (rest : List Char) : Option Scan :=
  let scan := scan.note c
  if rest.isEmpty then
    scan.readBlockEnd block header c
  else if isLineEnd c then
    some (scan.readBlockLineEnd block header c rest)
  else if scan.fresh && c = ' ' then
    let (scan, block) := scan.collectIndent block
    some { scan.advance 1 with mode := .block block header }
  else if c = '\t' && (scan.fresh || !block.isIndentation scan.column) then
    if block.isIndentation scan.column then none
    else some ((scan.collectWide c).advance 1)
  else
    let noted := block.noteColumn scan.column
    if block.fitsBlanks scan.column && noted.isPlaced then
      let delimiter := if noted.first ≤ 1 then scan.delimiter else noted.first - 1
      let folded := { scan with text := noted.fold scan.text, delimiter := delimiter }
      some { (folded.collectWide c).advance 1 with
        mode := .block { noted with folding := false } header }
    else
      none

/-! ## Files -/

/-- Read a character, given the text behind it. -/
def step (scan : Scan) (c : Char) (rest : List Char) : Option Scan :=
  match scan.mode with
  | .comment =>
      if isLineEnd c then some { scan.clear.nextLine with mode := .outside } else some scan
  | .quoted quotation => scan.readQuoted quotation c rest
  | .outside =>
      let (scan, turn) := scan.enter c
      (if turn = .back then scan.cut else scan).readOutside turn c rest
  | .block block header =>
      let (scan, turn) := scan.enter c
      if turn = .back then
        (scan.closeBlock block (header.getD scan.place)).readOutside turn c rest
      else
        scan.readBlock block header c rest

/-- End the file. Quotes must be closed. -/
def close? (scan : Scan) : Option Scan :=
  match scan.mode with
  | .quoted _ => none
  | .block block header => some (scan.closeBlock block (header.getD scan.place))
  | _ => some scan.cut

/-- Read the characters that are left. -/
def readAll (scan : Scan) : List Char → Option Scan
  | [] => scan.close?
  | c :: rest =>
      if 0 < scan.ahead then
        { scan with ahead := scan.ahead - 1 }.readAll rest
      else
        match scan.step c rest with
        | none => none
        | some next => next.readAll rest

end Scan

/-- The symbols of a settings file without its comments. -/
def symbols? (text : String) : Option (List Symbol) :=
  (Scan.initial.readAll text.toList).map fun scan =>
    scan.symbols.reverse.filter (·.kind ≠ .comment)

end FrenchNim.Settings
