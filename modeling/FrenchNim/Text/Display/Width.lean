import FrenchNim.Text.CodeTable
import FrenchNim.Text.Display.BreakTables
import FrenchNim.Text.Display.WidthTables

namespace FrenchNim

/-!
# Display width

The number of terminal cells that a text fills. A text is split into grapheme
clusters. A cluster is as wide as its characters together, except that an emoji
and a flag are two cells wide whatever follows.
-/

namespace Display

/-- How a character takes part in clusters. -/
inductive BreakClass where
  | carriageReturn
  | lineFeed
  | control
  | extend
  | joiner
  | regional
  | prepend
  | spacing
  | lead
  | vowel
  | tail
  | leadVowel
  | leadVowelTail
  | pictograph
  | other
  deriving Repr, DecidableEq

/-- The code lies between the bounds. -/
def between (low high code : Nat) : Bool :=
  low ≤ code && code ≤ high

/-- The class of a character. -/
def breakClass (c : Char) : BreakClass :=
  let code := c.toNat
  if between 0x20 0x7E code then .other
  else if code = 0x0D then .carriageReturn
  else if code = 0x0A then .lineFeed
  else if code = 0x200D then .joiner
  else if CodeTable.inRanges controlRanges code then .control
  else if CodeTable.inRanges extendRanges code then .extend
  else if between 0x1F1E6 0x1F1FF code then .regional
  else if CodeTable.inRanges prependRanges code then .prepend
  else if CodeTable.inRanges spacingRanges code then .spacing
  else if between 0x1100 0x115F code || between 0xA960 0xA97C code then .lead
  else if between 0x1160 0x11A7 code || between 0xD7B0 0xD7C6 code then .vowel
  else if between 0x11A8 0x11FF code || between 0xD7CB 0xD7FB code then .tail
  else if between 0xAC00 0xD7A3 code then
    if (code - 0xAC00) % 28 = 0 then .leadVowel else .leadVowelTail
  else if CodeTable.inRanges pictographRanges code then .pictograph
  else .other

/-- The width of a character of the given class. -/
def charWidth (c : Char) : BreakClass → Nat
  | .carriageReturn | .lineFeed | .control | .extend | .joiner => 0
  | .regional => 2
  | .pictograph => if CodeTable.inRanges emojiRanges c.toNat then 2 else 1
  | _ =>
      if c.toNat = 0x2E3A then 3
      else if c.toNat = 0x2E3B then 4
      else if CodeTable.inRanges wideRanges c.toNat then 2
      else 1

/-- What the text before a character decides about a break in front of it. -/
structure BreakState where
  last : BreakClass
  /-- A pictograph stands before, with nothing but extending characters behind it. -/
  pictograph : Bool
  /-- Such a pictograph and a joiner stand before. -/
  joined : Bool
  /-- An odd number of regional indicators stands before. -/
  oddRegional : Bool
  deriving Repr

namespace BreakState

/-- The state behind the first character of a cluster. -/
def start (first : BreakClass) : BreakState :=
  ⟨first, first = .pictograph, false, first = .regional⟩

/-- The state behind a further character of a cluster. -/
def next (state : BreakState) (following : BreakClass) : BreakState :=
  { last := following
    pictograph := following = .pictograph || (state.pictograph && following = .extend)
    joined := state.pictograph && following = .joiner
    oddRegional := following = .regional && !state.oddRegional }

/-- A class that always stands in a cluster of its own. -/
def isolates : BreakClass → Bool
  | .carriageReturn | .lineFeed | .control => true
  | _ => false

/-- The next character starts a new cluster. -/
def breaks (state : BreakState) (following : BreakClass) : Bool :=
  if state.last = .carriageReturn ∧ following = .lineFeed then false
  else if isolates state.last || isolates following then true
  else
    match state.last, following with
    | _, .extend | _, .joiner | _, .spacing => false
    | .prepend, _ => false
    | .lead, .lead | .lead, .vowel | .lead, .leadVowel | .lead, .leadVowelTail => false
    | .leadVowel, .vowel | .leadVowel, .tail | .vowel, .vowel | .vowel, .tail => false
    | .leadVowelTail, .tail | .tail, .tail => false
    | _, .pictograph => !state.joined
    | _, .regional => !state.oddRegional
    | _, _ => true

end BreakState

/-- The width of a cluster after one more character. -/
def widen (first : BreakClass) (width : Nat) (c : Char) (following : BreakClass) : Nat :=
  match first with
  | .pictograph =>
      if c.toNat = 0xFE0E then 1 else if c.toNat = 0xFE0F then 2 else width
  | .regional | .lead => width
  | _ => width + charWidth c following

/-- The width of a text whose current cluster started with the given class. -/
def widthBehind (first : BreakClass) (state : BreakState) (total width : Nat) : List Char → Nat
  | [] => total + width
  | c :: rest =>
      let following := breakClass c
      if state.breaks following then
        widthBehind following (.start following) (total + width) (charWidth c following) rest
      else
        widthBehind first (state.next following) total (widen first width c following) rest

/-- The number of cells a text fills. -/
def textWidth : List Char → Nat
  | [] => 0
  | c :: rest =>
      let first := breakClass c
      widthBehind first (.start first) 0 (charWidth c first) rest

end Display

end FrenchNim
