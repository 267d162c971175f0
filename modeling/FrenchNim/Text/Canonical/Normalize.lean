import FrenchNim.Text.Canonical.ClassTable
import FrenchNim.Text.Canonical.DecompositionTable
import FrenchNim.Text.Canonical.MarkCountTable
import FrenchNim.Text.CodeTable
import FrenchNim.Text.Rune

namespace FrenchNim

/-!
# Canonical composition

Sources are brought into the composed canonical form before they are read. The
text is split into segments that start at a character which is no mark; each
segment is decomposed, its marks are put in canonical order, and then it is
composed. A segment holds at most thirty marks: behind those a grapheme joiner
is written and a new segment starts. A stray byte stands alone.
-/

namespace Canonical

/-! ## Syllables of Hangul -/

/-- The first syllable. -/
def syllableBase : Nat := 0xAC00
/-- The first leading consonant. -/
def leadBase : Nat := 0x1100
/-- The first vowel. -/
def vowelBase : Nat := 0x1161
/-- The code before the first trailing consonant. -/
def tailBase : Nat := 0x11A7
/-- The number of leading consonants. -/
def leadCount : Nat := 19
/-- The number of vowels. -/
def vowelCount : Nat := 21
/-- The number of trailing consonants, none included. -/
def tailCount : Nat := 28
/-- The number of syllables. -/
def syllableCount : Nat := leadCount * vowelCount * tailCount

/-- The code belongs to a syllable. -/
def isSyllable (code : Nat) : Bool :=
  syllableBase ≤ code && code < syllableBase + syllableCount

/-- A vowel or trailing consonant, which joins the letter before it, or the code of no consonant. -/
def isJoiningLetter (code : Nat) : Bool :=
  (vowelBase ≤ code && code < vowelBase + vowelCount) ||
    (tailBase ≤ code && code < tailBase + tailCount)

/-- The code of a letter of any kind. -/
def isLetter (code : Nat) : Bool :=
  code / 0x100 = leadBase / 0x100

/-- The letters of a syllable. -/
def syllableLetters (code : Nat) : List Nat :=
  let index := code - syllableBase
  let lead := leadBase + index / (vowelCount * tailCount)
  let vowel := vowelBase + index % (vowelCount * tailCount) / tailCount
  let tail := tailBase + index % tailCount
  if tail = tailBase then [lead, vowel] else [lead, vowel, tail]

/-- The syllable of two parts. -/
def composeSyllable? (left right : Nat) : Option Nat :=
  if leadBase ≤ left ∧ left < leadBase + leadCount ∧
      vowelBase ≤ right ∧ right < vowelBase + vowelCount then
    some (syllableBase + ((left - leadBase) * vowelCount + (right - vowelBase)) * tailCount)
  else if isSyllable left ∧ (left - syllableBase) % tailCount = 0 ∧
      tailBase < right ∧ right < tailBase + tailCount then
    some (left + (right - tailBase))
  else
    none

/-! ## Decomposition -/

/-- The character that a character is equivalent to. -/
def singleton? (code : Nat) : Option Nat :=
  if code < 0xF900 then CodeTable.value? singletons code
  else if code < 0x10000 then CodeTable.value? ideographs code
  else CodeTable.value? supplementaryIdeographs code

/-- The pair that a character is equivalent to. -/
def pair? (code : Nat) : Option (Nat × Nat) :=
  match CodeTable.value? composites code with
  | some pair => some pair
  | none => CodeTable.value? exclusions code

/-- Codes below this one stand for themselves. -/
def firstDecomposing : Nat := 0xC0

/-- No decomposition is nested deeper. -/
def deepest : Nat := 4

/-- The full decomposition of a code. -/
def decompose : Nat → Nat → List Nat
  | 0, code => [code]
  | fuel + 1, code =>
      if code < firstDecomposing then
        [code]
      else if isSyllable code then
        syllableLetters code
      else
        match singleton? code with
        | some other => decompose fuel other
        | none =>
            match pair? code with
            | some (left, right) => decompose fuel left ++ decompose fuel right
            | none => [code]

/-- The combining class of a code. -/
def combiningClass (code : Nat) : Nat :=
  (CodeTable.rangeValue? classRanges code).getD 0

/-! ## Parts of a segment -/

/-- The code is the second one of a composed character. -/
def combinesBackwards (code : Nat) : Bool :=
  isJoiningLetter code || composites.any fun entry => entry.2.2 = code

/-- A code of a decomposed segment. -/
structure Part where
  code : Nat
  /-- The combining class. -/
  rank : Nat
  /-- The part may be composed with one before it. -/
  combines : Bool
  deriving Repr, DecidableEq

namespace Part

/-- A part that stays as it is. -/
def fixed (code : Nat) : Part :=
  ⟨code, 0, false⟩

/-- The part of a code that is fully decomposed. -/
def of (code : Nat) : Part :=
  ⟨code, combiningClass code, combinesBackwards code⟩

end Part

/-- The parts of a code. The letters of a syllable are found by their codes alone. -/
def parts (code : Nat) : List Part :=
  if isSyllable code then
    (syllableLetters code).map .fixed
  else
    (decompose deepest code).map .of

/-- Put a part behind all parts of the same or a lower class; the parts are given newest first. -/
def insertPart (part : Part) : List Part → List Part
  | [] => [part]
  | last :: earlier =>
      if 0 < part.rank ∧ part.rank < last.rank then
        last :: insertPart part earlier
      else
        part :: last :: earlier

/-! ## Composition of a segment -/

/-- The part of a code that composed characters are looked up by. -/
def key (code : Nat) : Nat :=
  code % 0x10000

/-- The character that two characters compose to. -/
def compose? (left right : Nat) : Option Nat :=
  (composites.find? fun entry =>
    key entry.2.1 = key left && key entry.2.2 = key right).map (·.1)

/--
A segment that is composed up to some part: the parts before the base, the base,
which later parts are composed with, and the parts behind it. Both lists have
the newest part first.
-/
structure Composition where
  before : List Part
  base : Part
  behind : List Part
  deriving Repr

namespace Composition

/-- The last part takes the place of the base if its class is zero. -/
def rebased (composition : Composition) : Composition :=
  match composition.behind with
  | last :: rest =>
      if last.rank = 0 then
        ⟨rest ++ composition.base :: composition.before, last, []⟩
      else
        composition
  | [] => composition

/-- A part of this class is kept from the base by the last part behind it. -/
def blocks (composition : Composition) (rank : Nat) : Bool :=
  match composition.behind with
  | last :: _ => rank ≤ last.rank
  | [] => false

/-- Add a part that is not composed. -/
def keep (composition : Composition) (part : Part) : Composition :=
  { composition with behind := part :: composition.behind }

/-- Add a part, composed with the base if the two make a character. -/
def join (make? : Nat → Nat → Option Nat) (composition : Composition) (part : Part) :
    Composition :=
  let rebased := composition.rebased
  match if rebased.blocks part.rank then none else make? rebased.base.code part.code with
  | some code => { rebased with base := .fixed code }
  | none => rebased.keep part

/--
Add the parts that are left. From the first letter of a syllable on, nothing but
syllables is composed.
-/
def add (composition : Composition) (syllables : Bool) : List Part → Composition
  | [] => composition
  | part :: rest =>
      if syllables || isLetter part.code then
        (composition.join composeSyllable? part).add true rest
      else if part.combines then
        (composition.join compose? part).add false rest
      else
        (composition.keep part).add false rest

/-- The codes of a composed segment. -/
def codes (composition : Composition) : List Nat :=
  (composition.behind ++ composition.base :: composition.before).reverse.map (·.code)

end Composition

/-- Compose the parts of a segment. -/
def compose : List Part → List Nat
  | [] => []
  | first :: rest => (Composition.add ⟨[], first, []⟩ false rest).codes

/-- The composed form of a segment that is given newest part first. -/
def composeSegment (segment : List Part) : List Nat :=
  compose segment.reverse

/-! ## Segments -/

/-- A code that never starts a segment. -/
def isMark (code : Nat) : Bool :=
  combiningClass code ≠ 0 || combinesBackwards code

/-- The number of marks at the start of a decomposition. -/
def leadingMarks (code : Nat) : Nat :=
  if CodeTable.inRanges loneMarks code then 1
  else if code < firstDecomposing then 0
  else ((decompose deepest code).takeWhile isMark).length

/-- The number of marks at the end of a decomposition. -/
def trailingMarks (code : Nat) : Nat :=
  match CodeTable.rangeValue? trailingCounts code with
  | some count => count
  | none =>
      if code < firstDecomposing then 0
      else ((decompose deepest code).reverse.takeWhile isMark).length

/-- The number of marks a segment may hold. -/
def mostMarks : Nat := 30

/-- The character that is written between two runs of marks that are too long together. -/
def graphemeJoiner : Nat := 0x34F

/-- The runes of a composed segment. -/
def closeSegment (segment : List Part) : Source :=
  (composeSegment segment).map fun code => .char (Char.ofNat code)

/-- Add a code to a segment. -/
def extend (segment : List Part) (code : Nat) : List Part :=
  (parts code).foldl (fun segment part => insertPart part segment) segment

/-- The byte starts a sequence of four bytes that the text behind it is too short for. -/
def isCutOff (byte : UInt8) (rest : Source) : Bool :=
  0xF0 ≤ byte && byte < 0xF8 && rest.byteSize < 3

/--
Normalize the runes behind a segment, newest first, that holds `marks` marks.

The normalized text before it is kept in reverse. What stands behind a sequence
that is cut off by the end stays as it is.
-/
def normalizeOnto (done : Source) (segment : List Part) (marks : Nat) : Source → Source
  | [] => ((closeSegment segment).reverse ++ done).reverse
  | .stray byte :: rest =>
      let closed := .stray byte :: ((closeSegment segment).reverse ++ done)
      if isCutOff byte rest then
        closed.reverse ++ rest
      else
        normalizeOnto closed [] 0 rest
  | .char c :: rest =>
      let code := c.toNat
      let leading := leadingMarks code
      if mostMarks < marks + leading then
        normalizeOnto ((closeSegment (.fixed graphemeJoiner :: segment)).reverse ++ done)
          (extend [] code) leading rest
      else if leading = 0 then
        normalizeOnto ((closeSegment segment).reverse ++ done) (extend [] code)
          (trailingMarks code) rest
      else
        normalizeOnto done (extend segment code) (marks + leading) rest

end Canonical

/-- The composed canonical form of a source. -/
def normalize (source : Source) : Source :=
  Canonical.normalizeOnto [] [] 0 source

end FrenchNim
