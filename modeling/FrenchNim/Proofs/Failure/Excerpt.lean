import FrenchNim.Failure.Excerpt
import FrenchNim.Proofs.Failure.Places
import FrenchNim.Proofs.Text.Lines
import FrenchNim.Proofs.Token.Extents

namespace FrenchNim

/-!
# Excerpts point at the mistake

An excerpt splits the code at its line breaks and drops a carriage return at the
end of the shown line; a position counts line breaks and runes one by one. Both
tell the same line and the same column, since no mistake stands at a carriage
return. The marks stand behind white space that is made of the runes in front of
the mistake, one after the other.
-/

namespace Excerpt

/-- The lines of an excerpt are the lines of the code. -/
theorem splitLines_eq (line : List Char) (code : Source) :
    splitLines line code =
      (code.lines.map (·.map Rune.toChar)).modifyHead (line.reverse ++ ·) := by
  induction code generalizing line with
  | nil =>
      simp [splitLines, Source.lines_nil]
  | cons rune code inductionHypothesis =>
      rw [splitLines, Source.lines_cons]
      split
      · next isBreak =>
          rw [if_pos (toChar_eq_lineBreak.mp isBreak), inductionHypothesis]
          cases Source.lines code <;> simp
      · next noBreak =>
          rw [if_neg fun same => noBreak (toChar_eq_lineBreak.mpr same), inductionHypothesis]
          cases Source.lines code <;> simp

theorem splitLines_nil (code : Source) :
    splitLines [] code = code.lines.map (·.map Rune.toChar) := by
  rw [splitLines_eq]
  cases code.lines <;> simp

/-- A visible character keeps what stands before it. -/
theorem dropCarriageReturn_append
    (head : List Char)
    {c : Char}
    (visible : c ≠ '\r')
    (tail : List Char) :
    ∃ rest, dropCarriageReturn (head ++ c :: tail) = head ++ c :: rest := by
  unfold dropCarriageReturn
  split
  · next isReturn =>
      cases tail with
      | nil =>
          rw [List.getLast?_concat] at isReturn
          exact (visible (Option.some.inj isReturn)).elim
      | cons next tail =>
          refine ⟨(next :: tail).dropLast, ?_⟩
          rw [List.dropLast_append_of_ne_nil (List.cons_ne_nil _ _), List.dropLast_cons_cons]
  · exact ⟨tail, rfl⟩

/-- The line of a place shows the runes before the place and the rune that stands there. -/
theorem line?_of_place
    {code before behind : Source}
    {rune : Rune}
    (split : code = before ++ rune :: behind)
    (noBreak : rune ≠ lineBreak)
    (visible : rune.toChar ≠ '\r') :
    ∃ tail, line? code (Position.start.after before).line =
      some (before.openLine.map Rune.toChar ++ rune.toChar :: tail) := by
  have present : code.isEmpty = false := by
    rw [split]
    cases before <;> rfl
  have first : Source.firstLine (rune :: behind) = rune :: Source.firstLine behind := by
    rw [Source.firstLine, List.takeWhile_cons_of_pos (by simpa using noBreak)]
    rfl
  have shown := Source.lines_at before (rune :: behind)
  rw [← split, first] at shown
  obtain ⟨tail, dropped⟩ := dropCarriageReturn_append (before.openLine.map Rune.toChar) visible
    (behind.firstLine.map Rune.toChar)
  refine ⟨tail, ?_⟩
  have index : (1 + (before.count lineBreak : Int)).toNat - 1 = before.count lineBreak := by
    omega
  have positive : ¬(1 + (before.count lineBreak : Int) < 1) := by
    omega
  have whole : (splitLines [] code)[before.count lineBreak]? =
      some (before.openLine.map Rune.toChar ++
        rune.toChar :: behind.firstLine.map Rune.toChar) := by
    rw [splitLines_nil, List.getElem?_map, shown, Option.map_some, List.map_append, List.map_cons]
  rw [line?, Position.line_start_after, present, if_neg (by simp [positive]), index, whole,
    Option.map_some, dropped]

/-! ## The white space in front of the marks -/

/--
The white space stands under the text: a tab under every tab, and under every
other character as many blanks as it is wide.
-/
inductive Underlies : List Char → List Char → Prop
  | nil : Underlies [] []
  | tab
      {white text : List Char}
      (behind : Underlies white text) :
      Underlies ('\t' :: white) ('\t' :: text)
  | other
      {c : Char}
      {white text : List Char}
      (noTab : c ≠ '\t')
      (behind : Underlies white text) :
      Underlies (List.replicate (Display.textWidth [c]) ' ' ++ white) (c :: text)

/-- The indentation of a text, and nothing else, stands under it. -/
theorem underlies_iff
    {white text : List Char} :
    Underlies white text ↔ white = indentation text := by
  unfold indentation
  constructor
  · intro underlies
    induction underlies with
    | nil =>
        rfl
    | tab _ inductionHypothesis =>
        rw [List.flatMap_cons, if_pos rfl, List.singleton_append, inductionHypothesis]
    | other noTab _ inductionHypothesis =>
        rw [List.flatMap_cons, if_neg noTab, inductionHypothesis]
  · rintro rfl
    induction text with
    | nil =>
        exact .nil
    | cons c text inductionHypothesis =>
        rw [List.flatMap_cons]
        split
        · next isTab =>
            rw [isTab, List.singleton_append]
            exact .tab inductionHypothesis
        · next noTab =>
            exact .other noTab inductionHypothesis

/-- The marks of a range stand behind white space under the text in front of its column. -/
theorem underlies_markIndentation
    {span : Span}
    {head : List Char}
    (column : (head.length : Int) = span.first.column)
    (tail : List Char) :
    Underlies (markIndentation (head ++ tail) span) head := by
  rw [underlies_iff, markIndentation, ← column, Int.toNat_natCast, List.take_left]

/-! ## The excerpt of a mistake -/

/-- Only the byte of a line break stands at the place of one. -/
theorem eq_lineBreakByte_of_place
    {input : Bytes}
    {before behind : Source}
    {byte : UInt8}
    (split : Source.ofBytes input = before ++ lineBreak :: behind)
    (stands : input[before.byteSize]? = some byte) :
    byte = lineBreakByte := by
  obtain ⟨front, back, rfl, decoded⟩ := Source.exists_bytes_of_lineBreak split
  rw [← decoded, Source.byteSize_ofBytes, List.getElem?_append_right (Nat.le_refl _),
    Nat.sub_self] at stands
  exact (Option.some.inj stands).symm

/--
The excerpt of a mistake shows the line of the mistake. The column counts the
runes between the last line break and the rune that the position names. The marks
stand behind white space that is made of these runes and of nothing else, so they
start under that rune.
-/
theorem line?_of_mistake
    {input : Bytes}
    {fault : ParseFault}
    {mistake : Failure}
    {span : Span}
    {byte : UInt8}
    (failed : parseProgram (.ofBytes input) = .error fault)
    (reported : Failure.ofParseFault (.ofBytes input) fault = .parsing (.ofBytes input) [mistake])
    (placed : mistake.span? = some span)
    (inside : input[span.first.offset.toNat]? = some byte)
    (noBreak : byte ≠ lineBreakByte) :
    ∃ (before : Source) (rune : Rune) (behind : Source) (head tail : List Char),
      Source.ofBytes input = before ++ rune :: behind ∧
      span.first.offset = before.byteSize ∧
      head = before.openLine.map Rune.toChar ∧
      head.length = span.first.column ∧
      line? (.ofBytes input) span.first.line = some (head ++ rune.toChar :: tail) ∧
      Underlies (markIndentation (head ++ rune.toChar :: tail) span) head := by
  rw [Failure.ofParseFault_eq] at reported
  cases reported
  obtain ⟨before, behind, split, stands, visible⟩ := exists_place_of_parseProgram failed
  have place : span.first = Position.start.after before := by
    rw [ParseFault.eq_of_span?_mistake placed, stands]
  have offset : span.first.offset = before.byteSize := by
    rw [place, Position.after_eq_ofOffset split]
    rfl
  rw [offset, Int.toNat_natCast] at inside
  -- The position names a byte, so it is not the end of the code.
  cases behind with
  | nil =>
      have atEnd : before.byteSize = input.length := by
        rw [← Source.byteSize_ofBytes, split, List.append_nil]
      rw [atEnd, List.getElem?_eq_none (Nat.le_refl _)] at inside
      cases inside
  | cons rune behind =>
      have plain : rune ≠ lineBreak := by
        rintro rfl
        exact noBreak (eq_lineBreakByte_of_place split inside)
      -- A carriage return is a blank, and no token starts with one.
      have noReturn : rune.toChar ≠ '\r' := by
        intro isReturn
        have shown := visible rune rfl
        rw [isReturn] at shown
        cases shown
      obtain ⟨tail, shown⟩ := line?_of_place split plain noReturn
      have column : ((before.openLine.map Rune.toChar).length : Int) = span.first.column := by
        rw [place, Position.column_start_after, List.length_map]
      exact ⟨before, rune, behind, _, tail, split, offset, rfl, column, place ▸ shown,
        underlies_markIndentation column _⟩

/-- A tab, a string with a stray byte and a parenthesis, between carriage returns. -/
def strayTab : Bytes :=
  [0x78, 0x0D, 0x0A, 0x09, 0x22, 0xFF, 0x22, 0x29, 0x0D, 0x0A]

def strayTabError : SyntaxError :=
  { message := ""
    got := ")"
    gotKind := .parenClose
    position := ⟨7, 2, 4⟩
    hint := "" }

/-- The parenthesis is marked behind the tab and the string. -/
theorem line?_of_mistake_strayTab :
    parseProgram (.ofBytes strayTab) = .error (.grammatical (.unfit strayTabError)) ∧
      ∃ (before : Source) (rune : Rune) (behind : Source) (head tail : List Char),
        Source.ofBytes strayTab = before ++ rune :: behind ∧
        (7 : Int) = before.byteSize ∧
        head = before.openLine.map Rune.toChar ∧
        (head.length : Int) = 4 ∧
        line? (.ofBytes strayTab) 2 = some (head ++ rune.toChar :: tail) ∧
        Underlies (markIndentation (head ++ rune.toChar :: tail) ⟨⟨7, 2, 4⟩, ⟨7, 2, 4⟩⟩)
          head := by
  have failed : parseProgram (.ofBytes strayTab) =
      .error (.grammatical (.unfit strayTabError)) := by
    cbv
  exact ⟨failed, line?_of_mistake failed rfl rfl rfl (by decide)⟩

end Excerpt

end FrenchNim
