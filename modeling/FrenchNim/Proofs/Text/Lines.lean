import FrenchNim.Proofs.Text.Places

namespace FrenchNim

/-!
# The lines of a text

Lines are what line breaks separate, so a text has one line more than it has
line breaks. A place in the text is told by what stands before it: as many lines
as there are line breaks, and on its own line the runes behind the last of them.
-/

namespace Source

/-- The lines of a text, without their line breaks. -/
def lines (text : Source) : List Source :=
  text.splitOn lineBreak

/-- The runes behind the last line break. -/
def openLine (text : Source) : Source :=
  text.rtakeWhile (· ≠ lineBreak)

/-- The runes before the first line break. -/
def firstLine (text : Source) : Source :=
  text.takeWhile (· ≠ lineBreak)

/-- An empty text has one line. -/
theorem lines_nil : lines [] = [[]] :=
  List.splitOn_nil _

/-- A line break begins a line, and any other character belongs to the first one. -/
theorem lines_cons (rune : Rune) (text : Source) :
    lines (rune :: text) =
      if rune = lineBreak then [] :: lines text else (lines text).modifyHead (rune :: ·) := by
  simp [lines, List.splitOn_eq_splitOnP, List.splitOnP_cons_eq_if_modifyHead]

/-- At a line break, the lines are those before it and those behind it. -/
theorem lines_append_lineBreak (front behind : Source) :
    lines (front ++ lineBreak :: behind) = lines front ++ lines behind :=
  List.splitOn_append_cons_self ..

/-- There is one more line than there are line breaks. -/
theorem length_lines (text : Source) : (lines text).length = text.count lineBreak + 1 := by
  induction text with
  | nil =>
      rfl
  | cons rune text inductionHypothesis =>
      rw [lines_cons]
      split
      · next isBreak =>
          rw [isBreak, List.length_cons, inductionHypothesis, List.count_cons_self]
      · next noBreak =>
          rw [List.length_modifyHead, inductionHypothesis, List.count_cons_of_ne noBreak]

/-- The first line is what stands before the first line break. -/
theorem lines_zero (text : Source) : (lines text)[0]? = some text.firstLine := by
  induction text with
  | nil =>
      rfl
  | cons rune text inductionHypothesis =>
      rw [lines_cons]
      split
      · next isBreak =>
          rw [firstLine, List.takeWhile_cons_of_neg (by simp [isBreak])]
          rfl
      · next noBreak =>
          rw [List.getElem?_modifyHead, inductionHypothesis, firstLine, firstLine,
            List.takeWhile_cons_of_pos (by simp [noBreak])]
          rfl

/-- The first character of the first line is that of the text. -/
theorem head?_firstLine
    {text : Source}
    {rune : Rune}
    (isFirst : rune ∈ text.firstLine.head?) :
    rune ∈ text.head? := by
  cases text with
  | nil =>
      exact isFirst
  | cons first rest =>
      rw [firstLine, List.takeWhile_cons] at isFirst
      split at isFirst
      · exact isFirst
      · cases isFirst

/-- Only a line break stands behind an empty line. -/
theorem eq_nil_of_firstLine
    {text : Source}
    (empty : text.firstLine = [])
    (noBreak : lineBreak ∉ text) :
    text = [] := by
  cases text with
  | nil =>
      rfl
  | cons first rest =>
      have plain : first ≠ lineBreak := fun isBreak => noBreak (isBreak ▸ List.mem_cons_self ..)
      rw [firstLine, List.takeWhile_cons_of_pos (by simpa using plain)] at empty
      cases empty

/-- A text without line breaks is a line. -/
theorem lines_of_noBreak {text : Source} (noBreak : lineBreak ∉ text) : lines text = [text] := by
  have single : List.splitOn lineBreak ([lineBreak].intercalate [text]) = [text] :=
    List.splitOn_intercalate lineBreak (by simpa using noBreak) (List.cons_ne_nil _ _)
  rwa [List.intercalate_singleton] at single

/-- Line breaks in front are empty lines. -/
theorem lines_replicate_append (count : Nat) (text : Source) :
    lines (List.replicate count lineBreak ++ text) = List.replicate count [] ++ lines text := by
  induction count with
  | zero =>
      rfl
  | succ count inductionHypothesis =>
      rw [List.replicate_succ, List.cons_append, lines_cons, if_pos rfl, inductionHypothesis]
      rfl

/-- Empty lines in front are line breaks. -/
theorem exists_append_of_lines
    {text : Source}
    {count : Nat}
    {others : List Source}
    (isText : lines text = List.replicate count [] ++ others)
    (more : others ≠ []) :
    ∃ rest, text = List.replicate count lineBreak ++ rest ∧ lines rest = others := by
  induction count generalizing text with
  | zero =>
      exact ⟨text, rfl, isText⟩
  | succ count inductionHypothesis =>
      rw [List.replicate_succ, List.cons_append] at isText
      cases text with
      | nil =>
          rw [lines_nil] at isText
          have none := (List.cons.inj isText).2
          simp [more] at none
      | cons rune text =>
          rw [lines_cons] at isText
          split at isText
          · next isBreak =>
              obtain ⟨rest, rfl, same⟩ := inductionHypothesis (List.cons.inj isText).2
              exact ⟨rest, by rw [isBreak]; rfl, same⟩
          · next noBreak =>
              cases shape : lines text with
              | nil =>
                  rw [shape] at isText
                  cases isText
              | cons first rest =>
                  rw [shape] at isText
                  cases isText

/-- A line break at the end leaves the last line empty. -/
theorem openLine_concat (text : Source) (rune : Rune) :
    openLine (text ++ [rune]) = if rune = lineBreak then [] else openLine text ++ [rune] := by
  rw [openLine, List.rtakeWhile_concat]
  simp [openLine]

/-- The line of a place holds the runes before the place and those behind it. -/
theorem lines_at (before behind : Source) :
    (lines (before ++ behind))[before.count lineBreak]? =
      some (before.openLine ++ behind.firstLine) := by
  induction before using List.reverseRecOn generalizing behind with
  | nil =>
      exact lines_zero behind
  | append_singleton before rune inductionHypothesis =>
      rw [List.append_assoc, List.singleton_append, List.count_append, openLine_concat]
      split
      · next isBreak =>
          rw [isBreak, lines_append_lineBreak, List.count_singleton_self, ← length_lines,
            List.getElem?_append_right (Nat.le_refl _), Nat.sub_self, List.nil_append]
          exact lines_zero behind
      · next noBreak =>
          rw [List.count_singleton, if_neg (by simpa using noBreak), Nat.add_zero,
            inductionHypothesis, firstLine, List.takeWhile_cons_of_pos (by simp [noBreak]),
            List.append_assoc]
          rfl

end Source

namespace Position

/-- Behind a further character stands the next position. -/
theorem after_concat (position : Position) (text : Source) (rune : Rune) :
    position.after (text ++ [rune]) = (position.after text).next rune := by
  rw [after_append, after_cons, after_nil]

/-- The line of a position counts the line breaks before it. -/
theorem line_start_after (text : Source) :
    (start.after text).line = 1 + text.count lineBreak := by
  induction text using List.reverseRecOn with
  | nil =>
      rfl
  | append_singleton text rune inductionHypothesis =>
      rw [after_concat, next, List.count_append]
      split
      · next isBreak =>
          rw [toChar_eq_lineBreak.mp isBreak, List.count_singleton_self]
          simp only [inductionHypothesis]
          omega
      · next noBreak =>
          have plain : rune ≠ lineBreak := fun same => noBreak (toChar_eq_lineBreak.mpr same)
          rw [List.count_singleton, if_neg (by simpa using plain)]
          exact inductionHypothesis

/-- The column of a position counts the runes before it on its line. -/
theorem column_start_after (text : Source) :
    (start.after text).column = text.openLine.length := by
  induction text using List.reverseRecOn with
  | nil =>
      rfl
  | append_singleton text rune inductionHypothesis =>
      rw [after_concat, next, Source.openLine_concat]
      split
      · next isBreak =>
          rw [if_pos (toChar_eq_lineBreak.mp isBreak)]
          rfl
      · next noBreak =>
          rw [if_neg fun same => noBreak (toChar_eq_lineBreak.mpr same), List.length_append]
          simp only [inductionHypothesis, List.length_singleton]
          omega

end Position

end FrenchNim
