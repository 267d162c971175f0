import FrenchNim.Proofs.Nim.Literals
import FrenchNim.Proofs.Nim.Operands
import FrenchNim.Proofs.Nim.Rows

namespace FrenchNim.Nim

/-!
# Lines of emitted code

A margin is kept by a text if each line that begins in it is indented. Only line
breaks matter for that, and what stands right behind them. Words, numbers and
literals have no line breaks, and the code of statements ends with one, so a row
of chunks keeps a margin if its parts do.
-/

/-- How many spaces a text begins with. -/
def leading (text : List Char) : Nat :=
  (text.takeWhile (· = ' ')).length

/-- Every line of the text that is not empty begins with at least so many spaces. -/
def Indented (width : Nat) (text : String) : Prop :=
  ∀ line ∈ text.toList.splitOn '\n', line ≠ [] → width ≤ leading line

instance (width : Nat) (text : String) : Decidable (Indented width text) :=
  List.decidableBAll _ _

/-- The first line of the text keeps the margin. -/
def StartsLine (width : Nat) : List Char → Prop
  | [] => True
  | c :: rest => c = '\n' ∨ width ≤ leading (c :: rest)

/-- The lines behind the line breaks of the text keep the margin. -/
def KeepsMargin (width : Nat) : List Char → Prop
  | [] => True
  | c :: rest => (c = '\n' → StartsLine width rest) ∧ KeepsMargin width rest

/-- The text goes on in a line: it would not do as the beginning of an indented one. -/
def Continues (text : List Char) : Prop :=
  ¬ StartsLine 2 text

instance (width : Nat) (text : List Char) : Decidable (StartsLine width text) :=
  match text with
  | [] => inferInstanceAs (Decidable True)
  | _ :: _ => inferInstanceAs (Decidable (_ ∨ _))

/-- The text goes on in a line, whatever follows. -/
def GoesOn (text : String) : Prop :=
  Continues text.toList ∧ text.toList.any (· ≠ ' ') = true

instance (text : String) : Decidable (GoesOn text) :=
  inferInstanceAs (Decidable (¬ StartsLine 2 text.toList ∧ _ = true))

/-- The text is empty or ends with a line break. -/
def EndsLine (text : List Char) : Prop :=
  text.getLast?.getD '\n' = '\n'

section Leading

variable {c : Char} {text rest : List Char}

/-- A leading space counts. -/
theorem leading_space : leading (' ' :: rest) = leading rest + 1 := by
  simp [leading]

/-- Any other character ends the count. -/
theorem leading_other (visible : c ≠ ' ') : leading (c :: rest) = 0 := by
  simp [leading, visible]

/-- Indentation counts two spaces for each level. -/
theorem leading_indentation (place : Place) (rest : List Char) :
    leading (place.indentation.toList ++ rest) = 2 * place.depth + leading rest := by
  rw [Place.indentation, String.toList_ofList]
  induction 2 * place.depth with
  | zero =>
      rw [List.replicate_zero, List.nil_append, Nat.zero_add]
  | succ count inductionHypothesis =>
      rw [List.replicate_succ, List.cons_append, leading_space, inductionHypothesis]
      omega

/-- Nothing behind a visible character counts. -/
theorem leading_append (visible : text.any (· ≠ ' ') = true) :
    leading (text ++ rest) = leading text := by
  induction text with
  | nil =>
      cases visible
  | cons c more inductionHypothesis =>
      by_cases isSpace : c = ' '
      · subst isSpace
        rw [List.cons_append, leading_space, leading_space,
          inductionHypothesis (by simpa using visible)]
      · rw [List.cons_append, leading_other isSpace, leading_other isSpace]

/-- Nothing behind a line break counts. -/
theorem leading_append_break (line rest : List Char) :
    leading (line ++ '\n' :: rest) = leading (line ++ ['\n']) := by
  rw [← List.singleton_append, ← List.append_assoc]
  exact leading_append (by simp)

end Leading

section Margins

variable {width : Nat} {c : Char} {text rest : List Char}

/-- A text that is indented far enough starts a line. -/
theorem startsLine_of_le (deep : width ≤ leading text) : StartsLine width text := by
  cases text with
  | nil => trivial
  | cons c more => exact .inr deep

/-- Nothing behind the line break decides whether its line keeps the margin. -/
theorem startsLine_append_break (line rest : List Char) :
    StartsLine width (line ++ '\n' :: rest) ↔ StartsLine width (line ++ ['\n']) := by
  cases line with
  | nil => exact iff_of_true (.inl rfl) (.inl rfl)
  | cons c more =>
      rw [List.cons_append, StartsLine, ← List.cons_append, leading_append_break]
      rfl

/-- A text that goes on in a line starts no indented one. -/
theorem Continues.not_startsLine
    (continues : Continues text)
    (wide : 2 ≤ width) :
    ¬ StartsLine width text := by
  cases text with
  | nil => exact (continues trivial).elim
  | cons c more =>
      rintro (isBreak | deep)
      · exact continues (.inl isBreak)
      · exact continues (.inr (Nat.le_trans wide deep))

/-- A text with a visible character goes on whatever follows. -/
theorem GoesOn.continues
    {text : String}
    (goesOn : GoesOn text)
    (rest : List Char) :
    Continues (text.toList ++ rest) := by
  obtain ⟨continues, visible⟩ := goesOn
  cases chars : text.toList with
  | nil =>
      rw [chars] at visible
      cases visible
  | cons c more =>
      rw [chars] at continues visible
      rintro (isBreak | deep)
      · exact continues (.inl isBreak)
      · have same : leading (c :: more ++ rest) = leading (c :: more) := leading_append visible
        exact continues (.inr (same ▸ deep))

theorem GoesOn.append
    {first : String}
    (goesOn : GoesOn first)
    (second : String) :
    GoesOn (first ++ second) := by
  rw [GoesOn, String.toList_append, List.any_append, goesOn.2]
  exact ⟨goesOn.continues _, rfl⟩

/-- A character that is no line break does not matter. -/
theorem keepsMargin_cons (noBreak : c ≠ '\n') :
    KeepsMargin width (c :: rest) ↔ KeepsMargin width rest :=
  and_iff_right fun isBreak => (noBreak isBreak).elim

/-- Without a margin there is nothing to keep. -/
theorem keepsMargin_zero (text : List Char) : KeepsMargin 0 text := by
  induction text with
  | nil => trivial
  | cons c rest inductionHypothesis =>
      exact ⟨fun _ => startsLine_of_le (Nat.zero_le _), inductionHypothesis⟩

/-- A line break keeps every margin. -/
theorem keepsMargin_lineBreak : KeepsMargin width ['\n'] :=
  ⟨fun _ => trivial, trivial⟩

/-- Code within a line does not matter. -/
theorem keepsMargin_append (noBreak : '\n' ∉ text) :
    KeepsMargin width (text ++ rest) ↔ KeepsMargin width rest := by
  induction text with
  | nil =>
      rfl
  | cons c more inductionHypothesis =>
      rw [List.cons_append, keepsMargin_cons (List.ne_of_not_mem_cons noBreak).symm,
        inductionHypothesis (List.not_mem_of_not_mem_cons noBreak)]

/-- Behind a line break a line starts. -/
theorem keepsMargin_break :
    KeepsMargin width ('\n' :: rest) ↔ StartsLine width rest ∧ KeepsMargin width rest :=
  and_congr_left' (forall_prop_of_true rfl)

/-- A line break parts a text. -/
theorem keepsMargin_append_break (before rest : List Char) :
    KeepsMargin width (before ++ '\n' :: rest) ↔
      KeepsMargin width (before ++ ['\n']) ∧ KeepsMargin width ('\n' :: rest) := by
  induction before with
  | nil =>
      exact (and_iff_right ⟨fun _ => trivial, trivial⟩).symm
  | cons c more inductionHypothesis =>
      rw [List.cons_append, KeepsMargin, startsLine_append_break, inductionHypothesis, ← and_assoc]
      rfl

/-- Text that ends its line and the text behind it keep the margin each on its own. -/
theorem EndsLine.keepsMargin_append
    (ends : EndsLine text)
    (rest : List Char) :
    KeepsMargin width ('\n' :: (text ++ rest)) ↔
      KeepsMargin width ('\n' :: text) ∧ KeepsMargin width ('\n' :: rest) := by
  have ended : ('\n' :: text).getLast? = some '\n' := by
    rw [List.getLast?_cons, ends]
  obtain ⟨before, same⟩ := List.getLast?_eq_some_iff.mp ended
  rw [← List.cons_append, same, List.append_assoc, List.singleton_append,
    keepsMargin_append_break]

/-- What stands behind text that ends its line begins a line. -/
theorem EndsLine.startsLine
    (ends : EndsLine text)
    (keeps : KeepsMargin width ('\n' :: (text ++ rest))) :
    StartsLine width rest :=
  (keepsMargin_break.mp ((ends.keepsMargin_append rest).mp keeps).2).1

/-- A line of the right depth. -/
theorem keepsMargin_line
    {place : Place}
    (deep : width ≤ 2 * place.depth)
    (rest : List Char) :
    KeepsMargin width ('\n' :: (place.indentation.toList ++ rest)) ↔ KeepsMargin width rest := by
  have noBreak : '\n' ∉ place.indentation.toList := by
    rw [Place.indentation, String.toList_ofList]
    simp
  have starts : StartsLine width (place.indentation.toList ++ rest) :=
    startsLine_of_le (by rw [leading_indentation]; omega)
  rw [keepsMargin_break, keepsMargin_append noBreak]
  exact and_iff_right starts

/-- An empty text ends a line. -/
theorem endsLine_nil : EndsLine [] :=
  rfl

/-- A text ends a line if both of its parts do. -/
theorem EndsLine.append
    (ends : EndsLine text)
    (restEnds : EndsLine rest) :
    EndsLine (text ++ rest) := by
  rw [EndsLine, List.getLast?_append]
  cases last : rest.getLast? with
  | none => exact ends
  | some c => rwa [EndsLine, last] at restEnds

/-- A line break with whole lines behind it ends with a line break. -/
theorem EndsLine.getLast?_break (restEnds : EndsLine rest) :
    ('\n' :: rest).getLast? = some '\n' := by
  rw [List.getLast?_cons, restEnds]

end Margins

/-- The lines of a text begin at its start and behind its line breaks. -/
theorem lines_keep_iff (width : Nat) (text : List Char) :
    ∃ first more, text.splitOn '\n' = first :: more ∧ leading first = leading text ∧
      (StartsLine width text ↔ (first ≠ [] → width ≤ leading first)) ∧
      (KeepsMargin width text ↔ ∀ line ∈ more, line ≠ [] → width ≤ leading line) := by
  induction text with
  | nil =>
      exact ⟨[], [], rfl, rfl, by simp [StartsLine], by simp [KeepsMargin]⟩
  | cons c rest inductionHypothesis =>
      obtain ⟨first, more, lines, sameLeading, starts, keeps⟩ := inductionHypothesis
      by_cases isBreak : c = '\n'
      · subst isBreak
        refine ⟨[], first :: more, ?_, (leading_other (by decide)).symm, by simp [StartsLine], ?_⟩
        · rw [List.splitOn, List.splitOnP_cons_eq_if_modifyHead, if_pos (beq_self_eq_true _),
            ← List.splitOn, lines]
        · rw [keepsMargin_break, List.forall_mem_cons, starts, keeps]
      · have sameLine : leading (c :: first) = leading (c :: rest) := by
          by_cases isSpace : c = ' '
          · rw [isSpace, leading_space, leading_space, sameLeading]
          · rw [leading_other isSpace, leading_other isSpace]
        refine ⟨c :: first, more, ?_, sameLine, ?_, by rw [keepsMargin_cons isBreak, keeps]⟩
        · rw [List.splitOn, List.splitOnP_cons_eq_if_modifyHead,
            if_neg (by simpa using isBreak), ← List.splitOn, lines, List.modifyHead_cons]
        · rw [sameLine]
          simp [StartsLine, isBreak]

/-- A text is indented if it keeps the margin behind a line break. -/
theorem indented_iff
    (width : Nat)
    (text : String) :
    Indented width text ↔ KeepsMargin width ('\n' :: text.toList) := by
  obtain ⟨first, more, lines, -, starts, keeps⟩ := lines_keep_iff width text.toList
  rw [Indented, lines, List.forall_mem_cons, keepsMargin_break, starts, keeps]

/-! ## Code within a line -/

/-- The words of the vocabulary stand in a line, and so does the start of embedded code. -/
structure FitsLines (vocabulary : Vocabulary) : Prop where
  name : ∀ {word}, vocabulary.name word → IsWord word.toList
  operator : ∀ {word}, vocabulary.operator word → word ∈ binaryOperators
  code : ∀ {text}, vocabulary.code text → text = "" ∨ Sign.OpensWith (· ≠ ' ') text

/-- The text has no line break. -/
def IsLine (text : String) : Prop :=
  '\n' ∉ text.toList

instance (text : String) : Decidable (IsLine text) :=
  inferInstanceAs (Decidable (¬ _))

/-- Two parts of a line make a part of a line. -/
theorem IsLine.append
    {first second : String}
    (isLine : IsLine first)
    (rest : IsLine second) :
    IsLine (first ++ second) := by
  rw [IsLine, String.toList_append, List.mem_append]
  exact fun found => found.elim isLine rest

/-- Characters that are no line breaks make a part of a line. -/
theorem isLine_ofList {text : List Char} (noBreak : ∀ c ∈ text, c ≠ '\n') :
    IsLine (String.ofList text) := by
  rw [IsLine, String.toList_ofList]
  exact fun found => noBreak '\n' found rfl

theorem isLine_intercalate
    {separator : String}
    (separates : IsLine separator)
    {texts : List String}
    (areLines : ∀ text ∈ texts, IsLine text) :
    IsLine (String.intercalate separator texts) := by
  induction texts with
  | nil =>
      rw [String.intercalate_nil]
      decide
  | cons first rest inductionHypothesis =>
      obtain ⟨isLine, others⟩ := List.forall_mem_cons.mp areLines
      cases rest with
      | nil =>
          rwa [String.intercalate_singleton]
      | cons second more =>
          rw [String.intercalate_cons_cons]
          exact (isLine.append separates).append (inductionHypothesis others)

/-- A word has no line break. -/
theorem isLine_word {word : String} (isWord : IsWord word.toList) : IsLine word := by
  intro found
  cases chars : word.toList with
  | nil =>
      rw [chars] at found
      cases found
  | cons first rest =>
      rw [chars] at isWord found
      rcases List.mem_cons.mp found with rfl | inRest
      · exact absurd isWord.1 (by decide)
      · exact absurd (isWord.2 _ inRest) (by decide)

/-- An operator has no line break. -/
theorem isLine_operator {word : String} (listed : word ∈ binaryOperators) : IsLine word := by
  have lines : ∀ word ∈ binaryOperators, IsLine word := by
    decide
  exact lines word listed

/-- An operator goes on in its line. -/
theorem goesOn_operator {word : String} (listed : word ∈ binaryOperators) : GoesOn word := by
  have goOn : ∀ word ∈ binaryOperators, GoesOn word := by
    decide
  exact goOn word listed

/-- A digit is no line break. -/
theorem digit_ne_break {c : Char} (digit : c.isDigit = true) : c ≠ '\n' := by
  rintro rfl
  cases digit

/-- The digits of a decimal number hold no line break. -/
theorem row_ne_break (decimal : Decimal) : ∀ c ∈ decimal.row, c ≠ '\n' :=
  fun _ member => digit_ne_break (Nat.isDigit_of_mem_toDigits (by decide) (by decide) member)

/-- A number in positional notation has no line break. -/
theorem isLine_positional (decimal : Decimal) : IsLine decimal.positional := by
  have row := row_ne_break decimal
  have zeros : ∀ count, ∀ c ∈ List.replicate count '0', c ≠ '\n' := by
    intro count c member
    rw [List.eq_of_mem_replicate member]
    decide
  unfold Decimal.positional
  simp only
  split
  · refine isLine_ofList (List.forall_mem_append.mpr ⟨?_, row⟩)
    exact List.forall_mem_append.mpr ⟨by simp, zeros _⟩
  split
  · exact isLine_ofList (List.forall_mem_append.mpr ⟨row, zeros _⟩)
  · refine isLine_ofList (List.forall_mem_append.mpr ⟨fun c member => ?_, ?_⟩)
    · exact row c (List.mem_of_mem_take member)
    · refine List.forall_mem_cons.mpr ⟨by decide, fun c member => ?_⟩
      exact row c (List.mem_of_mem_drop member)

/-- A number in scientific notation has no line break. -/
theorem isLine_scientific (decimal : Decimal) : IsLine decimal.scientific := by
  have row := row_ne_break decimal
  unfold Decimal.scientific
  simp only
  refine ((IsLine.append ?_ (by decide)).append ?_).append ?_
  · cases digits : decimal.row with
    | nil =>
        decide
    | cons first rest =>
        rw [digits] at row
        cases rest with
        | nil => exact isLine_ofList row
        | cons second more =>
            obtain ⟨isFirst, others⟩ := List.forall_mem_cons.mp row
            exact isLine_ofList (List.forall_mem_cons.mpr
              ⟨isFirst, List.forall_mem_cons.mpr ⟨by decide, others⟩⟩)
  · split <;> decide
  · exact isLine_ofList fun c member =>
      digit_ne_break (Nat.isDigit_of_mem_toDigits (by decide) (by decide) member)

/-- The text of a number has no line break. -/
theorem isLine_number (number : Double) : IsLine (number.text numberStyle) := by
  unfold Double.text
  split
  · decide
  split
  · split <;> decide
  split
  · split <;> decide
  have isLine : IsLine number.shortest.text := by
    unfold Decimal.text
    split
    · exact isLine_positional _
    · exact isLine_scientific _
  split
  · exact IsLine.append (by decide) isLine
  · exact isLine

section Words

variable {vocabulary : Vocabulary} (fits : FitsLines vocabulary)

include fits

/-- An emitted name has no line break. -/
theorem isLine_name
    (place : Place)
    {identifier : Identifier}
    (known : vocabulary.name identifier.name) :
    IsLine (name place identifier) := by
  unfold name
  split
  · decide
  · exact isLine_word (fits.name known)

/-- The header of a closure has no line break. -/
theorem isLine_closureHeader
    {parameters : List Identifier}
    (known : vocabulary.Names parameters) :
    IsLine (closureHeader parameters) := by
  have names : IsLine (parameterList [] parameters) := by
    refine isLine_intercalate (by decide) fun text member => ?_
    obtain ⟨parameter, isParameter, rfl⟩ := List.mem_map.mp member
    exact (isLine_word (fits.name (known parameter isParameter))).append (by decide)
  have opening : IsLine "proc(" := by decide
  have ending : IsLine "): auto \x7b.closure, gcsafe.\x7d =" := by decide
  exact (opening.append names).append ending

/-- The beginning of a declared variable has no line break. -/
theorem isLine_variableHead
    (place : Place)
    {identifier : Identifier}
    (known : vocabulary.name identifier.name) :
    IsLine (variableHead place identifier) := by
  refine (IsLine.append (IsLine.append (by decide) (isLine_word (fits.name known))) ?_).append
    (by decide)
  split <;> decide

end Words

/-- The literal of a string has no line break if the string has none. -/
theorem isLine_string {value : String} (oneLine : '\n' ∉ value.toList) :
    IsLine (stringLiteral value) := by
  rw [IsLine, toList_stringLiteral]
  simp only [List.cons_append, List.mem_cons, List.mem_append, escaped, List.mem_flatMap]
  rintro (isQuote | ⟨c, member, found⟩ | isQuote | atEnd)
  · exact absurd isQuote (by decide)
  · split at found
    · simp at found
    split at found
    · simp at found
    · exact oneLine (List.mem_singleton.mp found ▸ member)
  · exact absurd isQuote (by decide)
  · cases atEnd

/-! ## Statements end their lines -/

mutual

/-- The code of a block ends with a line break, if there is any. -/
theorem endsLine_block (place : Place) : ∀ block, EndsLine (Chunk.spelled (blockRow place block))
  | .of statements _ => endsLine_statements place statements
  | .missing => endsLine_nil

theorem endsLine_statements (place : Place) :
    ∀ nodes, EndsLine (Chunk.spelled (statementsRow place nodes))
  | [] => endsLine_nil
  | first :: rest => by
      rw [statementsRow, Chunk.spelled_append]
      exact (endsLine_statement place first).append (endsLine_statements place rest)

/-- The code of a statement ends with a line break. -/
theorem endsLine_statement (place : Place) :
    ∀ node, EndsLine (Chunk.spelled (statementRow place node))
  | .returned value _ => by
      have ended := endsLine_nil.getLast?_break
      simp only [EndsLine, statementRow, Chunk.spelled_code, Chunk.spelled_append,
        Chunk.spelled_lineBreak, Chunk.spelled_nil, List.getLast?_append, ended, Option.some_or,
        Option.getD_some]
  | .declared identifier value _ => by
      have ended := endsLine_nil.getLast?_break
      simp only [EndsLine, statementRow, Chunk.spelled_code, Chunk.spelled_append,
        Chunk.spelled_lineBreak, Chunk.spelled_nil, List.getLast?_append, ended, Option.some_or,
        Option.getD_some]
  | .assigned target value => by
      have ended := endsLine_nil.getLast?_break
      simp only [EndsLine, statementRow, Chunk.spelled_code, Chunk.spelled_append,
        Chunk.spelled_lineBreak, Chunk.spelled_nil, List.getLast?_append, ended, Option.some_or,
        Option.getD_some]
  | .evaluated value => by
      have ended := endsLine_nil.getLast?_break
      simp only [EndsLine, statementRow, Chunk.spelled_code, Chunk.spelled_append,
        Chunk.spelled_lineBreak, Chunk.spelled_nil, List.getLast?_append, ended, Option.some_or,
        Option.getD_some]
  | .conditional test consequent alternative _ => by
      have other := (endsLine_block place.nested alternative).getLast?_break
      have otherwise : EndsLine (Chunk.spelled (if alternative.isEmpty then [] else
          .code place.indentation :: .code "else:" :: .header place.depth ::
            blockRow place.nested alternative)) := by
        split
        · exact endsLine_nil
        · simp only [EndsLine, Chunk.spelled_code, Chunk.spelled_header, List.getLast?_append,
            other, Option.some_or, Option.getD_some]
      have ended := ((endsLine_block place.nested consequent).append otherwise).getLast?_break
      simp only [EndsLine, statementRow, Chunk.spelled_code, Chunk.spelled_append,
        Chunk.spelled_header, List.getLast?_append, ended, Option.some_or, Option.getD_some]
  | .whileLoop test body _ => by
      have ended := (endsLine_block place.nested body).getLast?_break
      simp only [EndsLine, statementRow, Chunk.spelled_code, Chunk.spelled_append,
        Chunk.spelled_header, List.getLast?_append, ended, Option.some_or, Option.getD_some]
  | .forLoop initial test increment body _ => by
      have ended := ((endsLine_block place.nested body).append
        (endsLine_statement place.nested increment)).getLast?_break
      simp only [EndsLine, statementRow, Chunk.spelled_code, Chunk.spelled_append,
        Chunk.spelled_header, List.getLast?_append, ended, Option.some_or, Option.getD_some]
  | .unknown _ _ => endsLine_nil
  | .missing => endsLine_nil

end

end FrenchNim.Nim
