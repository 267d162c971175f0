import FrenchNim.Pipeline
import FrenchNim.Proofs.Text.Decoding
import FrenchNim.Text.Trim

namespace FrenchNim

/-!
# Texts that are normalized one after the other

A character that is no mark starts a new segment, so the text before it and the
text from it on are normalized apart from each other. A line break is no mark,
and neither is any white space, which stays white space.
-/

namespace CodeTable

/-- What is found in a table stands in it. -/
theorem mem_of_entry?
    {α : Type}
    {key : α → Nat}
    {table : Array α}
    {code : Nat}
    {entry : α}
    (found : entry? key table code = some entry) :
    entry ∈ table :=
  Array.mem_of_getElem? found

/-- What is checked for a whole table holds for its entries. -/
theorem check_of_mem
    {α : Type}
    {table : Array α}
    {check : α → Bool}
    (checked : table.toList.all check = true)
    {entry : α}
    (member : entry ∈ table) :
    check entry = true :=
  List.all_eq_true.mp checked entry (Array.mem_toList_iff.mpr member)

/-- A value that is found for a code stands beside it in the table. -/
theorem mem_of_value?
    {α : Type}
    {table : Array (Nat × α)}
    {code : Nat}
    {value : α}
    (found : value? table code = some value) :
    (code, value) ∈ table := by
  unfold value? at found
  split at found
  · next key other isEntry =>
      split at found
      · next isKey =>
          cases found
          exact isKey ▸ mem_of_entry? isEntry
      · cases found
  · cases found

/-- A value that is found for a code stands beside a range that holds the code. -/
theorem mem_of_rangeValue?
    {table : Array (Nat × Nat × Nat)}
    {code value : Nat}
    (found : rangeValue? table code = some value) :
    ∃ first last, (first, last, value) ∈ table ∧ first ≤ code ∧ code ≤ last := by
  unfold rangeValue? at found
  split at found
  · next first last other isEntry =>
      split at found
      · next isInside =>
          cases found
          exact ⟨first, last, mem_of_entry? isEntry, isInside⟩
      · cases found
  · cases found

/-- A code that is found in a table of ranges is in one of them. -/
theorem mem_of_inRanges
    {table : Array (Nat × Nat)}
    {code : Nat}
    (found : inRanges table code = true) :
    ∃ first last, (first, last) ∈ table ∧ first ≤ code ∧ code ≤ last := by
  unfold inRanges at found
  split at found
  · next first last isEntry =>
      rw [Bool.and_eq_true, decide_eq_true_eq, decide_eq_true_eq] at found
      exact ⟨first, last, mem_of_entry? isEntry, found⟩
  · cases found

end CodeTable

namespace Canonical

/-! ## Numbers of marks -/

/-- A syllable has three letters at most. -/
theorem length_syllableLetters_le (code : Nat) : (syllableLetters code).length ≤ 3 := by
  simp only [syllableLetters]
  split <;> simp

/-- Without fuel a code stays whole. -/
theorem decompose_zero (code : Nat) : decompose 0 code = [code] :=
  rfl

-- The tables are as deep as they are long.
set_option maxRecDepth 4000 in
/-- A code is decomposed as a syllable, to another code or to a pair, or stays whole. -/
theorem decompose_succ (fuel code : Nat) :
    decompose (fuel + 1) code =
      if code < firstDecomposing then
        [code]
      else if isSyllable code then
        syllableLetters code
      else
        match singleton? code with
        | some other => decompose fuel other
        | none =>
            match pair? code with
            | some (left, right) => decompose fuel left ++ decompose fuel right
            | none => [code] :=
  rfl

/-- The decompositions of the tables do not get long. -/
theorem length_decompose_le (fuel code : Nat) :
    2 * (decompose fuel code).length ≤ 3 * Nat.pow 2 fuel := by
  induction fuel generalizing code with
  | zero =>
      rw [decompose_zero, List.length_singleton]
      decide
  | succ fuel inductionHypothesis =>
      have positive : 1 ≤ Nat.pow 2 fuel := Nat.one_le_two_pow
      rw [decompose_succ, show Nat.pow 2 (fuel + 1) = Nat.pow 2 fuel * 2 from rfl]
      split
      · rw [List.length_singleton]
        omega
      split
      · have short := length_syllableLetters_le code
        omega
      cases singleton? code with
      | some other =>
          have short := inductionHypothesis other
          simp only
          omega
      | none =>
          cases pair? code with
          | some pair =>
              have shortLeft := inductionHypothesis pair.1
              have shortRight := inductionHypothesis pair.2
              simp only [List.length_append]
              omega
          | none =>
              rw [List.length_singleton]
              omega

/-- Few marks stand at the beginning of a decomposition. -/
theorem leadingMarks_le (code : Nat) : leadingMarks code ≤ mostMarks := by
  have short := length_decompose_le deepest code
  have front := (List.takeWhile_prefix (l := decompose deepest code) isMark).length_le
  rw [show 3 * Nat.pow 2 deepest = 48 from rfl] at short
  unfold leadingMarks mostMarks
  split
  · decide
  split
  · decide
  · omega

/-- Few marks stand at the end of a decomposition. -/
theorem trailingMarks_le (code : Nat) : trailingMarks code ≤ mostMarks := by
  have short := length_decompose_le deepest code
  have front := (List.takeWhile_prefix (l := (decompose deepest code).reverse) isMark).length_le
  rw [show 3 * Nat.pow 2 deepest = 48 from rfl] at short
  rw [List.length_reverse] at front
  have few : ∀ entry ∈ trailingCounts, entry.2.2 ≤ mostMarks := by
    decide
  unfold trailingMarks
  cases found : CodeTable.rangeValue? trailingCounts code with
  | some count =>
      obtain ⟨first, last, member, -⟩ := CodeTable.mem_of_rangeValue? found
      exact few _ member
  | none =>
      simp only [mostMarks]
      split <;> omega

/-! ## Segments -/

/-- The normalized text before a segment is only kept. -/
theorem normalizeOnto_eq
    (done : Source)
    (segment : List Part)
    (marks : Nat)
    (text : Source) :
    normalizeOnto done segment marks text =
      done.reverse ++ normalizeOnto [] segment marks text := by
  induction text generalizing done segment marks with
  | nil =>
      simp [normalizeOnto]
  | cons rune rest inductionHypothesis =>
      cases rune with
      | stray byte =>
          rw [normalizeOnto, normalizeOnto]
          split
          · simp
          · rw [inductionHypothesis, inductionHypothesis (.stray byte :: _)]
            simp
      | char c =>
          rw [normalizeOnto, normalizeOnto]
          split
          · rw [inductionHypothesis, inductionHypothesis (_ ++ [])]
            simp
          split
          · rw [inductionHypothesis, inductionHypothesis (_ ++ [])]
            simp
          · exact inductionHypothesis done _ _

/-- A character that is no mark closes the segment before it. -/
theorem normalizeOnto_starter
    {c : Char}
    {marks : Nat}
    (isStarter : leadingMarks c.toNat = 0)
    (within : marks ≤ mostMarks)
    (segment : List Part)
    (rest : Source) :
    normalizeOnto [] segment marks (.char c :: rest) =
      closeSegment segment ++ normalize (.char c :: rest) := by
  have alone : ∀ segment marks, marks ≤ mostMarks →
      normalizeOnto [] segment marks (.char c :: rest) = closeSegment segment ++
        normalizeOnto [] (extend [] c.toNat) (trailingMarks c.toNat) rest := by
    intro segment marks within
    rw [normalizeOnto, isStarter, if_neg (by omega), if_pos rfl, normalizeOnto_eq]
    simp
  rw [alone segment marks within, normalize, alone [] 0 (Nat.zero_le _)]
  rfl

/-- The text before a character that is no mark is normalized without the text from it on. -/
theorem normalizeOnto_append
    {c : Char}
    (isStarter : leadingMarks c.toNat = 0)
    (front : List Char)
    (rest : Source) :
    ∀ segment marks, marks ≤ mostMarks →
      normalizeOnto [] segment marks (front.map .char ++ .char c :: rest) =
        normalizeOnto [] segment marks (front.map .char) ++ normalize (.char c :: rest) := by
  -- Up to the bound on the marks, no joiner is written in front of `c`.
  induction front with
  | nil =>
      intro segment marks within
      rw [List.map_nil, List.nil_append, normalizeOnto_starter isStarter within]
      simp [normalizeOnto]
  | cons first front inductionHypothesis =>
      intro segment marks within
      rw [List.map_cons, List.cons_append, normalizeOnto, normalizeOnto]
      split
      · rw [normalizeOnto_eq, normalizeOnto_eq (_ ++ []) _ _ (front.map .char),
          inductionHypothesis _ _ (leadingMarks_le _), List.append_assoc]
      split
      · rw [normalizeOnto_eq, normalizeOnto_eq (_ ++ []) _ _ (front.map .char),
          inductionHypothesis _ _ (trailingMarks_le _), List.append_assoc]
      · exact inductionHypothesis _ _ (by omega)

end Canonical

/-- A text and a text that starts with no mark are normalized apart from each other. -/
theorem normalize_append
    {c : Char}
    (isStarter : Canonical.leadingMarks c.toNat = 0)
    (front : List Char)
    (rest : Source) :
    normalize (front.map .char ++ .char c :: rest) =
      normalize (front.map .char) ++ normalize (.char c :: rest) :=
  Canonical.normalizeOnto_append isStarter front rest [] 0 (Nat.zero_le _)

/-- A character is normalized apart from a text that does not start with a mark. -/
theorem normalize_cons
    (c : Char)
    {rest : List Char}
    (starts : ∀ next ∈ rest.head?, Canonical.leadingMarks next.toNat = 0) :
    normalize (.char c :: rest.map .char) = normalize [.char c] ++ normalize (rest.map .char) := by
  cases rest with
  | nil =>
      exact (List.append_nil _).symm
  | cons next more =>
      exact normalize_append (starts next rfl) [c] (more.map .char)

namespace Canonical

/-- A character that decomposes to one other is normalized to it. -/
theorem normalize_singleton
    {c : Char}
    (isStarter : leadingMarks c.toNat = 0)
    (noSyllable : isSyllable c.toNat = false)
    {other : Nat}
    (alone : decompose deepest c.toNat = [other]) :
    normalize [.char c] = [.char (Char.ofNat other)] := by
  have apart : parts c.toNat = [.of other] := by
    rw [parts, noSyllable, alone]
    rfl
  rw [normalize, normalizeOnto, isStarter, if_neg (by omega), if_pos rfl, normalizeOnto, extend,
    apart]
  rfl

/-! ## Plain text -/

/-- The first characters are no marks. -/
theorem loneMarks_above :
    (loneMarks.toList.all fun entry => Nat.ble firstDecomposing entry.1) = true := by
  decide

/-- The first characters do not begin with a mark. -/
theorem leadingMarks_of_lt
    {code : Nat}
    (plain : code < firstDecomposing) :
    leadingMarks code = 0 := by
  have notLone : CodeTable.inRanges loneMarks code = false := by
    rw [← Bool.not_eq_true]
    intro found
    obtain ⟨first, last, member, low, -⟩ := CodeTable.mem_of_inRanges found
    have above := Nat.le_of_ble_eq_true (CodeTable.check_of_mem loneMarks_above member)
    omega
  rw [leadingMarks, notLone, if_neg Bool.false_ne_true, if_pos plain]

/-- The first characters are normalized already. -/
theorem normalize_of_lt
    {c : Char}
    (plain : c.toNat < firstDecomposing) :
    normalize [.char c] = [.char c] := by
  have noSyllable : isSyllable c.toNat = false := by
    have below : ¬syllableBase ≤ c.toNat := by
      simp only [firstDecomposing, syllableBase] at plain ⊢
      omega
    rw [isSyllable, decide_eq_false below]
    rfl
  have alone : decompose deepest c.toNat = [c.toNat] := by
    rw [deepest, decompose_succ, if_pos plain]
  rw [normalize_singleton (leadingMarks_of_lt plain) noSyllable alone, Char.ofNat_toNat]

end Canonical

/-- Text without accents stays as it is. -/
theorem normalize_plain
    {text : List Char}
    (plain : ∀ c ∈ text, c.toNat < Canonical.firstDecomposing) :
    normalize (text.map .char) = text.map .char := by
  induction text with
  | nil =>
      rfl
  | cons c rest inductionHypothesis =>
      obtain ⟨first, later⟩ := List.forall_mem_cons.mp plain
      have starts : ∀ next ∈ rest.head?, Canonical.leadingMarks next.toNat = 0 :=
        fun next isNext => Canonical.leadingMarks_of_lt (later next (List.mem_of_head? isNext))
      rw [List.map_cons, normalize_cons c starts, Canonical.normalize_of_lt first,
        inductionHypothesis later]
      rfl

/-! ## White space -/

namespace Canonical

/-- The ranges of white space. -/
def whiteRanges : List (Nat × Nat) :=
  [(0x09, 0x0D), (0x20, 0x20), (0x85, 0x85), (0xA0, 0xA0), (0x1680, 0x1680), (0x2000, 0x200A),
    (0x2028, 0x2029), (0x202F, 0x202F), (0x205F, 0x205F), (0x3000, 0x3000)]

/-- No code of a range is white space. -/
def isVisible (first last : Nat) : Bool :=
  whiteRanges.all fun range => Nat.blt last range.1 || Nat.blt range.2 first

/-- White space is what is not visible. -/
theorem isWhiteSpace_eq (c : Char) : isWhiteSpace c = !isVisible c.toNat c.toNat := by
  rw [Bool.eq_iff_iff]
  simp only [isWhiteSpace, isVisible, whiteRanges, List.all_cons, List.all_nil, Bool.not_eq_true',
    ← Bool.not_eq_true, Bool.or_eq_true, Bool.and_eq_true, decide_eq_true_eq, Nat.blt_eq,
    and_true]
  omega

/-- A range that holds white space is not visible. -/
theorem isVisible_of_mem
    {first last code : Nat}
    (white : isVisible code code = false)
    (low : first ≤ code)
    (high : code ≤ last) :
    isVisible first last = false := by
  rw [← Bool.not_eq_true, isVisible, List.all_eq_true] at white ⊢
  refine fun visible => white fun range member => ?_
  have apart := visible range member
  rw [Bool.or_eq_true, Nat.blt_eq, Nat.blt_eq] at apart ⊢
  omega

/-- All white space stands below the letters that Hangul is composed to. -/
theorem le_of_white
    {code : Nat}
    (white : isVisible code code = false) :
    code ≤ 0x3000 := by
  refine Nat.le_of_not_lt fun above => ?_
  have low : isVisible 0x3001 code = true := by
    simp [isVisible, whiteRanges]
  cases low.symm.trans (isVisible_of_mem white (by omega) (Nat.le_refl _))

/-- White space decomposes to white space. -/
theorem singletons_white :
    (singletons.toList.all fun entry =>
      isVisible entry.1 entry.1 || !isVisible entry.2 entry.2) = true := by
  decide +kernel

/-- White space is no part of a pair that composes. -/
theorem composites_visible :
    (composites.toList.all fun entry =>
      isVisible entry.1 entry.1 && isVisible entry.2.2 entry.2.2) = true := by
  decide +kernel

/-- White space is no character that is excluded from composition. -/
theorem exclusions_visible :
    (exclusions.toList.all fun entry => isVisible entry.1 entry.1) = true := by
  decide +kernel

/-- White space has no combining class. -/
theorem classRanges_visible :
    (classRanges.toList.all fun entry => isVisible entry.1 entry.2.1) = true := by
  decide +kernel

/-- White space is no mark. -/
theorem loneMarks_visible :
    (loneMarks.toList.all fun entry => isVisible entry.1 entry.2) = true := by
  decide +kernel

/-- White space decomposes to no pair. -/
theorem pair?_of_white
    {code : Nat}
    (white : isVisible code code = false) :
    pair? code = none := by
  unfold pair?
  cases composite : CodeTable.value? composites code with
  | some pair =>
      have visible := CodeTable.check_of_mem composites_visible (CodeTable.mem_of_value? composite)
      simp [white] at visible
  | none =>
      cases excluded : CodeTable.value? exclusions code with
      | some pair =>
          have visible := CodeTable.check_of_mem exclusions_visible
            (CodeTable.mem_of_value? excluded)
          simp [white] at visible
      | none =>
          rfl

/-- White space decomposes to white space only. -/
theorem singleton?_of_white
    {code other : Nat}
    (white : isVisible code code = false)
    (found : singleton? code = some other) :
    isVisible other other = false := by
  have below := le_of_white white
  rw [singleton?, if_pos (by omega)] at found
  have same := CodeTable.check_of_mem singletons_white (CodeTable.mem_of_value? found)
  simpa [white] using same

/-- White space is no syllable. -/
theorem isSyllable_of_white
    {code : Nat}
    (white : isVisible code code = false) :
    isSyllable code = false := by
  have below := le_of_white white
  rw [isSyllable, syllableBase, decide_eq_false (by omega)]
  rfl

/-- White space decomposes to a single white space. -/
theorem decompose_of_white
    (fuel : Nat)
    {code : Nat}
    (white : isVisible code code = false) :
    ∃ other, decompose fuel code = [other] ∧ isVisible other other = false := by
  induction fuel generalizing code with
  | zero =>
      exact ⟨code, decompose_zero code, white⟩
  | succ fuel inductionHypothesis =>
      rw [decompose_succ, isSyllable_of_white white, pair?_of_white white]
      split
      · exact ⟨code, rfl, white⟩
      · cases found : singleton? code with
        | some other =>
            exact inductionHypothesis (singleton?_of_white white found)
        | none =>
            exact ⟨code, rfl, white⟩

/-- White space is no mark. -/
theorem isMark_of_white
    {code : Nat}
    (white : isVisible code code = false) :
    isMark code = false := by
  have noClass : combiningClass code = 0 := by
    unfold combiningClass
    cases found : CodeTable.rangeValue? classRanges code with
    | some rank =>
        obtain ⟨first, last, member, low, high⟩ := CodeTable.mem_of_rangeValue? found
        have visible := CodeTable.check_of_mem classRanges_visible member
        simp [isVisible_of_mem white low high] at visible
    | none =>
        rfl
  have noSecond : (composites.any fun entry => entry.2.2 = code) = false := by
    rw [← Bool.not_eq_true, ← Array.any_toList, List.any_eq_true]
    rintro ⟨entry, member, isSecond⟩
    have visible := CodeTable.check_of_mem composites_visible (Array.mem_toList_iff.mp member)
    rw [decide_eq_true_eq] at isSecond
    simp [isSecond, white] at visible
  have noJoining : isJoiningLetter code = false := by
    rw [← Bool.not_eq_true]
    rw [isJoiningLetter, Bool.or_eq_true, Bool.and_eq_true, Bool.and_eq_true, decide_eq_true_eq,
      decide_eq_true_eq, decide_eq_true_eq, decide_eq_true_eq]
    rintro (⟨low, high⟩ | ⟨low, high⟩)
    · cases isVisible_of_mem white low (Nat.le_of_lt_succ high)
    · cases isVisible_of_mem white low (Nat.le_of_lt_succ high)
  rw [isMark, combinesBackwards, noClass, noSecond, noJoining]
  rfl

/-- White space does not begin with a mark. -/
theorem leadingMarks_of_white
    {code : Nat}
    (white : isVisible code code = false) :
    leadingMarks code = 0 := by
  have notLone : CodeTable.inRanges loneMarks code = false := by
    rw [← Bool.not_eq_true]
    intro found
    obtain ⟨first, last, member, low, high⟩ := CodeTable.mem_of_inRanges found
    have visible := CodeTable.check_of_mem loneMarks_visible member
    simp [isVisible_of_mem white low high] at visible
  obtain ⟨other, alone, otherWhite⟩ := decompose_of_white deepest white
  rw [leadingMarks, notLone, alone, List.takeWhile_cons, isMark_of_white otherWhite]
  simp

/-- White space is normalized to white space. -/
theorem normalize_white
    {c : Char}
    (white : isVisible c.toNat c.toNat = false) :
    ∃ other : Char, normalize [.char c] = [.char other] ∧ isWhiteSpace other = true := by
  obtain ⟨other, alone, otherWhite⟩ := decompose_of_white deepest white
  have below := le_of_white otherWhite
  have isChar : (Char.ofNat other).toNat = other := by
    have valid : other.isValidChar := .inl (by omega)
    rw [Char.ofNat, dif_pos valid]
    rfl
  refine ⟨Char.ofNat other, normalize_singleton (leadingMarks_of_white white)
    (isSyllable_of_white white) alone, ?_⟩
  rw [isWhiteSpace_eq, isChar, otherWhite]
  rfl

end Canonical

/-- White space stays white space. -/
theorem normalize_of_isWhiteSpace
    {text : List Char}
    (white : ∀ c ∈ text, isWhiteSpace c = true) :
    ∀ rune ∈ normalize (text.map .char), isWhiteSpace rune.toChar = true := by
  induction text with
  | nil =>
      intro rune member
      cases member
  | cons c rest inductionHypothesis =>
      obtain ⟨first, later⟩ := List.forall_mem_cons.mp white
      rw [Canonical.isWhiteSpace_eq, Bool.not_eq_true'] at first
      obtain ⟨other, alone, otherWhite⟩ := Canonical.normalize_white first
      have starts : ∀ next ∈ rest.head?, Canonical.leadingMarks next.toNat = 0 := by
        intro next isNext
        have nextWhite := later next (List.mem_of_head? isNext)
        rw [Canonical.isWhiteSpace_eq, Bool.not_eq_true'] at nextWhite
        exact Canonical.leadingMarks_of_white nextWhite
      rw [List.map_cons, normalize_cons c starts, alone]
      exact List.forall_mem_cons.mpr ⟨otherWhite, inductionHypothesis later⟩

/-! ## Lines -/

/-- The text of lines. -/
def joinLines (lines : List String) : String :=
  String.join (lines.map (· ++ "\n"))

@[simp] theorem joinLines_nil : joinLines [] = "" :=
  rfl

@[simp] theorem joinLines_cons (line : String) (rest : List String) :
    joinLines (line :: rest) = line ++ "\n" ++ joinLines rest := by
  simp [joinLines]

/-- Lines in a row are joined in a row. -/
theorem joinLines_append (front behind : List String) :
    joinLines (front ++ behind) = joinLines front ++ joinLines behind := by
  simp [joinLines]

/-- The last line ends with a line break as well. -/
theorem joinLines_concat (front : List String) (line : String) :
    joinLines (front ++ [line]) = joinLines front ++ line ++ "\n" := by
  simp [joinLines_append, String.append_assoc]

/--
The normalizer treats the two sides of a line break apart from each other.

Behind the line break stand whole lines among the given ones.
-/
def Normalizer.ActsByLine (normalizer : Normalizer) (lines : List String) : Prop :=
  ∀ front behind, behind <:+: lines →
    normalizer.apply (.ofString (front ++ "\n" ++ joinLines behind)) =
      normalizer.apply (.ofString front) ++
        lineBreak :: normalizer.apply (.ofString (joinLines behind))

/-- A line break is normalized apart from a text that does not start with a mark. -/
theorem normalize_lineBreak
    (front text : List Char)
    (starts : ∀ c ∈ text.head?, Canonical.leadingMarks c.toNat = 0) :
    normalize (front.map .char ++ lineBreak :: text.map .char) =
      normalize (front.map .char) ++ lineBreak :: normalize (text.map .char) := by
  have plain : '\n'.toNat < Canonical.firstDecomposing := by
    decide
  rw [lineBreak, normalize_append (Canonical.leadingMarks_of_lt plain), normalize_cons '\n' starts,
    Canonical.normalize_of_lt plain]
  rfl

/-- Every normalizer acts by line if no line starts with a mark. -/
theorem Normalizer.actsByLine_ofFlag
    {lines : List String}
    (starts : ∀ line ∈ lines, ∀ c ∈ line.toList.head?, Canonical.leadingMarks c.toNat = 0)
    (enabled : Bool) :
    (Normalizer.ofFlag enabled).ActsByLine lines := by
  intro front behind among
  have broken : Source.ofString (front ++ "\n" ++ joinLines behind) =
      front.toList.map .char ++ lineBreak :: (joinLines behind).toList.map .char := by
    simp [Source.ofString, lineBreak]
  rw [broken]
  cases enabled with
  | false =>
      rfl
  | true =>
      refine normalize_lineBreak front.toList (joinLines behind).toList ?_
      cases behind with
      | nil =>
          intro c isFirst
          cases isFirst
      | cons line rest =>
          have lineStarts := starts line (among.subset List.mem_cons_self)
          rw [joinLines_cons, String.toList_append, String.toList_append, List.append_assoc]
          cases shape : line.toList with
          | nil =>
              intro c isFirst
              cases isFirst
              exact Canonical.leadingMarks_of_lt (by decide)
          | cons first others =>
              rw [shape] at lineStarts
              exact lineStarts

/-- White space stays white space for every normalizer. -/
theorem Normalizer.apply_of_isWhiteSpace
    (enabled : Bool)
    {text : String}
    (white : ∀ c ∈ text.toList, isWhiteSpace c = true) :
    ∀ rune ∈ (Normalizer.ofFlag enabled).apply (.ofString text),
      isWhiteSpace rune.toChar = true := by
  cases enabled with
  | false =>
      intro rune member
      obtain ⟨c, isChar, rfl⟩ := List.mem_map.mp member
      exact white c isChar
  | true =>
      exact normalize_of_isWhiteSpace white

/-- Nothing is normalized to nothing. -/
theorem Normalizer.apply_empty (enabled : Bool) :
    (Normalizer.ofFlag enabled).apply (.ofString "") = [] := by
  cases enabled <;> rfl

/-- The text has only characters that stand for themselves. -/
def isPlain (text : String) : Bool :=
  text.toList.all fun c => c.toNat < Canonical.firstDecomposing

/-- Plain text stays as it is for every normalizer. -/
theorem Normalizer.apply_plain
    (enabled : Bool)
    {text : String}
    (plain : isPlain text = true) :
    (Normalizer.ofFlag enabled).apply (.ofString text) = .ofString text := by
  cases enabled with
  | false =>
      rfl
  | true =>
      refine normalize_plain fun c member => ?_
      exact of_decide_eq_true (List.all_eq_true.mp plain c member)

/-- Every normalizer acts by line on plain lines. -/
theorem Normalizer.actsByLine_plain
    {lines : List String}
    (plain : ∀ line ∈ lines, isPlain line = true)
    (enabled : Bool) :
    (Normalizer.ofFlag enabled).ActsByLine lines := by
  refine actsByLine_ofFlag (fun line member c isFirst => ?_) enabled
  have below := List.all_eq_true.mp (plain line member) c (List.mem_of_head? isFirst)
  exact Canonical.leadingMarks_of_lt (of_decide_eq_true below)

namespace Normalizer.ActsByLine

variable {enabled : Bool} {lines : List String}

/-- What is normalized by line is normalized so in every part. -/
theorem restrict
    (byLine : (Normalizer.ofFlag enabled).ActsByLine lines)
    {fewer : List String}
    (among : fewer <:+: lines) :
    (Normalizer.ofFlag enabled).ActsByLine fewer :=
  fun front behind within => byLine front behind (within.trans among)

/-- A line break at the end of a text stays there. -/
theorem concat
    (byLine : (Normalizer.ofFlag enabled).ActsByLine lines)
    (front : String) :
    (Normalizer.ofFlag enabled).apply (.ofString (front ++ "\n")) =
      (Normalizer.ofFlag enabled).apply (.ofString front) ++ [lineBreak] := by
  have separate := byLine front [] ⟨[], lines, rfl⟩
  rw [joinLines_nil, String.append_empty, apply_empty] at separate
  exact separate

/-- Lines are normalized apart from the lines before them. -/
theorem append
    {front behind : List String}
    {line : String}
    (byLine : (Normalizer.ofFlag enabled).ActsByLine (front ++ line :: behind)) :
    (Normalizer.ofFlag enabled).apply (.ofString (joinLines (front ++ line :: behind))) =
      (Normalizer.ofFlag enabled).apply (.ofString (joinLines (front ++ [line]))) ++
        (Normalizer.ofFlag enabled).apply (.ofString (joinLines behind)) := by
  have isBehind : behind <:+: front ++ line :: behind := ⟨front ++ [line], [], by simp⟩
  have separate := byLine (joinLines front ++ line) behind isBehind
  have ends := byLine.concat (joinLines front ++ line)
  rw [joinLines_concat, ends, List.append_assoc, List.singleton_append, ← separate,
    joinLines_append, joinLines_cons, ← String.append_assoc, ← String.append_assoc]

/-- Empty lines in front stay empty lines. -/
theorem lineBreaks
    (byLine : (Normalizer.ofFlag enabled).ActsByLine lines)
    (count : Nat) :
    (Normalizer.ofFlag enabled).apply
        (.ofString (String.ofList (List.replicate count '\n') ++ joinLines lines)) =
      List.replicate count lineBreak ++
        (Normalizer.ofFlag enabled).apply (.ofString (joinLines lines)) := by
  have next : ∀ count, String.ofList (List.replicate (count + 1) '\n') =
      String.ofList (List.replicate count '\n') ++ "\n" := by
    intro count
    rw [List.replicate_succ', String.ofList_append]
  have alone : ∀ count, (Normalizer.ofFlag enabled).apply
      (.ofString (String.ofList (List.replicate count '\n'))) =
        List.replicate count lineBreak := by
    intro count
    induction count with
    | zero =>
        exact apply_empty enabled
    | succ count inductionHypothesis =>
        rw [next, byLine.concat, inductionHypothesis, ← List.replicate_succ']
  cases count with
  | zero =>
      rw [List.replicate_zero, List.replicate_zero, String.ofList_nil, String.empty_append,
        List.nil_append]
  | succ count =>
      rw [next, byLine _ lines List.infix_rfl, alone, List.replicate_succ', List.append_assoc]
      rfl

end Normalizer.ActsByLine

end FrenchNim
