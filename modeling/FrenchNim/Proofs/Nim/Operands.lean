import FrenchNim.Proofs.Nim.Signs

namespace FrenchNim

/-!
# How operands begin

No name, literal, array, closure or construction has Nim code that begins with
a parenthesis or with white space. So the signs of an expression are plain, if
the embedded codes in it are.
-/

namespace Nim

open Sign (OpensWith startsOperand)

instance (c : Char) : Decidable (startsOperand c) :=
  inferInstanceAs (Decidable (_ ∧ _))

/-- Between the minus sign and the last small letter, an operand may begin. -/
theorem startsOperand_of_ascii
    {c : Char}
    (lower : 0x2D ≤ c.toNat)
    (upper : c.toNat ≤ 0x7A) :
    startsOperand c := by
  refine ⟨?_, ?_⟩
  · rintro rfl
    exact absurd lower (by decide)
  · simp only [isWhiteSpace, Bool.or_eq_false_iff, Bool.and_eq_false_iff,
      decide_eq_false_iff_not]
    omega

/-- An operand may begin with a letter. -/
theorem startsOperand_of_isLetter
    {c : Char}
    (letter : isLetter c = true) :
    startsOperand c := by
  simp only [isLetter, Bool.or_eq_true, Bool.and_eq_true, decide_eq_true_eq,
    List.contains_iff_mem] at letter
  have accented : accentedLetters.all (startsOperand ·) = true := by
    decide
  rcases letter with ((⟨lower, upper⟩ | ⟨lower, upper⟩) | rfl) | listed
  · have atLeast : 0x61 ≤ c.toNat := lower
    exact startsOperand_of_ascii (by omega) upper
  · have atLeast : 0x41 ≤ c.toNat := lower
    have atMost : c.toNat ≤ 0x5A := upper
    exact startsOperand_of_ascii (by omega) (by omega)
  · decide
  · exact of_decide_eq_true (List.all_eq_true.mp accented c listed)

/-- An operand may begin with a digit. -/
theorem startsOperand_of_isDigit
    {c : Char}
    (digit : c.isDigit = true) :
    startsOperand c := by
  simp only [Char.isDigit, Bool.and_eq_true, decide_eq_true_eq] at digit
  have atLeast : 0x30 ≤ c.toNat := digit.1
  have atMost : c.toNat ≤ 0x39 := digit.2
  exact startsOperand_of_ascii (by omega) (by omega)

/-- A text opens with its first character. -/
theorem opensWith_ofList
    {isGood : Char → Prop}
    {c : Char}
    (good : isGood c)
    (rest : List Char) :
    OpensWith isGood (String.ofList (c :: rest)) :=
  ⟨c, rest, String.toList_ofList, good⟩

/-- A word begins as an operand does. -/
theorem opensWith_word {word : String} (isWord : IsWord word.toList) :
    OpensWith startsOperand word := by
  cases chars : word.toList with
  | nil =>
      rw [chars] at isWord
      exact isWord.elim
  | cons first rest =>
      rw [chars] at isWord
      exact ⟨first, rest, chars, startsOperand_of_isLetter isWord.1⟩

/-- An operator does not begin with a parenthesis. -/
theorem opensWith_operator {word : String} (listed : word ∈ binaryOperators) :
    OpensWith (· ≠ ')') word := by
  have starts : ∀ word ∈ binaryOperators, word.toList.head? ≠ some ')' := by
    decide
  have notEmpty : ∀ word ∈ binaryOperators, word.toList ≠ [] := by
    decide
  obtain ⟨c, rest, chars⟩ := List.exists_cons_of_ne_nil (notEmpty word listed)
  refine ⟨c, rest, chars, ?_⟩
  rintro rfl
  exact starts word listed (by rw [chars]; rfl)

/-- The digits of a decimal begin with a digit. -/
theorem row_eq_cons (decimal : Decimal) :
    ∃ first rest, decimal.row = first :: rest ∧ startsOperand first := by
  cases row : decimal.row with
  | nil =>
      exact absurd row Nat.toDigits_ne_nil
  | cons first rest =>
      have member : first ∈ decimal.row := by
        rw [row]
        exact List.mem_cons_self
      have digit := Nat.isDigit_of_mem_toDigits (by decide) (by decide) member
      exact ⟨first, rest, rfl, startsOperand_of_isDigit digit⟩

/-- A number in positional notation opens with a digit. -/
theorem opensWith_positional (decimal : Decimal) :
    OpensWith startsOperand decimal.positional := by
  obtain ⟨first, rest, row, starts⟩ := row_eq_cons decimal
  unfold Decimal.positional
  simp only [row]
  split
  · exact opensWith_ofList (c := '0') (by decide) _
  · split
    · exact opensWith_ofList starts _
    · rename_i positive short
      obtain ⟨count, isCount⟩ : ∃ count, decimal.point.toNat = count + 1 :=
        Nat.exists_eq_succ_of_ne_zero (by omega)
      rw [isCount]
      exact opensWith_ofList starts _

/-- A number in scientific notation opens with a digit. -/
theorem opensWith_scientific (decimal : Decimal) :
    OpensWith startsOperand decimal.scientific := by
  obtain ⟨first, rest, row, starts⟩ := row_eq_cons decimal
  unfold Decimal.scientific
  simp only [row]
  refine ((OpensWith.append ?_ _).append _).append _
  cases rest with
  | nil => exact opensWith_ofList starts _
  | cons second others => exact opensWith_ofList starts _

/-- The text of a number begins as an operand does. -/
theorem opensWith_number (number : Double) :
    OpensWith startsOperand (number.text numberStyle) := by
  have decimal : ∀ decimal : Decimal, OpensWith startsOperand decimal.text := by
    intro decimal
    unfold Decimal.text
    split
    · exact opensWith_positional decimal
    · exact opensWith_scientific decimal
  unfold Double.text
  split
  · exact ⟨'N', _, rfl, by decide⟩
  · split
    · split
      · exact ⟨'-', _, rfl, by decide⟩
      · exact ⟨'I', _, rfl, by decide⟩
    · split
      · split
        · exact ⟨'0', _, rfl, by decide⟩
        · exact ⟨'0', _, rfl, by decide⟩
      · split
        · have sign : OpensWith startsOperand "-" := ⟨'-', _, rfl, by decide⟩
          exact sign.append _
        · exact decimal _

/-- The embedded codes of the vocabulary begin as operands do. -/
def OpensVisibly (vocabulary : Vocabulary) : Prop :=
  ∀ text, vocabulary.code text → OpensWith startsOperand text

/-- An emitted name opens as an operand does. -/
theorem opensWith_name
    (place : Place)
    {identifier : Identifier}
    (isWord : IsWord identifier.name.toList) :
    OpensWith startsOperand (name place identifier) := by
  unfold name
  split
  · exact ⟨'r', _, rfl, by decide⟩
  · exact opensWith_word isWord

section Trees

variable {vocabulary : Vocabulary} (lexical : vocabulary.IsLexical) {place : Place}

include lexical

theorem opensWith_className
    {callee : Expression}
    (named : callee.IsClassName vocabulary) :
    OpensWith startsOperand (code place callee) := by
  refine named.induction (fun name known => ?_) fun target name targetNamed _ starts => ?_
  · exact opensWith_name place (lexical.name known).1
  · rw [code_member targetNamed.over]
    exact starts.append _

/-- An expression that is neither a link nor binary begins as an operand does. -/
theorem opensWith_atom
    (visible : OpensVisibly vocabulary)
    {value : Expression}
    (isOver : value.Over vocabulary)
    (atomic : isAtom value = true) :
    OpensWith startsOperand (code place value) := by
  cases value with
  | bool value span =>
      have isFalse : OpensWith startsOperand "false" := ⟨'f', _, rfl, by decide⟩
      have isTrue : OpensWith startsOperand "true" := ⟨'t', _, rfl, by decide⟩
      cases value
      · exact isFalse
      · exact isTrue
  | number literal value span =>
      exact opensWith_number value
  | string value span =>
      exact opensWith_ofList (by decide) _
  | array values span =>
      cases values with
      | nil =>
          have sequence : OpensWith startsOperand "newSeq[string]()" := ⟨'n', _, rfl, by decide⟩
          exact sequence
      | cons first rest =>
          have bracket : OpensWith startsOperand "@[" := ⟨'@', _, rfl, by decide⟩
          rw [code_array isOver]
          exact (bracket.append _).append _
  | identifier identifier =>
      exact opensWith_name place (lexical.name isOver).1
  | closure parameters body first =>
      obtain ⟨inner, bodyCode⟩ := emitBlock_of_over place.nested isOver.2
      have keyword : OpensWith startsOperand "proc(" := ⟨'p', _, rfl, by decide⟩
      rw [code, emitExpression, bodyCode]
      exact ((keyword.append _).append _).append _
  | construction callee arguments span =>
      rw [code_construction isOver.1.over isOver.2]
      exact (opensWith_className lexical isOver.1).append _
  | rawCode text span =>
      exact visible text isOver
  | invocation | member | index | binary =>
      cases atomic
  | unknown | missing =>
      exact isOver.elim

/-- The signs of an expression are plain. -/
theorem signs_plain
    (visible : OpensVisibly vocabulary)
    {value : Expression}
    (isOver : value.Over vocabulary) :
    ∀ sign ∈ signs place value, sign.IsPlain := by
  have dot : OpensWith (· ≠ ')') "." := ⟨'.', _, rfl, by decide⟩
  have parenthesis : OpensWith (· ≠ ')') ("" ++ "(") := ⟨'(', _, rfl, by decide⟩
  have bracket : OpensWith (· ≠ ')') "[" := ⟨'[', _, rfl, by decide⟩
  fun_induction signs place value with
  | case1 callee arguments last inductionHypothesis =>
      refine List.forall_mem_append.mpr ⟨inductionHypothesis isOver.1, ?_⟩
      exact List.forall_mem_singleton.mpr ((parenthesis.append _).append _)
  | case2 target name arrow inductionHypothesis =>
      refine List.forall_mem_append.mpr ⟨inductionHypothesis isOver.1, ?_⟩
      exact List.forall_mem_singleton.mpr (dot.append _)
  | case3 target position last inductionHypothesis =>
      refine List.forall_mem_append.mpr ⟨inductionHypothesis isOver.1, ?_⟩
      exact List.forall_mem_singleton.mpr ((bracket.append _).append _)
  | case4 operator left right leftHypothesis rightHypothesis =>
      obtain ⟨known, leftOver, rightOver⟩ := isOver
      refine List.forall_mem_cons.mpr ⟨trivial, ?_⟩
      refine List.forall_mem_append.mpr ⟨leftHypothesis leftOver, ?_⟩
      refine List.forall_mem_cons.mpr ⟨opensWith_operator (lexical.operator known), ?_⟩
      refine List.forall_mem_append.mpr ⟨rightHypothesis rightOver, ?_⟩
      exact List.forall_mem_singleton.mpr trivial
  | case5 value notCall notMember notIndex notBinary =>
      have atomic := isAtom_of_ne notCall notMember notIndex notBinary
      exact List.forall_mem_singleton.mpr (opensWith_atom lexical visible isOver atomic)

end Trees

end Nim

end FrenchNim
