import FrenchNim.Proofs.Emission
import FrenchNim.Proofs.Syntax.Spelling

namespace FrenchNim

/-!
# The signs of emitted code

The Nim code of an expression is a row of signs: parentheses of binary
expressions, atoms, links behind a target, and operators. All other parentheses
and brackets stand inside a sign. A row is not determined by its text, but two
rows whose atoms, links and operators have pairwise the same length are equal
if their texts are: at each place either an operand or something behind an
operand has to come, and then its first character tells a parenthesis from the
others.
-/

namespace Nim

/-- A piece of the Nim code of an expression. -/
inductive Sign where
  | opening
  | closing
  | atom (code : String)
  | link (code : String)
  | operator (code : String)
  deriving DecidableEq

namespace Sign

/-- The characters of a sign. -/
def chars : Sign → List Char
  | opening => ['(']
  | closing => [')']
  | atom code | link code | operator code => code.toList

/-- The sign is not a parenthesis. -/
def isSymbol : Sign → Bool
  | opening | closing => false
  | _ => true

/-- How many characters a symbol stands for, with the parentheses of an operator. -/
def weight : Sign → Nat
  | opening | closing => 0
  | atom code | link code => code.length
  | operator code => code.length + 2

/-- The weight of all symbols of a list. -/
def totalWeight : List Sign → Nat
  | [] => 0
  | sign :: rest => sign.weight + totalWeight rest

/-- The weight of a row is the weight of its parts. -/
@[simp] theorem totalWeight_append (first second : List Sign) :
    totalWeight (first ++ second) = totalWeight first + totalWeight second := by
  induction first with
  | nil =>
      simp [totalWeight]
  | cons sign rest inductionHypothesis =>
      simp [totalWeight, inductionHypothesis, Nat.add_assoc]

/-- The first character of a text. -/
def OpensWith (isGood : Char → Prop) (code : String) : Prop :=
  ∃ c rest, code.toList = c :: rest ∧ isGood c

/-- A character that an operand may begin with. -/
def startsOperand (c : Char) : Prop :=
  c ≠ '(' ∧ isWhiteSpace c = false

/-- The first character tells the sign from the parenthesis that could stand in its place. -/
def IsPlain : Sign → Prop
  | opening | closing => True
  | atom code => OpensWith startsOperand code
  | link code | operator code => OpensWith (· ≠ ')') code

/-- Two symbols of one kind whose lengths compare. -/
def Related (compare : Nat → Nat → Prop) : Sign → Sign → Prop
  | atom first, atom second => compare second.length first.length
  | link first, link second => compare second.length first.length
  | operator first, operator second => compare second.length first.length
  | _, _ => False

/-- The symbols of a row. -/
def symbols (row : List Sign) : List Sign :=
  row.filter isSymbol

/-- The text of a row. -/
def text (row : List Sign) : List Char :=
  row.flatMap chars

/-- Operands and what stands behind operands follow each other; first an operand may be due. -/
def Alternates : Bool → List Sign → Prop
  | _, [] => True
  | true, opening :: rest => Alternates true rest
  | true, atom _ :: rest => Alternates false rest
  | false, closing :: rest => Alternates false rest
  | false, link _ :: rest => Alternates false rest
  | false, operator _ :: rest => Alternates true rest
  | _, _ => False

@[simp] theorem text_nil : text [] = [] :=
  rfl

/-- The text of a row begins with the characters of its first sign. -/
@[simp] theorem text_cons (sign : Sign) (rest : List Sign) :
    text (sign :: rest) = sign.chars ++ text rest :=
  rfl

/-- The text of a row is the text of its parts. -/
@[simp] theorem text_append (first second : List Sign) :
    text (first ++ second) = text first ++ text second :=
  List.flatMap_append

@[simp] theorem symbols_nil : symbols [] = [] :=
  rfl

/-- The symbols of a row are the symbols of its parts. -/
@[simp] theorem symbols_append (first second : List Sign) :
    symbols (first ++ second) = symbols first ++ symbols second :=
  List.filter_append ..

/-- An opening parenthesis is no symbol. -/
@[simp] theorem symbols_opening (rest : List Sign) : symbols (opening :: rest) = symbols rest :=
  rfl

/-- A closing parenthesis is no symbol. -/
@[simp] theorem symbols_closing (rest : List Sign) : symbols (closing :: rest) = symbols rest :=
  rfl

/-- An atom is a symbol. -/
@[simp] theorem symbols_atom (code : String) (rest : List Sign) :
    symbols (atom code :: rest) = atom code :: symbols rest :=
  rfl

/-- A link is a symbol. -/
@[simp] theorem symbols_link (code : String) (rest : List Sign) :
    symbols (link code :: rest) = link code :: symbols rest :=
  rfl

/-- An operator is a symbol. -/
@[simp] theorem symbols_operator (code : String) (rest : List Sign) :
    symbols (operator code :: rest) = operator code :: symbols rest :=
  rfl

@[simp] theorem length_chars_opening : opening.chars.length = 1 :=
  rfl

@[simp] theorem length_chars_closing : closing.chars.length = 1 :=
  rfl

@[simp] theorem length_chars_atom (code : String) : (atom code).chars.length = code.length :=
  String.length_toList

@[simp] theorem length_chars_link (code : String) : (link code).chars.length = code.length :=
  String.length_toList

@[simp] theorem length_chars_operator (code : String) :
    (operator code).chars.length = code.length :=
  String.length_toList

/-- A plain sign has characters. -/
theorem IsPlain.chars_ne_nil {sign : Sign} (isPlain : sign.IsPlain) : sign.chars ≠ [] := by
  cases sign with
  | opening | closing =>
      nofun
  | atom code | link code | operator code =>
      obtain ⟨c, rest, starts, -⟩ := isPlain
      rw [chars, starts]
      nofun

/-- A symbol that is no longer than another weighs no more. -/
theorem Related.weight_le {first second : Sign} (shrinks : Related (· ≤ ·) first second) :
    second.weight ≤ first.weight := by
  cases first <;> cases second <;> first
    | exact shrinks.elim
    | exact shrinks
    | exact Nat.add_le_add_right shrinks 2

/-- Of two symbols that compare, equal weights mean equal lengths. -/
theorem Related.eq_of_weight_eq
    {first second : Sign}
    (shrinks : Related (· ≤ ·) first second)
    (balanced : second.weight = first.weight) :
    Related (· = ·) first second := by
  cases first <;> cases second <;> first
    | exact shrinks.elim
    | exact balanced
    | exact Nat.add_right_cancel balanced

/-- Symbols that are no longer than others weigh no more. -/
theorem weight_le
    {first second : List Sign}
    (shrinks : List.Forall₂ (Related (· ≤ ·)) first second) :
    totalWeight second ≤ totalWeight first := by
  induction shrinks with
  | nil =>
      exact Nat.le_refl _
  | cons head _ inductionHypothesis =>
      exact Nat.add_le_add head.weight_le inductionHypothesis

/-- Symbols that are no longer than others and weigh as much in all are as long as they are. -/
theorem related_of_weight_eq
    {first second : List Sign}
    (shrinks : List.Forall₂ (Related (· ≤ ·)) first second)
    (balanced : totalWeight second = totalWeight first) :
    List.Forall₂ (Related (· = ·)) first second := by
  induction shrinks with
  | nil =>
      exact .nil
  | cons head tail inductionHypothesis =>
      have headLe := head.weight_le
      have tailLe := weight_le tail
      rw [totalWeight, totalWeight] at balanced
      exact .cons (head.eq_of_weight_eq (by omega)) (inductionHypothesis (by omega))

/-- A parenthesis is not the first character of a code that opens with something else. -/
theorem OpensWith.ne_parenthesis
    {c : Char}
    {code : String}
    (opens : OpensWith (· ≠ c) code)
    (first second : List Char) :
    c :: first ≠ code.toList ++ second := by
  obtain ⟨d, rest, starts, differs⟩ := opens
  rw [starts]
  exact fun same => differs (List.cons.inj same).1.symm

/-- What stands behind a code does not change its first character. -/
theorem OpensWith.append
    {isGood : Char → Prop}
    {first : String}
    (opens : OpensWith isGood first)
    (second : String) :
    OpensWith isGood (first ++ second) := by
  obtain ⟨c, rest, starts, good⟩ := opens
  exact ⟨c, rest ++ second.toList, by rw [String.toList_append, starts, List.cons_append], good⟩

/-- A weaker demand on the first character is met as well. -/
theorem OpensWith.imp
    {isGood isFine : Char → Prop}
    (implies : ∀ c, isGood c → isFine c)
    {code : String}
    (opens : OpensWith isGood code) :
    OpensWith isFine code := by
  obtain ⟨c, rest, starts, good⟩ := opens
  exact ⟨c, rest, starts, implies c good⟩

/-- Codes of one length that begin the same text are the same. -/
theorem code_eq_of_append_eq
    {first second : String}
    {rest others : List Char}
    (sameLength : second.length = first.length)
    (same : first.toList ++ rest = second.toList ++ others) :
    first = second := by
  have split := List.append_inj same
    (by rw [String.length_toList, String.length_toList, sameLength])
  exact String.toList_inj.mp split.1

/-- Rows that agree from here on begin with the same sign. -/
theorem head_eq_of_text_eq
    {due : Bool}
    {first second : Sign}
    {rest others : List Sign}
    (firstAlternates : Alternates due (first :: rest))
    (secondAlternates : Alternates due (second :: others))
    (firstPlain : first.IsPlain)
    (secondPlain : second.IsPlain)
    (related : List.Forall₂ (Related (· = ·)) (symbols (first :: rest))
      (symbols (second :: others)))
    (same : text (first :: rest) = text (second :: others)) :
    first = second := by
  cases due with
  | true =>
      -- An operand is due: an opening parenthesis or an atom.
      cases first with
      | opening =>
          cases second with
          | opening => rfl
          | atom code =>
              exact absurd same
                (OpensWith.ne_parenthesis (secondPlain.imp fun _ good => good.1) _ _)
          | _ => exact secondAlternates.elim
      | atom code =>
          cases second with
          | opening =>
              exact absurd same.symm
                (OpensWith.ne_parenthesis (firstPlain.imp fun _ good => good.1) _ _)
          | atom other =>
              rw [code_eq_of_append_eq (List.forall₂_cons.mp related).1 same]
          | _ => exact secondAlternates.elim
      | _ => exact firstAlternates.elim
  | false =>
      -- Behind an operand there may be a closing parenthesis, a link or an operator.
      cases first with
      | closing =>
          cases second with
          | closing => rfl
          | link code | operator code =>
              exact absurd same (OpensWith.ne_parenthesis secondPlain _ _)
          | _ => exact secondAlternates.elim
      | link code =>
          cases second with
          | closing => exact absurd same.symm (OpensWith.ne_parenthesis firstPlain _ _)
          | link other =>
              rw [code_eq_of_append_eq (List.forall₂_cons.mp related).1 same]
          | operator other => exact (List.forall₂_cons.mp related).1.elim
          | _ => exact secondAlternates.elim
      | operator code =>
          cases second with
          | closing => exact absurd same.symm (OpensWith.ne_parenthesis firstPlain _ _)
          | link other => exact (List.forall₂_cons.mp related).1.elim
          | operator other =>
              rw [code_eq_of_append_eq (List.forall₂_cons.mp related).1 same]
          | _ => exact secondAlternates.elim
      | _ => exact firstAlternates.elim

/-- An operand is due behind the sign. -/
def leavesDue : Sign → Bool
  | opening | operator _ => true
  | _ => false

/-- The signs behind the first one alternate too, from what that one leaves due. -/
theorem Alternates.tail
    {due : Bool}
    {sign : Sign}
    {rest : List Sign}
    (alternates : Alternates due (sign :: rest)) :
    Alternates sign.leavesDue rest := by
  cases due <;> cases sign <;> first
    | exact alternates
    | exact alternates.elim

/-- Rows with the same first sign compare behind it as they compare as a whole. -/
theorem related_tail
    {compare : Nat → Nat → Prop}
    {sign : Sign}
    {rest others : List Sign}
    (related : List.Forall₂ (Related compare) (symbols (sign :: rest))
      (symbols (sign :: others))) :
    List.Forall₂ (Related compare) (symbols rest) (symbols others) := by
  cases sign with
  | opening | closing => exact related
  | atom | link | operator => exact (List.forall₂_cons.mp related).2

/-- Rows with the same text and symbols of the same lengths are the same. -/
theorem eq_of_text_eq
    {due : Bool}
    {first second : List Sign}
    (firstAlternates : Alternates due first)
    (secondAlternates : Alternates due second)
    (firstPlain : ∀ sign ∈ first, sign.IsPlain)
    (secondPlain : ∀ sign ∈ second, sign.IsPlain)
    (related : List.Forall₂ (Related (· = ·)) (symbols first) (symbols second))
    (same : text first = text second) :
    first = second := by
  induction first generalizing due second with
  | nil =>
      cases second with
      | nil =>
          rfl
      | cons sign others =>
          have empty := (List.append_eq_nil_iff.mp same.symm).1
          exact absurd empty (List.forall_mem_cons.mp secondPlain).1.chars_ne_nil
  | cons sign rest inductionHypothesis =>
      obtain ⟨signPlain, restPlain⟩ := List.forall_mem_cons.mp firstPlain
      cases second with
      | nil =>
          have empty := (List.append_eq_nil_iff.mp same).1
          exact absurd empty signPlain.chars_ne_nil
      | cons other others =>
          obtain ⟨otherPlain, othersPlain⟩ := List.forall_mem_cons.mp secondPlain
          have sameSign := head_eq_of_text_eq firstAlternates secondAlternates signPlain
            otherPlain related same
          subst sameSign
          rw [inductionHypothesis firstAlternates.tail secondAlternates.tail restPlain
            othersPlain (related_tail related) (List.append_cancel_left same)]

end Sign

/-! ## The signs of an expression -/

/-- The Nim code of an expression that has any. -/
def code (place : Place) (value : Expression) : String :=
  (emitExpression place value).toOption.getD ""

/-- The codes of the arguments that a call passes. -/
def passedCodes (place : Place) (callee : Expression) (arguments : List Expression) :
    List String :=
  if ignoresArguments callee then [] else arguments.map (code place)

/-- The signs of the Nim code of an expression. -/
def signs (place : Place) : Expression → List Sign
  | .invocation callee arguments _ =>
      signs place callee ++ [.link (call "" (passedCodes place callee arguments))]
  | .member target name _ => signs place target ++ [.link ("." ++ name.name)]
  | .index target position _ =>
      signs place target ++ [.link ("[" ++ code place position ++ "]")]
  | .binary operator left right =>
      .opening :: (signs place left ++ .operator operator :: (signs place right ++ [.closing]))
  | value => [.atom (code place value)]

/-- The signs of the expression are one atom. -/
def isAtom : Expression → Bool
  | .invocation _ _ _ | .member _ _ _ | .index _ _ _ | .binary _ _ _ => false
  | _ => true

/-- What is neither a link of a chain nor a binary expression is an atom. -/
theorem isAtom_of_ne
    {value : Expression}
    (notCall : ∀ callee arguments last, value ≠ .invocation callee arguments last)
    (notMember : ∀ target name arrow, value ≠ .member target name arrow)
    (notIndex : ∀ target position last, value ≠ .index target position last)
    (notBinary : ∀ operator left right, value ≠ .binary operator left right) :
    isAtom value = true := by
  cases value with
  | invocation => exact (notCall _ _ _ rfl).elim
  | member => exact (notMember _ _ _ rfl).elim
  | index => exact (notIndex _ _ _ rfl).elim
  | binary => exact (notBinary _ _ _ rfl).elim
  | _ => rfl

/-- The signs of an expression take the place of one operand. -/
theorem alternates_signs
    (place : Place)
    (value : Expression)
    (rest : List Sign) :
    Sign.Alternates true (signs place value ++ rest) ↔ Sign.Alternates false rest := by
  fun_induction signs place value generalizing rest with
  | case1 callee arguments last inductionHypothesis =>
      simp [Sign.Alternates, inductionHypothesis]
  | case2 target name arrow inductionHypothesis =>
      simp [Sign.Alternates, inductionHypothesis]
  | case3 target position last inductionHypothesis =>
      simp [Sign.Alternates, inductionHypothesis]
  | case4 operator left right leftHypothesis rightHypothesis =>
      simp [Sign.Alternates, leftHypothesis, rightHypothesis]
  | case5 value =>
      simp [Sign.Alternates]

/-- The signs of an expression alternate, beginning with an operand. -/
theorem signs_alternate (place : Place) (value : Expression) :
    Sign.Alternates true (signs place value) := by
  have alternates := (alternates_signs place value []).mpr trivial
  rwa [List.append_nil] at alternates

/-- The signs of an expression have as many characters as its symbols weigh. -/
theorem length_text_signs (place : Place) (value : Expression) :
    (Sign.text (signs place value)).length =
      Sign.totalWeight (Sign.symbols (signs place value)) := by
  fun_induction signs place value with
  | case1 callee arguments last inductionHypothesis =>
      simp [Sign.weight, Sign.totalWeight, inductionHypothesis]
  | case2 target name arrow inductionHypothesis =>
      simp [Sign.weight, Sign.totalWeight, inductionHypothesis]
  | case3 target position last inductionHypothesis =>
      simp [Sign.weight, Sign.totalWeight, inductionHypothesis]
  | case4 operator left right leftHypothesis rightHypothesis =>
      simp [Sign.weight, Sign.totalWeight, leftHypothesis, rightHypothesis]
      omega
  | case5 value =>
      simp [Sign.weight, Sign.totalWeight]

section Codes

variable {vocabulary : Vocabulary} {place : Place}

/-- Over a vocabulary, an expression is emitted without an error, as its code. -/
theorem emitExpression_eq_code
    {value : Expression}
    (isOver : value.Over vocabulary) :
    emitExpression place value = .ok (code place value) := by
  obtain ⟨found, isCode⟩ := emitExpression_of_over place isOver
  rw [code, isCode]
  rfl

/-- Over a vocabulary, several expressions are emitted without an error, each as its code. -/
theorem emitExpressions_eq_codes
    {values : List Expression}
    (allOver : Expression.AllOver vocabulary values) :
    emitExpressions place values = .ok (values.map (code place)) := by
  induction values with
  | nil =>
      rfl
  | cons first rest inductionHypothesis =>
      obtain ⟨firstOver, restOver⟩ := allOver
      rw [emitExpressions, emitExpression_eq_code firstOver, inductionHypothesis restOver]
      rfl

/-- What is called stands before its arguments. -/
theorem call_eq_append (object : String) (codes : List String) :
    call object codes = object ++ call "" codes := by
  simp only [call, String.empty_append, String.append_assoc]

/-- The code of a call is the code of its callee and the passed arguments. -/
theorem code_invocation
    {callee : Expression}
    {arguments : List Expression}
    {last : Position}
    (calleeOver : callee.Over vocabulary)
    (argumentsOver : Expression.AllOver vocabulary arguments) :
    code place (.invocation callee arguments last) =
      code place callee ++ call "" (passedCodes place callee arguments) := by
  rw [← call_eq_append, code, emitExpression_invocation, emitExpression_eq_code calleeOver,
    emitExpressions_eq_codes argumentsOver]
  unfold passedCodes
  by_cases ignored : ignoresArguments callee
  · simp only [ignored, if_true]
    rfl
  · simp only [ignored]
    rfl

/-- The code of a property is the code of its target, a dot and the name, for both links. -/
theorem code_member
    {target : Expression}
    {name : Identifier}
    {arrow : Bool}
    (targetOver : target.Over vocabulary) :
    code place (.member target name arrow) = code place target ++ ("." ++ name.name) := by
  rw [code, emitExpression, emitExpression_eq_code targetOver, ← String.append_assoc]
  rfl

/-- The code of an index is the code of its target and the position in brackets. -/
theorem code_index
    {target position : Expression}
    {last : Position}
    (targetOver : target.Over vocabulary)
    (positionOver : position.Over vocabulary) :
    code place (.index target position last) =
      code place target ++ ("[" ++ code place position ++ "]") := by
  rw [code, emitExpression, emitExpression_eq_code targetOver,
    emitExpression_eq_code positionOver, ← String.append_assoc, ← String.append_assoc]
  rfl

/-- The code of a binary expression stands in parentheses, without a blank. -/
theorem code_binary
    {operator : String}
    {left right : Expression}
    (leftOver : left.Over vocabulary)
    (rightOver : right.Over vocabulary) :
    code place (.binary operator left right) =
      "(" ++ code place left ++ operator ++ code place right ++ ")" := by
  rw [code, emitExpression, emitExpression_eq_code leftOver, emitExpression_eq_code rightOver]
  rfl

/-- The code of a list that is not empty is its items behind the sign of a sequence. -/
theorem code_array
    {first : Expression}
    {rest : List Expression}
    {span : Span}
    (allOver : Expression.AllOver vocabulary (first :: rest)) :
    code place (.array (first :: rest) span) =
      "@[" ++ String.intercalate ", " ((first :: rest).map (code place)) ++ "]" := by
  obtain ⟨firstOver, restOver⟩ := allOver
  rw [code, emitExpression, emitExpression_eq_code firstOver, emitExpressions_eq_codes restOver]
  rfl

/-- A construction is emitted as a call of the class. -/
theorem code_construction
    {callee : Expression}
    {arguments : List Expression}
    {span : Span}
    (calleeOver : callee.Over vocabulary)
    (argumentsOver : Expression.AllOver vocabulary arguments) :
    code place (.construction callee arguments span) =
      code place callee ++ call "" (arguments.map (code place)) := by
  rw [← call_eq_append, code, emitExpression, emitExpression_eq_code calleeOver,
    emitExpressions_eq_codes argumentsOver]
  rfl

/-- The signs of an expression spell its code. -/
theorem text_signs
    {value : Expression}
    (isOver : value.Over vocabulary) :
    Sign.text (signs place value) = (code place value).toList := by
  fun_induction signs place value with
  | case1 callee arguments last inductionHypothesis =>
      rw [code_invocation isOver.1 isOver.2, Sign.text_append, inductionHypothesis isOver.1,
        String.toList_append]
      exact congrArg _ (List.append_nil _)
  | case2 target name arrow inductionHypothesis =>
      rw [code_member isOver.1, Sign.text_append, inductionHypothesis isOver.1,
        String.toList_append]
      exact congrArg _ (List.append_nil _)
  | case3 target position last inductionHypothesis =>
      rw [code_index isOver.1 isOver.2, Sign.text_append, inductionHypothesis isOver.1,
        String.toList_append]
      exact congrArg _ (List.append_nil _)
  | case4 operator left right leftHypothesis rightHypothesis =>
      obtain ⟨-, leftOver, rightOver⟩ := isOver
      rw [code_binary leftOver rightOver]
      simp [leftHypothesis leftOver, rightHypothesis rightOver, Sign.chars]
  | case5 value =>
      exact List.append_nil _

/-- The code of an expression is as long as the symbols of its signs weigh. -/
theorem length_code
    {value : Expression}
    (isOver : value.Over vocabulary) :
    (code place value).length =
      Sign.totalWeight (Sign.symbols (signs place value)) := by
  rw [← length_text_signs, text_signs isOver, String.length_toList]

end Codes

end Nim

end FrenchNim
