import FrenchNim.Proofs.Nim.Operands
import FrenchNim.Proofs.Nim.Reach

namespace FrenchNim

/-!
# Codes before and after regrouping

A tree is faithful if no link that reaches its Nim code is applied to a binary
expression. A faithful tree has the same code before and after regrouping. For
the other direction the codes are compared piece by piece: regrouping makes no
piece longer, so two whole codes can only be the same if all their pieces are.
-/

mutual

/--
No link in the Nim code of the expression is applied to a binary expression.
Arguments that a call does not pass leave no trace in the code.
-/
def Expression.Faithful : Expression → Prop
  | .array values _ => Expression.AllFaithful values
  | .invocation callee arguments _ =>
      callee.isBinary = false ∧ callee.Faithful ∧
        (Nim.ignoresArguments callee = false → Expression.AllFaithful arguments)
  | .member target _ _ => target.isBinary = false ∧ target.Faithful
  | .index target position _ =>
      target.isBinary = false ∧ target.Faithful ∧ position.Faithful
  | .binary _ left right => left.Faithful ∧ right.Faithful
  | .closure _ body _ => body.Faithful
  | .construction _ arguments _ => Expression.AllFaithful arguments
  | _ => True

/-- All expressions of a list are faithful. -/
def Expression.AllFaithful : List Expression → Prop
  | [] => True
  | first :: rest => first.Faithful ∧ Expression.AllFaithful rest

/-- All statements of a block are faithful. -/
def Block.Faithful : Block → Prop
  | .of statements _ => Statement.AllFaithful statements
  | .missing => True

/-- All expressions of a statement are faithful. -/
def Statement.Faithful : Statement → Prop
  | .returned value _ => value.Faithful
  | .declared _ value _ => value.Faithful
  | .assigned target value => target.Faithful ∧ value.Faithful
  | .evaluated value => value.Faithful
  | .conditional test consequent alternative _ =>
      test.Faithful ∧ consequent.Faithful ∧ alternative.Faithful
  | .whileLoop test body _ => test.Faithful ∧ body.Faithful
  | .forLoop initial test increment body _ =>
      initial.Faithful ∧ test.Faithful ∧ body.Faithful ∧ increment.Faithful
  | .unknown _ _ => True
  | .missing => True

/-- All statements of a list are faithful. -/
def Statement.AllFaithful : List Statement → Prop
  | [] => True
  | first :: rest => first.Faithful ∧ Statement.AllFaithful rest

end

/-- All expressions of a declaration are faithful. -/
def Declaration.Faithful : Declaration → Prop
  | .classType _ constructor? methods _ =>
      (∀ node ∈ constructor?, node.body.Faithful) ∧ ∀ node ∈ methods, node.body.Faithful
  | .function _ _ body _ => body.Faithful
  | .constant _ value _ => value.Faithful
  | .statement body => body.Faithful
  | .imported _ _ _ _ => True
  | .typeName _ _ _ => True

/-- All expressions of a program are faithful. -/
def Program.Faithful (program : Program) : Prop :=
  ∀ declaration ∈ program.declarations, declaration.Faithful

namespace Nim

/--
The second code is what became of the first one. It is the same if the tree is
kept. Where codes are exact it is not longer, and it is the same only if the
tree is kept.
-/
structure Rivals (exact kept : Prop) (first second : String) : Prop where
  same : kept → second = first
  shorter : exact → second.length ≤ first.length
  keeps : exact → second = first → kept

namespace Rivals

variable {exact kept otherKept : Prop} {first second : String}

/-- A fixed part of the code. -/
theorem constant (text : String) : Rivals exact True text text where
  same _ := rfl
  shorter _ := Nat.le_refl _
  keeps _ _ := trivial

/-- The condition may be replaced by an equivalent one. -/
theorem of_iff (rivals : Rivals exact kept first second) (same : kept ↔ otherKept) :
    Rivals exact otherKept first second where
  same isKept := rivals.same (same.mpr isKept)
  shorter := rivals.shorter
  keeps isExact equal := same.mp (rivals.keeps isExact equal)

/-- The codes may be replaced by equal ones. -/
theorem of_codes
    {code other : String}
    (rivals : Rivals exact kept first second)
    (firstSame : code = first)
    (secondSame : other = second) :
    Rivals exact kept code other := by
  rw [firstSame, secondSame]
  exact rivals

/-- What is known to be exact need not be assumed to be. -/
theorem of_exact (rivals : Rivals exact kept first second) (isExact : exact) :
    Rivals True kept first second where
  same := rivals.same
  shorter _ := rivals.shorter isExact
  keeps _ := rivals.keeps isExact

/-- Codes one after the other. No piece is longer, so the same whole has the same pieces. -/
theorem append
    {other others : String}
    (rivals : Rivals exact kept first second)
    (more : Rivals exact otherKept other others) :
    Rivals exact (kept ∧ otherKept) (first ++ other) (second ++ others) where
  same isKept := by
    rw [rivals.same isKept.1, more.same isKept.2]
  shorter isExact := by
    rw [String.length_append, String.length_append]
    exact Nat.add_le_add (rivals.shorter isExact) (more.shorter isExact)
  keeps isExact equal := by
    have total := congrArg String.length equal
    rw [String.length_append, String.length_append] at total
    have firstShorter := rivals.shorter isExact
    have otherShorter := more.shorter isExact
    have sameChars := congrArg String.toList equal
    rw [String.toList_append, String.toList_append] at sameChars
    obtain ⟨headSame, tailSame⟩ := List.append_inj sameChars
      (by rw [String.length_toList, String.length_toList]; omega)
    exact ⟨rivals.keeps isExact (String.toList_inj.mp headSame),
      more.keeps isExact (String.toList_inj.mp tailSame)⟩

/-- A code between two fixed parts. -/
theorem between (rivals : Rivals exact kept first second) (before after : String) :
    Rivals exact kept (before ++ first ++ after) (before ++ second ++ after) :=
  (((constant before).append rivals).append (constant after)).of_iff
    (by rw [true_and, and_true])

end Rivals

/-! ## Symbols before and after regrouping -/

section Echoes

open Sign (symbols Related)

variable (place : Place)

/-- The symbols of an operand that waits, with its operator. -/
def waitingSymbols : Option (Expression × String) → List Sign
  | none => []
  | some (left, operator) => symbols (signs place left) ++ [.operator operator]

/-- The symbols of all operands that wait. -/
def pendingSymbols (pending : Pending) : List Sign :=
  waitingSymbols place pending.sum ++ waitingSymbols place pending.comparison

/-- An operand has the symbols of the one that waits for it before its own. -/
theorem symbols_join (waiting? : Option (Expression × String)) (operand : Expression) :
    symbols (signs place (Pending.join waiting? operand)) =
      waitingSymbols place waiting? ++ symbols (signs place operand) := by
  cases waiting? with
  | none => rfl
  | some waiting => simp [Pending.join, signs, waitingSymbols]

/-- The expression that ends with an operand has the symbols of what waits before its own. -/
theorem symbols_finish (pending : Pending) (operand : Expression) :
    symbols (signs place (pending.finish operand)) =
      pendingSymbols place pending ++ symbols (signs place operand) := by
  rw [Pending.finish, Pending.compared, symbols_join, symbols_join, pendingSymbols,
    List.append_assoc]

/-- What waits behind one more operand ends with its symbols and the operator. -/
theorem pendingSymbols_extend (pending : Pending) (operand : Expression) (operator : String) :
    pendingSymbols place (pending.extend operand operator) =
      pendingSymbols place pending ++ symbols (signs place operand) ++
        [Sign.operator operator] := by
  unfold Pending.extend
  split
  · simp only [pendingSymbols, waitingSymbols, Pending.compared, symbols_join,
      List.append_assoc]
  · simp only [pendingSymbols, waitingSymbols, symbols_finish, List.append_nil]

variable {place}

/--
What was read behind what waits has the symbols that waited, and for each symbol
of the expression one of its kind that is not longer. If these are the same and
no link reaches over a binary expression, the expression is faithful.
-/
structure Echoes (place : Place) (value : Expression) (pending : Pending)
    (read : Pending × Expression) (found : List Sign) : Prop where
  reads : pendingSymbols place read.1 ++ symbols (signs place read.2) =
    pendingSymbols place pending ++ found
  related : List.Forall₂ (Related (· ≤ ·)) (symbols (signs place value)) found
  faithful : found = symbols (signs place value) → reach value = 0 → value.Faithful

namespace Echoes

/-- An expression that is one operand. -/
theorem atom
    {value operand : Expression}
    (atomic : isAtom value = true)
    (operandAtomic : isAtom operand = true)
    (rivals : Rivals True value.Faithful (code place value) (code place operand))
    (pending : Pending) :
    Echoes place value pending (pending, operand) [.atom (code place operand)] := by
  have one : ∀ {value : Expression}, isAtom value = true →
      symbols (signs place value) = [.atom (code place value)] := by
    intro value atomic
    cases value with
    | invocation | member | index | binary => cases atomic
    | _ => rfl
  refine ⟨by rw [one operandAtomic], ?_, ?_⟩
  · rw [one atomic]
    exact .cons (rivals.shorter trivial) .nil
  · rw [one atomic]
    rintro same -
    exact rivals.keeps trivial (Sign.atom.inj (List.cons.inj same).1)

/-- An operand between parentheses is read on its own. -/
theorem parenthesized
    {value : Expression}
    {read : Pending × Expression}
    {found : List Sign}
    (echoes : Echoes place value .empty read found)
    (pending : Pending) :
    Echoes place value pending (pending, Pending.whole read) found := by
  refine ⟨?_, echoes.related, echoes.faithful⟩
  rw [Pending.whole, symbols_finish, echoes.reads]
  rfl

/-- A link goes to the operand that the text of its target ends with. -/
theorem link
    {value target operand linked : Expression}
    {pending rest : Pending}
    {found : List Sign}
    {before after : String}
    (echoes : Echoes place target pending (rest, operand) found)
    (valueSigns : signs place value = signs place target ++ [Sign.link before])
    (linkedSigns : signs place linked = signs place operand ++ [Sign.link after])
    (valueReach : reach value = reach target + reachOver target)
    (shorter : after.length ≤ before.length)
    (keeps : after = before → target.isBinary = false → target.Faithful → value.Faithful) :
    Echoes place value pending (rest, linked) (found ++ [Sign.link after]) := by
  refine ⟨?_, ?_, ?_⟩
  · rw [linkedSigns, Sign.symbols_append, ← List.append_assoc, echoes.reads, List.append_assoc]
    rfl
  · rw [valueSigns, Sign.symbols_append]
    exact List.rel_append echoes.related (.cons shorter .nil)
  · rw [valueSigns, Sign.symbols_append]
    intro same noReach
    obtain ⟨sameFound, sameLink⟩ := List.append_inj' same rfl
    rw [valueReach] at noReach
    have targetReach : reach target = 0 := by omega
    have noLink : reachOver target = 0 := by omega
    have isOperand := isBinary_of_reachOver_eq_zero noLink
    exact keeps (Sign.link.inj (List.cons.inj sameLink).1) isOperand
      (echoes.faithful sameFound targetReach)

/-- Both operands of a binary expression are read, one behind the other. -/
theorem binary
    {operator : String}
    {left right : Expression}
    {pending : Pending}
    {first second : Pending × Expression}
    {leftFound rightFound : List Sign}
    (leftEchoes : Echoes place left pending first leftFound)
    (rightEchoes : Echoes place right (first.1.extend first.2 operator) second rightFound) :
    Echoes place (.binary operator left right) pending second
      (leftFound ++ .operator operator :: rightFound) := by
  have valueSymbols : symbols (signs place (.binary operator left right)) =
      symbols (signs place left) ++ .operator operator :: symbols (signs place right) := by
    simp [signs]
  refine ⟨?_, ?_, ?_⟩
  · rw [rightEchoes.reads, pendingSymbols_extend, leftEchoes.reads]
    simp only [List.append_assoc, List.singleton_append]
  · rw [valueSymbols]
    exact List.rel_append leftEchoes.related (.cons (Nat.le_refl _) rightEchoes.related)
  · rw [valueSymbols]
    intro same noReach
    have sameLength : leftFound.length = (symbols (signs place left)).length :=
      leftEchoes.related.length_eq.symm
    obtain ⟨sameLeft, sameRight⟩ := List.append_inj same sameLength
    have bothReach : reach left = 0 ∧ reach right = 0 := Nat.add_eq_zero_iff.mp noReach
    exact ⟨leftEchoes.faithful sameLeft bothReach.1,
      rightEchoes.faithful (List.cons.inj sameRight).2 bothReach.2⟩

end Echoes

end Echoes

end Nim

end FrenchNim
