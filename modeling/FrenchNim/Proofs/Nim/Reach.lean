import FrenchNim.Proofs.Nim.Signs
import FrenchNim.Proofs.Syntax.Regrouping

namespace FrenchNim

/-!
# How far links reach back

A link behind a binary expression reaches back over all its symbols. In the
tree that the canonical text stands for, the same link reaches back over the
last operand at most. So regrouping makes the total reach of the links smaller,
unless no link is applied to a binary expression. The total reach can be read
off the signs, so the signs change with it.
-/

namespace Nim

/-- The number of symbols of an expression. -/
def symbolCount : Expression → Nat
  | .invocation callee _ _ => symbolCount callee + 1
  | .member target _ _ => symbolCount target + 1
  | .index target _ _ => symbolCount target + 1
  | .binary _ left right => symbolCount left + symbolCount right + 1
  | _ => 1

/-- The number of symbols that a link behind the expression reaches back over. -/
def reachOver (target : Expression) : Nat :=
  if target.isBinary then symbolCount target else 0

/-- The number of symbols that the links of an expression reach back over. -/
def reach : Expression → Nat
  | .invocation callee _ _ => reach callee + reachOver callee
  | .member target _ _ => reach target + reachOver target
  | .index target _ _ => reach target + reachOver target
  | .binary _ left right => reach left + reach right
  | _ => 0

/--
The number of symbols that the links of a row reach back over, given where the
open parentheses stand, how many symbols came before, and how many of them the
last sign closed off.
-/
def rowReach : List Nat → Nat → Nat → List Sign → Nat
  | _, _, _, [] => 0
  | starts, index, _, .opening :: rest => rowReach (index :: starts) index 0 rest
  | starts, index, _, .closing :: rest =>
      rowReach starts.tail index (index - starts.headD index) rest
  | starts, index, closed, .link _ :: rest => closed + rowReach starts (index + 1) 0 rest
  | starts, index, _, .atom _ :: rest => rowReach starts (index + 1) 0 rest
  | starts, index, _, .operator _ :: rest => rowReach starts (index + 1) 0 rest

/-- An atom is one symbol, and no link in it reaches anything. -/
theorem measures_of_isAtom {value : Expression} (atomic : isAtom value = true) :
    symbolCount value = 1 ∧ reach value = 0 ∧ value.isBinary = false := by
  cases value with
  | invocation | member | index | binary => cases atomic
  | _ => exact ⟨rfl, rfl, rfl⟩

/-- A link that reaches over nothing is not applied to a binary expression. -/
theorem isBinary_of_reachOver_eq_zero
    {target : Expression}
    (nothing : reachOver target = 0) :
    target.isBinary = false := by
  cases target with
  | binary operator left right => cases nothing
  | _ => rfl

/-- The reach of the links of an expression can be read off its signs. -/
theorem rowReach_signs
    (place : Place)
    (value : Expression)
    (starts : List Nat)
    (index closed : Nat)
    (rest : List Sign) :
    rowReach starts index closed (signs place value ++ rest) =
      reach value +
        rowReach starts (index + symbolCount value) (reachOver value) rest := by
  fun_induction signs place value generalizing starts index closed rest with
  | case1 callee arguments last inductionHypothesis =>
      rw [List.append_assoc, inductionHypothesis]
      exact (Nat.add_assoc _ _ _).symm
  | case2 target name arrow inductionHypothesis =>
      rw [List.append_assoc, inductionHypothesis]
      exact (Nat.add_assoc _ _ _).symm
  | case3 target position last inductionHypothesis =>
      rw [List.append_assoc, inductionHypothesis]
      exact (Nat.add_assoc _ _ _).symm
  | case4 operator left right leftHypothesis rightHypothesis =>
      have counted : index + symbolCount left + 1 + symbolCount right =
          index + symbolCount (.binary operator left right) := by
        simp only [symbolCount]
        omega
      simp only [List.cons_append, List.append_assoc, List.nil_append, rowReach,
        leftHypothesis, rightHypothesis, List.tail_cons, List.headD_cons, counted]
      rw [← Nat.add_assoc, Nat.add_sub_cancel_left]
      rfl
  | case5 value notCall notMember notIndex notBinary =>
      have atomic := isAtom_of_ne notCall notMember notIndex notBinary
      obtain ⟨counted, reached, isOperand⟩ := measures_of_isAtom atomic
      have reachedOver : reachOver value = 0 := by
        rw [reachOver, isOperand]
        rfl
      simp [rowReach, counted, reached, reachedOver]

/-! ## Reach under regrouping -/

section Tally

variable (measure : Expression → Nat) (step : Nat)

/-- The measure of an operand that waits, with the step of its operator. -/
def waitingTally : Option (Expression × String) → Nat
  | none => 0
  | some (left, _) => measure left + step

/-- The measure of all operands that wait. -/
def tally (pending : Pending) : Nat :=
  waitingTally measure step pending.sum + waitingTally measure step pending.comparison

variable {measure step}
  (additive : ∀ operator left right,
    measure (.binary operator left right) = measure left + measure right + step)

include additive

/-- An operand and the one that waits for it are measured together. -/
theorem tally_join (waiting? : Option (Expression × String)) (operand : Expression) :
    measure (Pending.join waiting? operand) =
      waitingTally measure step waiting? + measure operand := by
  cases waiting? with
  | none =>
      exact (Nat.zero_add _).symm
  | some waiting =>
      rw [Pending.join, additive, waitingTally]
      omega

/-- The expression that ends with an operand measures what waits and the operand. -/
theorem tally_finish (pending : Pending) (operand : Expression) :
    measure (pending.finish operand) = tally measure step pending + measure operand := by
  rw [Pending.finish, Pending.compared, tally_join additive, tally_join additive, tally]
  omega

/-- Behind one more operand, what waits measures this operand too. -/
theorem tally_extend (pending : Pending) (operand : Expression) (operator : String) :
    tally measure step (pending.extend operand operator) =
      tally measure step pending + measure operand + step := by
  unfold Pending.extend
  split
  · simp only [tally, waitingTally, Pending.compared, tally_join additive]
    omega
  · simp only [tally, waitingTally, tally_finish additive]
    omega

end Tally

/-- The number of symbols of the operands that wait. -/
abbrev pendingCount : Pending → Nat :=
  tally symbolCount 1

/-- The reach of the links in the operands that wait. -/
abbrev pendingReach : Pending → Nat :=
  tally reach 0

/-- No symbol is lost or added at the end of an expression. -/
theorem symbolCount_finish (pending : Pending) (operand : Expression) :
    symbolCount (pending.finish operand) = pendingCount pending + symbolCount operand :=
  tally_finish (fun _ _ _ => rfl) pending operand

/-- No link reaches further at the end of an expression. -/
theorem reach_finish (pending : Pending) (operand : Expression) :
    reach (pending.finish operand) = pendingReach pending + reach operand :=
  tally_finish (fun _ _ _ => rfl) pending operand

/-- An operand waits with its symbols and its operator. -/
theorem pendingCount_extend (pending : Pending) (operand : Expression) (operator : String) :
    pendingCount (pending.extend operand operator) =
      pendingCount pending + symbolCount operand + 1 :=
  tally_extend (fun _ _ _ => rfl) pending operand operator

/-- An operand waits with the reach of its links. -/
theorem pendingReach_extend (pending : Pending) (operand : Expression) (operator : String) :
    pendingReach (pending.extend operand operator) = pendingReach pending + reach operand :=
  tally_extend (fun _ _ _ => rfl) pending operand operator

/--
Reading the text of an expression behind what waits keeps all symbols, and the
links in what was read reach no further than those of the expression. If they
reach as far, no link of the expression is applied to a binary expression.
-/
structure Shortens (value : Expression) (pending : Pending) (read : Pending × Expression) :
    Prop where
  count : pendingCount read.1 + symbolCount read.2 = pendingCount pending + symbolCount value
  waits : pendingCount pending ≤ pendingCount read.1
  reaches : pendingReach read.1 + reach read.2 ≤ pendingReach pending + reach value
  apart : pendingReach read.1 + reach read.2 = pendingReach pending + reach value →
    reach value = 0

namespace Shortens

/-- An operand between parentheses is read on its own. -/
theorem parenthesized
    {value : Expression}
    {read : Pending × Expression}
    (shortens : Shortens value .empty read)
    (pending : Pending) :
    Shortens value pending (pending, Pending.whole read) := by
  obtain ⟨count, -, reaches, apart⟩ := shortens
  have counted := symbolCount_finish read.1 read.2
  have reached := reach_finish read.1 read.2
  have nothing : pendingCount .empty = 0 ∧ pendingReach .empty = 0 := ⟨rfl, rfl⟩
  refine ⟨?_, Nat.le_refl _, ?_, fun same => apart ?_⟩
  all_goals
    simp only [Pending.whole] at *
    omega

/-- A link goes to the operand that the text of its target ends with. -/
theorem link
    {value target found : Expression}
    {pending rest : Pending}
    {operand : Expression}
    (shortens : Shortens target pending (rest, operand))
    (binaryWaits : target.isBinary = true → pendingCount pending < pendingCount rest)
    (staysOperand : target.isBinary = false → operand.isBinary = false)
    (valueCount : symbolCount value = symbolCount target + 1)
    (foundCount : symbolCount found = symbolCount operand + 1)
    (valueReach : reach value = reach target + reachOver target)
    (foundReach : reach found = reach operand + reachOver operand) :
    Shortens value pending (rest, found) := by
  obtain ⟨count, waits, reaches, apart⟩ := shortens
  have reachedOver : reachOver operand ≤ reachOver target ∧
      (reachOver operand = reachOver target → reachOver target = 0) := by
    unfold reachOver
    cases isBinary : target.isBinary with
    | true =>
        have longer := binaryWaits isBinary
        simp only at count
        split <;> simp only [if_true] <;> omega
    | false =>
        rw [staysOperand isBinary]
        exact ⟨Nat.le_refl _, fun _ => rfl⟩
  refine ⟨?_, waits, ?_, fun same => ?_⟩
  · simp only at count ⊢
    omega
  · simp only at reaches ⊢
    omega
  · simp only at reaches apart same
    have targetReach := apart (by omega)
    have overReach := reachedOver.2 (by omega)
    omega

/-- Both operands of a binary expression are read, one behind the other. -/
theorem binary
    {operator : String}
    {left right : Expression}
    {pending : Pending}
    {first second : Pending × Expression}
    (leftShortens : Shortens left pending first)
    (rightShortens : Shortens right (first.1.extend first.2 operator) second) :
    Shortens (.binary operator left right) pending second ∧
      pendingCount pending < pendingCount second.1 := by
  obtain ⟨leftCount, leftWaits, leftReaches, leftApart⟩ := leftShortens
  obtain ⟨rightCount, rightWaits, rightReaches, rightApart⟩ := rightShortens
  rw [pendingCount_extend] at rightCount rightWaits
  rw [pendingReach_extend] at rightReaches rightApart
  refine ⟨⟨?_, by omega, ?_, fun same => ?_⟩, by omega⟩
  · rw [symbolCount]
    omega
  · rw [reach]
    omega
  · rw [reach] at same ⊢
    have leftReach := leftApart (by omega)
    have rightReach := rightApart (by omega)
    omega

end Shortens

/-- An expression without links and operators is one operand, and stays one. -/
theorem push_of_isAtom
    {value : Expression}
    (atomic : isAtom value = true) :
    ∃ operand, isAtom operand = true ∧ ∀ pending, value.push pending = (pending, operand) := by
  cases value with
  | invocation | member | index | binary => cases atomic
  | _ => exact ⟨_, rfl, fun _ => rfl⟩

/-- What an expression that is not binary ends with is not binary either. -/
theorem push_isBinary
    {value : Expression}
    (isOperand : value.isBinary = false)
    (pending : Pending) :
    (value.push pending).2.isBinary = false := by
  cases value with
  | binary => cases isOperand
  | _ => rfl

/-- The same for an operand, which is read on its own if it is binary. -/
theorem Shortens.operand
    {value : Expression}
    (shortens : ∀ pending, Shortens value pending (value.push pending))
    (pending : Pending) :
    Shortens value pending (value.pushOperand pending) := by
  unfold Expression.pushOperand
  split
  · exact (shortens .empty).parenthesized pending
  · exact shortens pending

/-- Regrouping keeps the symbols of any expression and shortens the reach of its links. -/
theorem shortens_push (value : Expression) (pending : Pending) :
    Shortens value pending (value.push pending) ∧
      (value.isBinary = true → pendingCount pending < pendingCount (value.push pending).1) := by
  induction value using reach.induct generalizing pending with
  | case1 callee arguments last inductionHypothesis =>
      obtain ⟨shortens, binaryWaits⟩ := inductionHypothesis pending
      exact ⟨shortens.link binaryWaits (push_isBinary · pending) rfl rfl rfl rfl, nofun⟩
  | case2 target name arrow inductionHypothesis =>
      obtain ⟨shortens, binaryWaits⟩ := inductionHypothesis pending
      exact ⟨shortens.link binaryWaits (push_isBinary · pending) rfl rfl rfl rfl, nofun⟩
  | case3 target position last inductionHypothesis =>
      obtain ⟨shortens, binaryWaits⟩ := inductionHypothesis pending
      exact ⟨shortens.link binaryWaits (push_isBinary · pending) rfl rfl rfl rfl, nofun⟩
  | case4 operator left right leftHypothesis rightHypothesis =>
      have leftShortens := Shortens.operand (fun pending => (leftHypothesis pending).1) pending
      have rightShortens := Shortens.operand fun pending => (rightHypothesis pending).1
      obtain ⟨shortens, waits⟩ := leftShortens.binary (rightShortens _)
      exact ⟨shortens, fun _ => waits⟩
  | case5 value notCall notMember notIndex notBinary =>
      have atomic := isAtom_of_ne notCall notMember notIndex notBinary
      obtain ⟨operand, operandAtomic, pushed⟩ := push_of_isAtom atomic
      obtain ⟨counted, reached, isOperand⟩ := measures_of_isAtom atomic
      obtain ⟨operandCounted, operandReached, -⟩ := measures_of_isAtom operandAtomic
      rw [pushed]
      refine ⟨⟨?_, Nat.le_refl _, ?_, fun _ => reached⟩, fun isBinary => ?_⟩
      · rw [counted, operandCounted]
      · rw [reached, operandReached]
      · rw [isOperand] at isBinary
        cases isBinary

/-- An expression whose text has the signs of the expression links no binary expression. -/
theorem reach_eq_zero_of_signs_eq
    {place : Place}
    {value : Expression}
    (same : signs place value.regroup = signs place value) :
    reach value = 0 := by
  have reachOfSigns : ∀ value : Expression,
      rowReach [] 0 0 (signs place value) = reach value := by
    intro value
    have whole := rowReach_signs place value [] 0 0 []
    rwa [List.append_nil] at whole
  have sameReach : reach value.regroup = reach value := by
    rw [← reachOfSigns, ← reachOfSigns, same]
  refine (shortens_push value .empty).1.apart ?_
  rw [← reach_finish]
  exact sameReach.trans (Nat.zero_add _).symm

end Nim

end FrenchNim
