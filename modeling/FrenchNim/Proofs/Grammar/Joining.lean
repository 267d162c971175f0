import FrenchNim.Proofs.Grammar.Seam

namespace FrenchNim.Grammar

/-!
# Programs behind one another

A program can be followed by another one if a line break stands between the two,
outside of embedded code. The two together are read as the declarations of the
first and then those of the second, since no declaration goes on behind a line
break that the end of the input would have ended.
-/

/-- Declarations that were read before stand in front. -/
theorem declarations_behind
    (final : Token)
    (room : Nat)
    (earlier known : List Declaration)
    (tokens : List Token) :
    declarations final room (known ++ earlier) tokens =
      (declarations final room known tokens).map (earlier.reverse ++ ·) := by
  induction known, tokens using declarations_induction final room with
  | finished known =>
      rw [declarations_nil, declarations_nil, List.reverse_append]
      rfl
  | step known token behind inductionHypothesis =>
      rw [declarations_cons, declarations_cons]
      cases found : Rule.declaration.read final room (token :: behind) with
      | error error =>
          rfl
      | ok parsed =>
          exact inductionHypothesis parsed.1 parsed.2 found

/-- Line breaks alone are skipped together with those that follow. -/
theorem skipNewlines_append_of_empty
    {tokens : List Token}
    (empty : skipNewlines tokens = [])
    (tail : List Token) :
    skipNewlines (tokens ++ tail) = skipNewlines tail := by
  unfold skipNewlines at *
  rw [List.dropWhile_append, empty]
  rfl

/-- Reading goes on behind a program that a line break ends. -/
theorem declarations_append
    (seam : Seam)
    (room : Nat)
    (known : List Declaration)
    (tokens : List Token) :
    ∀ front, skipNewlines front = tokens → front = [] ∨ seam.Fits front →
      ∀ all, declarations seam.final room known tokens = .ok all →
        declarations seam.newFinal room known (skipNewlines (front ++ seam.tail)) =
          declarations seam.newFinal room all.reverse (skipNewlines seam.tail) := by
  induction known, tokens using declarations_induction seam.final room with
  | finished known =>
      intro front empty _ all read
      rw [declarations_nil] at read
      cases read
      rw [skipNewlines_append_of_empty empty, List.reverse_reverse]
  | step known token behind inductionHypothesis =>
      intro front skipped remains all read
      have present : skipNewlines front ≠ [] := by
        rw [skipped]
        exact List.cons_ne_nil _ _
      have fits : seam.Fits (token :: behind) := by
        rcases remains with rfl | fits
        · cases skipped
        · rw [← skipped]
          exact fits.suffix (skipNewlines_suffix front) present
      have carries := (carriesOn .declaration room (token :: behind)).carries rfl fits
      rw [skipNewlines_append present, skipped, List.cons_append, declarations_cons]
      rw [declarations_cons] at read
      cases found : Rule.declaration.read seam.final room (token :: behind) with
      | error error =>
          rw [found] at read
          cases read
      | ok parsed =>
          obtain ⟨next, rest⟩ := parsed
          obtain ⟨fits, later⟩ := carries next rest found
          rw [found] at read
          rw [List.cons_append] at later
          rw [later]
          exact inductionHypothesis next rest found rest rfl (.inr fits) all read

/-- Two token lists with a line break between them have their declarations behind one another. -/
theorem declarations_joined
    {final newFinal lineBreak : Token}
    {room : Nat}
    {first second : List Token}
    {before behind : List Declaration}
    (isEnd : final.kind = .endOfInput)
    (isBreak : lineBreak.kind = .newline)
    (outside : endsInCode first = false)
    (readFirst : declarations final room [] (skipNewlines first) = .ok before)
    (readSecond : declarations newFinal room [] (skipNewlines second) = .ok behind) :
    declarations newFinal room [] (skipNewlines (first ++ lineBreak :: second)) =
      .ok (before ++ behind) := by
  let seam : Seam :=
    { final := final
      tail := lineBreak :: second
      newFinal := newFinal
      isEnd := isEnd }
  have fits : seam.Fits first := ⟨.inl ⟨lineBreak, second, rfl, isBreak⟩, outside⟩
  have skipped : skipNewlines (lineBreak :: second) = skipNewlines second := by
    rw [skipNewlines, List.dropWhile_cons_of_pos (by simp [isBreak])]
    rfl
  calc declarations newFinal room [] (skipNewlines (first ++ lineBreak :: second))
      = declarations newFinal room before.reverse (skipNewlines (lineBreak :: second)) :=
        declarations_append seam room [] _ first rfl (.inr fits) before readFirst
    _ = (declarations newFinal room [] (skipNewlines second)).map (before.reverse.reverse ++ ·) := by
        rw [skipped]
        exact declarations_behind newFinal room before.reverse [] (skipNewlines second)
    _ = .ok (before ++ behind) := by
        rw [readSecond, List.reverse_reverse]
        rfl

end FrenchNim.Grammar
