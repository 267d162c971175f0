import Mathlib.Order.Bounds.Basic
import FrenchNim.Text.EditDistance

namespace FrenchNim.EditDistance

/-!
# Edit scripts

An edit script turns one word into another, character by character. Inserting
and deleting a character costs one, replacing a character two, and keeping it
nothing. The distance of two words is the cost of the cheapest script: each row
of the table holds the cheapest costs for one more character of the word, and
each entry of a row for one more character of the target.
-/

/-- A script that turns a word into a target, and what it costs. -/
inductive Script : List Char → List Char → Nat → Prop where
  | done : Script [] [] 0
  | keep (c : Char) {word target : List Char} {cost : Nat}
      (later : Script word target cost) :
      Script (c :: word) (c :: target) cost
  | insert (c : Char) {word target : List Char} {cost : Nat}
      (later : Script word target cost) :
      Script word (c :: target) (cost + 1)
  | delete (c : Char) {word target : List Char} {cost : Nat}
      (later : Script word target cost) :
      Script (c :: word) target (cost + 1)
  | replace (c d : Char) {word target : List Char} {cost : Nat}
      (later : Script word target cost) :
      Script (c :: word) (d :: target) (cost + 2)

/-- No script that turns the word into the target is cheaper than the given cost, and one has it. -/
def IsCheapest (word target : List Char) (cost : Nat) : Prop :=
  IsLeast {cost | Script word target cost} cost

/-! ## The end of a script -/

namespace Script

variable {word target : List Char} {cost : Nat}

/-- Scripts are carried out one behind the other. -/
theorem append
    (first : Script word target cost)
    {word' target' : List Char}
    {cost' : Nat}
    (second : Script word' target' cost') :
    Script (word ++ word') (target ++ target') (cost + cost') := by
  induction first with
  | done => simpa using second
  | keep c later inductionHypothesis => exact .keep c inductionHypothesis
  | insert c later inductionHypothesis =>
      rw [Nat.add_right_comm]
      exact .insert c inductionHypothesis
  | delete c later inductionHypothesis =>
      rw [Nat.add_right_comm]
      exact .delete c inductionHypothesis
  | replace c d later inductionHypothesis =>
      rw [Nat.add_right_comm]
      exact .replace c d inductionHypothesis

/-- A script is carried out from the end as well. -/
theorem reverse
    (script : Script word target cost) :
    Script word.reverse target.reverse cost := by
  induction script with
  | done => exact .done
  | keep c later inductionHypothesis =>
      rw [List.reverse_cons, List.reverse_cons]
      exact inductionHypothesis.append (.keep c .done)
  | insert c later inductionHypothesis =>
      have whole := inductionHypothesis.append (.insert c .done)
      rwa [List.append_nil, ← List.reverse_cons] at whole
  | delete c later inductionHypothesis =>
      have whole := inductionHypothesis.append (.delete c .done)
      rwa [List.append_nil, ← List.reverse_cons] at whole
  | replace c d later inductionHypothesis =>
      rw [List.reverse_cons, List.reverse_cons]
      exact inductionHypothesis.append (.replace c d .done)

/-- The last character is deleted, inserted, or matched. -/
theorem concat_cases
    {c d : Char}
    (script : Script (word ++ [c]) (target ++ [d]) cost) :
    (∃ before, Script word (target ++ [d]) before ∧ cost = before + 1) ∨
    (∃ before, Script (word ++ [c]) target before ∧ cost = before + 1) ∨
    ∃ before, Script word target before ∧ before + replaceCost c d ≤ cost := by
  have reversed := script.reverse
  rw [List.reverse_concat, List.reverse_concat] at reversed
  cases reversed with
  | keep _ later =>
      have before := later.reverse
      rw [List.reverse_reverse, List.reverse_reverse] at before
      exact .inr (.inr ⟨_, before, by simp [replaceCost]⟩)
  | insert _ later =>
      have before := later.reverse
      rw [List.reverse_cons, List.reverse_reverse, List.reverse_reverse] at before
      exact .inr (.inl ⟨_, before, rfl⟩)
  | delete _ later =>
      have before := later.reverse
      rw [List.reverse_cons, List.reverse_reverse, List.reverse_reverse] at before
      exact .inl ⟨_, before, rfl⟩
  | replace _ _ later =>
      have before := later.reverse
      rw [List.reverse_reverse, List.reverse_reverse] at before
      refine .inr (.inr ⟨_, before, Nat.add_le_add_left ?_ _⟩)
      unfold replaceCost
      split <;> omega

end Script

/-! ## The cheapest script -/

namespace IsCheapest

variable {word target : List Char}

/-- Nothing is turned into nothing for free. -/
theorem nil : IsCheapest [] [] 0 :=
  ⟨.done, fun _ _ => Nat.zero_le _⟩

/-- One more character of the target has to be inserted into an empty word. -/
theorem concat_target
    {cost : Nat}
    (cheapest : IsCheapest [] target cost)
    (d : Char) :
    IsCheapest [] (target ++ [d]) (cost + 1) := by
  refine ⟨by simpa using cheapest.1.append (.insert d .done), fun other script => ?_⟩
  have reversed := script.reverse
  rw [List.reverse_concat] at reversed
  cases reversed with
  | insert _ later =>
      have before := later.reverse
      rw [List.reverse_reverse, List.reverse_reverse] at before
      exact Nat.succ_le_succ (cheapest.2 before)

/-- One more character of the word has to be deleted for an empty target. -/
theorem concat_word
    {cost : Nat}
    (cheapest : IsCheapest word [] cost)
    (c : Char) :
    IsCheapest (word ++ [c]) [] (cost + 1) := by
  refine ⟨by simpa using cheapest.1.append (.delete c .done), fun other script => ?_⟩
  have reversed := script.reverse
  rw [List.reverse_concat] at reversed
  cases reversed with
  | delete _ later =>
      have before := later.reverse
      rw [List.reverse_reverse] at before
      exact Nat.succ_le_succ (cheapest.2 before)

/-- Characters are matched at the cost of replacing one by the other. -/
theorem match_last
    {cost : Nat}
    (script : Script word target cost)
    (c d : Char) :
    Script (word ++ [c]) (target ++ [d]) (cost + replaceCost c d) := by
  unfold replaceCost
  split
  · next same =>
      cases same
      exact script.append (.keep c .done)
  · exact script.append (.replace c d .done)

/-- The entry of the table for one more character on both sides. -/
theorem concat
    {above left diagonal : Nat}
    {c d : Char}
    (isAbove : IsCheapest word (target ++ [d]) above)
    (isLeft : IsCheapest (word ++ [c]) target left)
    (isDiagonal : IsCheapest word target diagonal) :
    IsCheapest (word ++ [c]) (target ++ [d])
      (min (min (above + 1) (left + 1)) (diagonal + replaceCost c d)) := by
  have deleted : Script (word ++ [c]) (target ++ [d]) (above + 1) := by
    simpa using isAbove.1.append (.delete c .done)
  have inserted : Script (word ++ [c]) (target ++ [d]) (left + 1) := by
    simpa using isLeft.1.append (.insert d .done)
  have matched := match_last isDiagonal.1 c d
  constructor
  · rcases Nat.le_total (min (above + 1) (left + 1)) (diagonal + replaceCost c d) with less | more
    · rw [Nat.min_eq_left less]
      rcases Nat.le_total (above + 1) (left + 1) with less | more
      · rwa [Nat.min_eq_left less]
      · rwa [Nat.min_eq_right more]
    · rwa [Nat.min_eq_right more]
  · intro other script
    obtain ⟨before, inner, rfl⟩ | ⟨before, inner, rfl⟩ | ⟨before, inner, bound⟩ :=
      script.concat_cases
    · have least := isAbove.2 inner
      omega
    · have least := isLeft.2 inner
      omega
    · have least := isDiagonal.2 inner
      omega

end IsCheapest

/-! ## The rows of the table -/

/-- The cheapest costs for a word, one for each part of the target behind the front. -/
inductive IsRow (word : List Char) : List Char → List Char → List Nat → Prop where
  | last {front : List Char} {cost : Nat}
      (cheapest : IsCheapest word front cost) :
      IsRow word front [] [cost]
  | next {front target : List Char} {d : Char} {cost : Nat} {row : List Nat}
      (cheapest : IsCheapest word front cost)
      (later : IsRow word (front ++ [d]) target row) :
      IsRow word front (d :: target) (cost :: row)

namespace IsRow

variable {word front target : List Char} {row : List Nat}

/-- A row starts with the cost of the front. -/
theorem exists_head (isRow : IsRow word front target row) :
    ∃ cost rest, row = cost :: rest ∧ IsCheapest word front cost := by
  cases isRow with
  | last cheapest => exact ⟨_, _, rfl, cheapest⟩
  | next cheapest later => exact ⟨_, _, rfl, cheapest⟩

/-- A row ends with the cost of the whole target. -/
theorem getLastD (isRow : IsRow word front target row) (default : Nat) :
    IsCheapest word (front ++ target) (row.getLastD default) := by
  induction isRow generalizing default with
  | last cheapest => simpa using cheapest
  | @next front target d cost row cheapest later inductionHypothesis =>
      rw [List.getLastD_cons]
      simpa using inductionHypothesis cost

/-- The first row of the table, where nothing was read of the word. -/
theorem range' (front target : List Char) (cheapest : IsCheapest [] front front.length) :
    IsRow [] front target (List.range' front.length (target.length + 1)) := by
  induction target generalizing front with
  | nil => exact .last cheapest
  | cons d target inductionHypothesis =>
      have more : (front ++ [d]).length = front.length + 1 := by
        simp
      have later := inductionHypothesis (front ++ [d]) (more ▸ cheapest.concat_target d)
      rw [more] at later
      rw [List.length_cons, List.range'_succ]
      exact .next cheapest later

/-- A row is filled from the row above it and its first entry. -/
theorem fill
    {c : Char}
    {left : Nat}
    (isRow : IsRow word front target row)
    (isLeft : IsCheapest (word ++ [c]) front left) :
    IsRow (word ++ [c]) front target (left :: fill c target row left) := by
  induction isRow generalizing left with
  | last cheapest => exact .last isLeft
  | next cheapest later inductionHypothesis =>
      obtain ⟨above, rest, rfl, isAbove⟩ := later.exists_head
      exact .next isLeft (inductionHypothesis (isAbove.concat isLeft cheapest))

/-- One more character of the word makes the next row. -/
theorem nextRow (isRow : IsRow word [] target row) (c : Char) :
    IsRow (word ++ [c]) [] target (nextRow target row c) := by
  obtain ⟨cost, rest, rfl, cheapest⟩ := isRow.exists_head
  exact isRow.fill (cheapest.concat_word c)

/-- All further characters of the word make the row of the whole word. -/
theorem foldl (isRow : IsRow word [] target row) (more : List Char) :
    IsRow (word ++ more) [] target (more.foldl (EditDistance.nextRow target) row) := by
  induction more generalizing word row with
  | nil => simpa using isRow
  | cons c more inductionHypothesis =>
      rw [List.append_cons]
      exact inductionHypothesis (isRow.nextRow c)

end IsRow

/-- The distance of two words is the cost of the cheapest script. -/
theorem distance_isCheapest (word target : List Char) :
    IsCheapest word target (distance word target) := by
  have firstRow : IsRow [] [] target (List.range (target.length + 1)) := by
    rw [List.range_eq_range']
    exact IsRow.range' [] target .nil
  exact (firstRow.foldl word).getLastD 0

theorem isCheapest_iff {word target : List Char} {cost : Nat} :
    IsCheapest word target cost ↔ cost = distance word target :=
  ⟨fun cheapest => cheapest.unique (distance_isCheapest word target),
    fun same => same ▸ distance_isCheapest word target⟩

end FrenchNim.EditDistance
