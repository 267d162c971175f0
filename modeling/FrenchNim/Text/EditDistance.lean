namespace FrenchNim

/-!
# Edit distance

The cheapest way to turn one word into another by inserting and deleting
characters at cost one and replacing them at cost two.
-/

namespace EditDistance

/-- The cost of matching two characters. -/
def replaceCost (left right : Char) : Nat :=
  if left = right then 0 else 2

/--
Fill a row of the distance table.

The row above is given from the diagonal neighbour on, and `left` is the entry
that was filled last.
-/
def fill (c : Char) : List Char → List Nat → Nat → List Nat
  | t :: target, diagonal :: above :: row, left =>
      let entry := min (min (above + 1) (left + 1)) (diagonal + replaceCost c t)
      entry :: fill c target (above :: row) entry
  | _, _, _ => []

/-- The row of the distance table for one more character of the word. -/
def nextRow (target : List Char) (row : List Nat) (c : Char) : List Nat :=
  let first := row.headD 0 + 1
  first :: fill c target row first

/-- The distance of two words. -/
def distance (word target : List Char) : Nat :=
  (word.foldl (nextRow target) (List.range (target.length + 1))).getLastD 0

end EditDistance

end FrenchNim
