namespace FrenchNim

/-!
# Tables of characters

Properties of characters are kept as arrays that are sorted by code, and looked
up by halving.
-/

namespace CodeTable

/--
The last index from `low` up to `high` whose key is at most the code.

The interval is halved until it holds one index; the fuel bounds the number of
halvings.
-/
def lastAtMost (key : Nat → Nat) (code : Nat) : Nat → Nat → Nat → Nat
  | 0, low, _ => low
  | fuel + 1, low, high =>
      if high ≤ low + 1 then
        low
      else
        let middle := (low + high) / 2
        if key middle ≤ code then
          lastAtMost key code fuel middle high
        else
          lastAtMost key code fuel low middle

/-- Enough halvings for every array. -/
def halvings : Nat := 64

/-- The entry whose key is the largest one that is at most the code. -/
def entry? {α : Type} (key : α → Nat) (table : Array α) (code : Nat) : Option α :=
  table[lastAtMost (fun index => (table[index]?.map key).getD 0) code halvings 0 table.size]?

/-- The code lies in one of the ranges. -/
def inRanges (table : Array (Nat × Nat)) (code : Nat) : Bool :=
  match entry? (·.1) table code with
  | some (first, last) => first ≤ code && code ≤ last
  | none => false

/-- The value of the range that holds the code. -/
def rangeValue? (table : Array (Nat × Nat × Nat)) (code : Nat) : Option Nat :=
  match entry? (·.1) table code with
  | some (first, last, value) => if first ≤ code ∧ code ≤ last then some value else none
  | none => none

/-- The value of exactly the code. -/
def value? {α : Type} (table : Array (Nat × α)) (code : Nat) : Option α :=
  match entry? (·.1) table code with
  | some (key, value) => if key = code then some value else none
  | none => none

end CodeTable

end FrenchNim
