/-!
# Ranges of code points

The tables of character classes are lists of inclusive ranges of code points.
-/

namespace Gridfill.Text

/-- The code points from `first` to `last`, both included. -/
structure CodeRange where
  first : Nat
  last : Nat
deriving DecidableEq, Repr

/-- Does the range hold the code point? -/
def CodeRange.covers (r : CodeRange) (n : Nat) : Bool := r.first ≤ n && n ≤ r.last

/-- Does a range of the table hold the character? -/
def inRanges (table : List CodeRange) (c : Char) : Bool := table.any (·.covers c.toNat)

theorem inRanges_iff (table : List CodeRange) (c : Char) :
    inRanges table c = true ↔ ∃ r ∈ table, r.first ≤ c.toNat ∧ c.toNat ≤ r.last := by
  simp [inRanges, CodeRange.covers]

end Gridfill.Text
