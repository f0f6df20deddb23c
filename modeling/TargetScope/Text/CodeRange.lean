/-!
# Sets of characters as ranges of code points

Large character classes are given as tables of closed ranges of code points; a character belongs
to the class when one of the ranges holds it.
-/

namespace TargetScope.Text

/-- A closed range of code points: its first and its last member. -/
abbrev CodeRange := Nat × Nat

/-- The range holds the code point `n`. -/
def CodeRange.contains (r : CodeRange) (n : Nat) : Bool :=
  r.1 ≤ n && n ≤ r.2

/-- One of the ranges of `table` holds the character. -/
def inRanges (table : List CodeRange) (c : Char) : Bool :=
  table.any fun r => r.contains c.toNat

theorem inRanges_iff {table : List CodeRange} {c : Char} :
    inRanges table c = true ↔ ∃ r ∈ table, r.1 ≤ c.toNat ∧ c.toNat ≤ r.2 := by
  simp [inRanges, CodeRange.contains]

end TargetScope.Text
