/-!
# Positions

A place in a text by line and column.
-/

namespace TargetScope

/-- The most digits of a number that is read or written. -/
def maxDigits : Nat := 4300

/-- A place in a text.  Whoever reads a position from a text counts lines and columns from one; a
position handed in by a caller may hold any two integers. -/
structure Position where
  /-- The line. -/
  line : Int
  /-- The column, in code points. -/
  column : Int
deriving DecidableEq, Repr

namespace Position

/-- Neither number has more digits than are written. -/
structure IsShort (p : Position) : Prop where
  /-- The line is not too long. -/
  line_short : (toString p.line.natAbs).length ≤ maxDigits
  /-- The column is not too long. -/
  column_short : (toString p.column.natAbs).length ≤ maxDigits

instance (p : Position) : Decidable p.IsShort :=
  decidable_of_iff ((toString p.line.natAbs).length ≤ maxDigits ∧
      (toString p.column.natAbs).length ≤ maxDigits)
    ⟨fun ⟨h₁, h₂⟩ => ⟨h₁, h₂⟩, fun ⟨h₁, h₂⟩ => ⟨h₁, h₂⟩⟩

/-- The written form of a position: line and column, with a colon between them.  It is that of a
short position (`Position.IsShort`); whoever hands in a position keeps to these, and so does the
reader of event files. -/
def text (p : Position) : String :=
  toString p.line ++ ":" ++ toString p.column

end Position

end TargetScope
