import TargetScope.Text.Blank

/-!
# The words of a line

A line is read up to its first number sign; what stands before it is a row of words with blanks
between them.  A word remembers the column, counted from one, at which it begins.
-/

namespace TargetScope.Text

/-- A word of a line. -/
structure Word where
  /-- The characters of the word. -/
  text : String
  /-- The column of its first character. -/
  column : Nat
deriving DecidableEq, Repr

/-- The character can stand in a word: it is no blank, and does not begin a comment. -/
def belongsToWord (c : Char) : Bool :=
  !isBlank c && c ≠ '#'

/-- The words of a text whose first character stands at the given column.  Blanks are passed over, a
word goes up to the first character that cannot stand in one, and a number sign ends the reading. -/
def wordsFrom (column : Nat) : List Char → List Word
  | [] => []
  | c :: rest =>
    if c = '#' then []
    else if isBlank c then wordsFrom (column + 1) rest
    else
      let run := c :: rest.takeWhile belongsToWord
      ⟨String.ofList run, column⟩ ::
        wordsFrom (column + run.length) (rest.dropWhile belongsToWord)
termination_by text => text.length
decreasing_by
  · simp
  · simpa using Nat.lt_succ_of_le (List.dropWhile_suffix _).length_le

/-- The words of a line. -/
def words (line : List Char) : List Word :=
  wordsFrom 1 line

end TargetScope.Text
